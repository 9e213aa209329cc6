import TokenSpeed.Tier.Lemmas.StorageCalls

/-!
# Storage tickets under any order of calls

The limits hold in every state a run reaches, and every call leaves a GET its blocks unless it is
one of the calls that may take them.
-/

namespace TokenSpeed.StorageRun

open StorageTransferManager

/-- Tickets are safe under any order of calls on a manager that starts without any, whoever else
holds references on the two tiers. -/
theorem runs_keep_tickets {m : StorageTransferManager} {devRefs ext : CacheBlockLocation → Nat}
    (hops : m.operations = []) (hcommands : m.commands = []) (hdevice : m.coordinator.Accounted devRefs)
    (hhost : m.coordinator.HostAccounted ext) {s : StorageRun} (hruns : Runs { manager := m } s) :
    s.manager.numHeldBlocks ≤ m.config.maxHostBlocks ∧
    s.manager.operations.length ≤ m.config.maxOperations ∧
    s.manager.puts.length ≤ m.config.maxOperations / 2 ∧
    (s.manager.puts.map fun x => x.2.blocks.length).sum ≤ m.config.maxHostBlocks / 2 ∧
    (∀ id ticket, s.manager.find id = some ticket → ∀ l ∈ ticket.blocks,
      ∃ pool, s.manager.coordinator.hostPool = some pool ∧ 0 < pool.useCount l) ∧
    (∀ id ticket, s.manager.find id = some ticket → ticket.kind = .get →
      ∀ i l, ticket.blocks[i]? = some l → ticket.Pending i → ¬ HostIndexed s l) ∧
    (∀ event s', s.step event = .ok s' → TicketsKept s event s') ∧
    ∀ id ticket s', s.manager.find id = some ticket → ticket.quarantined = true → Runs s s' →
      ∃ ticket', s'.manager.find id = some ticket' ∧ ticket'.blocks = ticket.blocks ∧ ticket'.quarantined = true := by
  have hs : TicketsOk devRefs ext { manager := m } := .start hops hcommands hdevice hhost
  obtain ⟨hok, hc⟩ := hruns.ticketsOk hs
  rw [← show s.manager.config = m.config from hc]
  refine ⟨hok.held, hok.count, hok.puts_count, hok.puts_blocks, ?_, ?_, ?_, ?_⟩
  · exact fun id ticket hf l hl => hok.block_live hf hl
  · exact fun id ticket hf hkind i l hl hpending => hok.pending_unindexed hf hkind hl hpending
  · exact fun event s' hst => ((step_safe hok event).of_ok hst).2
  · exact fun id ticket s' hf hq hruns' => hruns'.quarantined hok hf hq

/-- One full group of pages of two tokens over two blocks on either tier. -/
def readManager : StorageTransferManager where
  coordinator := .make [{ blockGranularity := 2 }] 2 id 2 (some 2) none false true
  config :=
    { maxOperations := 2
      maxKeysPerOperation := 4
      maxHostBlocks := 2
      metadataEntries := 4
      pressureHigh := ⟨8, 8, 8⟩
      pressureLow := ⟨4, 4, 4⟩ }

/-- A read of one page is handed over and detached, and its worker gives up on it without retiring. -/
def abandonedRead : List StorageEvent :=
  let page := hashPrefixPage id [7, 8] []
  [.startRead { prefixHashes := [page], tokens := [7, 8], maxTokens := 2 } [⟨0, 0, page, 0⟩], .takeCommands, .detach 1,
    .done { opId := 1, success := [1], retired := false, objectFailures := [0] }]

theorem readManager_pools : Accounts (.make 2 (fun i => (readManager.coordinator.spec i).cacheBlocksPerLcmBlock)
    fun i => (readManager.coordinator.spec i).shardCount) 1 (fun _ => []) fun _ => 0 := by
  have hn : ∀ i, (readManager.coordinator.spec i).cacheBlocksPerLcmBlock = 1 ∧
      (readManager.coordinator.spec i).shardCount = 1 := by
    rintro (_ | i) <;> exact ⟨rfl, rfl⟩
  refine .make 2 1 (fun i => ?_) (fun i => ?_) fun i => ?_
  · rw [(hn i).1]
    exact Nat.one_pos
  · rw [(hn i).2]
    exact Nat.one_pos
  · rw [(hn i).2]
    exact one_dvd _

theorem runs_keep_tickets_abandoned :
    ∃ s ticket, abandonedRead.foldlM step { manager := readManager } = .ok s ∧ s.manager.find 1 = some ticket ∧
      ticket.blocks = [⟨1, 0⟩] ∧ ticket.quarantined = true ∧ s.manager.numHeldBlocks ≤ 2 ∧
      ∀ s', Runs s s' → ∃ ticket', s'.manager.find 1 = some ticket' ∧ ticket'.blocks = [⟨1, 0⟩] := by
  refine ⟨_, _, rfl, rfl, rfl, rfl, ?_⟩
  obtain ⟨hh, -, -, -, -, -, -, hq⟩ := runs_keep_tickets (m := readManager) rfl rfl readManager_pools
    ⟨_, rfl, readManager_pools⟩ (Runs.of_foldlM abandonedRead rfl)
  refine ⟨hh, fun s' hr => ?_⟩
  obtain ⟨ticket', hf, hblocks, -⟩ := hq 1 _ s' rfl rfl hr
  exact ⟨ticket', hf, hblocks⟩

end TokenSpeed.StorageRun

import TokenSpeed.Tier.Lemmas.Storage

/-!
# The calls on the storage manager

Every call keeps the ticket invariant, whatever it is called with; a call that stops at an assertion
takes no part.
-/

namespace TokenSpeed

open StorageTransferManager List CacheCoordinator

section Calls

variable {devRefs ext : CacheBlockLocation → Nat} {s s' : StorageRun} {event : StorageEvent}

abbrev StorageRun.withManager (s : StorageRun) (m : StorageTransferManager) : StorageRun := { s with manager := m }

def CallOk (devRefs ext : CacheBlockLocation → Nat) (s : StorageRun) (event : StorageEvent) (s' : StorageRun) : Prop :=
  TicketsOk devRefs ext s' ∧ TicketsKept s event s'

variable {refs : CacheBlockLocation → Nat}

theorem HostChange.hostIndexed
    (h : HostChange devRefs refs (fun _ => False) s.manager.coordinator s'.manager.coordinator)
    (l) (hl : HostIndexed s' l) : HostIndexed s l := by
  rw [hostIndexed_iff] at hl ⊢
  exact (h.indexed l hl).resolve_right not_false

variable {new : CacheBlockLocation → Prop}

theorem TicketsOk.same (h : TicketsOk devRefs ext s) :
    HostChange devRefs (fun l => s.manager.refs l + ext l) new s.manager.coordinator s.manager.coordinator :=
  .refl h.device h.host

theorem CallOk.frame (h : TicketsOk devRefs ext s)
    (hc : HostChange devRefs (fun l => s.manager.refs l + ext l) (fun _ => False)
      s.manager.coordinator s'.manager.coordinator)
    (hg : s'.manager.config = s.manager.config) (hs : s'.manager.operations = s.manager.operations)
    (hn : s'.manager.nextId = s.manager.nextId) (his : s'.issued = s.issued) :
    CallOk devRefs ext s event s' :=
  ⟨h.frame hc hg hs hn his,
    .of_find h hg (fun id _ hd => (find_congr hs id).trans hd) hc.hostIndexed⟩

theorem CallOk.refl (h : TicketsOk devRefs ext s) : CallOk devRefs ext s event s := .frame h h.same rfl rfl rfl rfl

/-! ## Starting -/

theorem takeId_safe (m : StorageTransferManager) :
    Safe m.takeId fun out => out = (m.nextId, { m with nextId := m.nextId + 1 }) :=
  .assert fun _ => .pure rfl

variable {m : StorageTransferManager}

theorem canStart_room (h : m.canStart = true) : m.operations.length < m.config.maxOperations := by
  unfold canStart at h
  simp only [Bool.and_eq_true, decide_eq_true_eq] at h
  exact h.1.2

theorem startQuery_safe (h : TicketsOk devRefs ext s) (ks) :
    Safe (s.manager.startQuery ks) fun out => CallOk devRefs ext s (.startQuery ks) (s.withManager out.2) := by
  unfold startQuery
  split
  · exact .pure (.refl h)
  · rename_i hg
    simp only [Bool.or_eq_true, Bool.not_eq_true', not_or, Bool.not_eq_false] at hg
    refine (takeId_safe s.manager).bind ?_
    rintro _ rfl
    have hc : HostChange devRefs (fun l => (s.manager.refs l + ext l) + ([] : List CacheBlockLocation).count l)
        (fun _ => False) s.manager.coordinator s.manager.coordinator := h.same
    refine .pure ⟨h.add rfl rfl rfl rfl rfl rfl hc ?_ h.held ?_ ?_ ?_ rfl ?_ ?_, ?_⟩
    · exact canStart_room hg.1.1.2
    · exact fun hk => nomatch hk
    · exact fun hk => nomatch hk
    · exact fun hk => nomatch hk
    · exact forall_mem_nil _
    · exact fun hk => nomatch hk
    · exact .of_find h rfl (find_added rfl) hc.hostIndexed

theorem resolveBlocks_safe (c ks bls) : Safe (resolveBlocks c ks bls) fun _ => True := by
  refine (Safe.mapM (R := fun _ _ => True) _ fun row _ => ?_).mono fun _ _ => trivial
  exact Safe.assert fun _ => Safe.assert fun _ => Safe.assert fun _ => safe_pure.mpr trivial

theorem startRead_safe (h : TicketsOk devRefs ext s) (pr) (hits) :
    Safe (s.manager.startRead pr hits) fun out =>
      CallOk devRefs ext s (.startRead pr hits) (s.withManager out.2) := by
  unfold startRead
  split
  · exact .pure (.refl h)
  · rename_i hg
    simp only [Bool.or_eq_true, Bool.not_eq_true', not_or, Bool.not_eq_false] at hg
    refine (reserveStoragePrefix_safe h.host pr hits _).bind ?_
    rintro ⟨rest, c⟩ ⟨ht, hr, hb⟩
    dsimp only at ht hr hb ⊢
    have hc : HostChange devRefs (fun l => (s.manager.refs l + ext l) + rest.blocks.count l)
        (fun _ => False) s.manager.coordinator c := .of_takes ht h.device
    split
    · rename_i hp
      rw [List.isEmpty_iff] at hp
      rw [hp, length_nil, length_eq_zero_iff] at hr
      rw [hr] at hc
      exact .pure (.frame h hc rfl rfl rfl rfl)
    · refine (takeId_safe _).bind ?_
      rintro _ rfl
      refine (resolveBlocks_safe _ _ _).bind fun hs _ => ?_
      refine .pure ⟨h.add rfl rfl rfl rfl rfl rfl hc ?_ ?_ ?_ ?_ ?_ rfl ?_ ?_, ?_⟩
      · exact canStart_room hg.1
      · unfold availableHostCredits at hb
        have := h.held
        dsimp only
        omega
      · exact fun hk => nomatch hk
      · exact fun hk => nomatch hk
      · exact fun _ => hr
      · exact fun l hl => .inl (ht.fresh l hl).1
      · refine fun _ => ⟨ht.nodup, fun l hl => ?_⟩
        obtain ⟨hz, hd⟩ := ht.fresh l hl
        rw [← ht.config.groups_eq] at hd
        exact ⟨hz, hd⟩
      · exact .of_find h rfl (find_added rfl) hc.hostIndexed

/-! ## Backups -/

structure Gathered (refs : CacheBlockLocation → Nat) (limit : Nat) (c : CacheCoordinator) (batch : BackupBatch) :
    Prop where
  same : CacheCoordinator.SameIndex c batch.coord
  accounted : batch.coord.HostAccounted fun l => refs l + batch.blocks.count l
  bound : batch.blocks.length ≤ limit
  indexed : ∀ l ∈ batch.blocks, 0 < indexRefs c.groups.length c.hostEntries l

variable {c : CacheCoordinator}

theorem collectBackups_safe {lm} :
    ∀ (candidates pn : List CacheKey) {bt}, Gathered refs lm c bt →
    Safe (collectBackups lm candidates pn bt) fun out => Gathered refs lm c out.2
  | [], _, _, h => .pure h
  | key :: rest, pn, bt, h => by
    unfold collectBackups
    split
    · exact .pure h
    · split
      · exact collectBackups_safe rest pn h
      · refine (acquireHostCachedBlock_safe h.accounted key).bind ?_
        rintro ⟨fn, c1⟩ ⟨hs, hc, hf⟩
        cases fn with
        | none => exact collectBackups_safe rest _ ⟨h.same.trans hs, hc.congr fun _ => rfl, h.bound, h.indexed⟩
        | some l =>
          refine collectBackups_safe rest _ ⟨h.same.trans hs, hc.congr fun x => ?_, ?_, ?_⟩
          · rw [count_append, Option.toList_some]
            omega
          · rw [length_append]
            show bt.blocks.length + 1 ≤ lm
            omega
          · intro x hx
            rcases mem_append.mp hx with hx | hx
            · exact h.indexed x hx
            · have := hf l rfl
              rw [h.same.config.groups_eq, h.same.entries] at this
              rw [mem_singleton.mp hx]
              exact this

theorem startBackups_safe (h : TicketsOk devRefs ext s) :
    Safe s.manager.startBackups fun m => CallOk devRefs ext s .startBackups (s.withManager m) := by
  unfold startBackups
  split
  · exact .pure (.refl h)
  · rename_i hg
    simp only [Bool.or_eq_true, Bool.not_eq_true', not_or, Bool.not_eq_false, decide_eq_true_eq, not_le] at hg
    have hs : Gathered (fun l => s.manager.refs l + ext l) s.manager.backupLimit s.manager.coordinator
        { coord := s.manager.coordinator } :=
      ⟨.refl _, h.host, Nat.zero_le _, forall_mem_nil _⟩
    refine (collectBackups_safe _ _ hs).bind ?_
    rintro ⟨rest, bt⟩ hb
    dsimp only at hb ⊢
    have hc : HostChange devRefs (fun l => (s.manager.refs l + ext l) + bt.blocks.count l)
        (fun _ => False) s.manager.coordinator bt.coord := .of_same hb.same h.device hb.accounted
    have hbo := hb.bound
    unfold backupLimit availableHostCredits at hbo
    split
    · rename_i hp
      rw [isEmpty_iff.mp hp] at hc
      exact .pure (.frame h hc rfl rfl rfl rfl)
    · refine (resolveBlocks_safe _ _ _).bind fun hos _ => ?_
      refine (takeId_safe _).bind ?_
      rintro _ rfl
      refine .pure ⟨h.add rfl rfl rfl rfl rfl rfl hc ?_ ?_ ?_ ?_ ?_ rfl ?_ ?_, ?_⟩
      · exact canStart_room hg.1.1
      · have := h.held
        dsimp only at hbo ⊢
        omega
      · exact fun _ => hg.1.2
      · intro _
        have := h.puts_blocks
        dsimp only at hbo ⊢
        omega
      · exact fun hk => nomatch hk
      · exact fun l hl => .inr (hb.indexed l hl)
      · exact fun hk => nomatch hk
      · exact .of_find h rfl (find_added rfl) hc.hostIndexed

/-! ## Completions -/

theorem HostChange.evicts {hash : ContentHash → Prop} {c' c''} (h : HostChange devRefs refs new c c')
    (h' : Evicts devRefs hash c' c'') : HostChange devRefs refs new c c'' := by
  refine ⟨h'.accounted, ?_, fun l hl => h.indexed l ?_⟩
  · obtain ⟨p, hp, hc⟩ := h.host
    refine ⟨p, h'.host.pool_eq.trans hp, ?_⟩
    rw [h'.config.groups_eq, h'.host.entries_eq]
    exact hc
  · rwa [h'.config.groups_eq, h'.host.entries_eq] at hl

theorem landTail_safe (rt ticket)
    (h : HostChange devRefs refs new c m.coordinator) :
    Safe (m.landTail rt ticket) fun m' => SameTickets m m' ∧ HostChange devRefs refs new c m'.coordinator := by
  unfold landTail
  split
  · exact .pure ⟨.refl m, h⟩
  · split
    · refine (cacheHostTail_safe h.device ticket.tailPrior _).bind fun c' hc' => ?_
      exact .pure ⟨⟨rfl, rfl, rfl, rfl⟩, h.evicts hc'⟩
    · exact .pure ⟨.refl m, h⟩

variable {i : Nat}

theorem getElem?_rowsOf (ticket : StorageTicket) (e : StorageDone) {row : StorageRow}
    (hr : (rowsOf ticket e)[i]? = some row) :
    ticket.blocks[i]? = some row.block ∧ e.success[i]? = some row.success := by
  unfold rowsOf at hr
  rw [getElem?_map] at hr
  obtain ⟨x, hx, rfl⟩ := Option.map_eq_some_iff.mp hr
  obtain ⟨hf, hv⟩ := getElem?_zip_eq_some.mp hx
  exact ⟨(getElem?_zip_eq_some.mp hf).2, (getElem?_zip_eq_some.mp hv).1⟩

variable {ticket : StorageTicket} {e : StorageDone}

theorem map_block_rowsOf (hr : ticket.blocks.length = ticket.keys.length) (hs : e.success.length = ticket.keys.length)
    (hf : e.objectFailures.length = e.success.length) : (rowsOf ticket e).map StorageRow.block = ticket.blocks := by
  unfold rowsOf
  rw [map_map]
  have hn : StorageRow.block ∘ (fun row : (CacheKey × CacheBlockLocation) × (Nat × Nat) =>
      (⟨row.1.1, row.1.2, row.2.1, row.2.2⟩ : StorageRow)) = Prod.snd ∘ Prod.fst := rfl
  rw [hn, ← map_map, map_fst_zip, map_snd_zip hr.le]
  rw [length_zip, length_zip]
  omega

def LandedBlock (ticket : StorageTicket) (e : StorageDone) (l : CacheBlockLocation) : Prop :=
  ∃ i : Nat, ticket.blocks[i]? = some l ∧ e.retired = true ∧ ticket.detached = false ∧ 0 < e.success.getD i 0

variable {l : CacheBlockLocation}

theorem LandedBlock.mem (h : LandedBlock ticket e l) : l ∈ ticket.blocks := by
  obtain ⟨i, hi, -⟩ := h
  exact mem_of_getElem? hi

theorem LandedRow.landedBlock
    (h : LandedRow e.retired ticket.detached (rowsOf ticket e) l) : LandedBlock ticket e l := by
  obtain ⟨row, hm, rfl, hr, hd, hp⟩ := h
  obtain ⟨i, hi⟩ := mem_iff_getElem?.mp hm
  obtain ⟨hb, hs⟩ := getElem?_rowsOf ticket e hi
  refine ⟨i, hb, hr, hd, ?_⟩
  rw [getD_eq_getElem?_getD, hs]
  exact hp

structure LandedGet (devRefs base : CacheBlockLocation → Nat) (ticket : StorageTicket) (e : StorageDone)
    (m : StorageTransferManager) (blocks : List CacheBlockLocation) (m' : StorageTransferManager) : Prop where
  tickets : SameTickets m m'
  change : HostChange devRefs (fun l => base l + blocks.count l) (LandedBlock ticket e) m.coordinator m'.coordinator
  length : blocks.length = ticket.blocks.length
  source : ∀ (i : Nat) l, blocks[i]? = some l → ticket.blocks[i]? = some l ∨
    0 < indexRefs m.coordinator.groups.length m.coordinator.hostEntries l ∨ LandedBlock ticket e l
  failed : ∀ (i : Nat) l, ticket.blocks[i]? = some l → e.retired = false ∨ e.success.getD i 0 = 0 →
    blocks[i]? = some l

theorem landGet_safe (base : CacheBlockLocation → Nat) (hd : m.coordinator.Accounted devRefs)
    (hh : m.coordinator.HostAccounted fun l => base l + ticket.blocks.count l)
    (hr : ticket.kind = .get → ticket.blocks.length = ticket.keys.length)
    (hsu : e.success.length = ticket.keys.length) (hfa : e.objectFailures.length = e.success.length) :
    Safe (m.landGet ticket e) fun out => LandedGet devRefs base ticket e m out.1 out.2 := by
  unfold landGet
  split
  · rename_i hk
    have hb := map_block_rowsOf (hr hk) hsu hfa
    refine (landRows_safe e.retired ticket.detached (rowsOf ticket e) hd (by rw [hb]; exact hh)).bind ?_
    rintro ⟨bls, m1⟩ hn
    refine (landTail_safe e.retired ticket hn.change).bind fun m2 ⟨hs, hc⟩ => ?_
    refine .pure ⟨hn.tickets.trans hs, ⟨hc.device, hc.host, fun l hl => ?_⟩, ?_, ?_, ?_⟩
    · exact (hc.indexed l hl).imp_right LandedRow.landedBlock
    · rw [hn.length, ← hb, length_map]
    · intro i l hl
      rcases hn.source i l hl with hw | hp | hla
      · rw [← getElem?_map, hb] at hw
        exact .inl hw
      · exact .inr (.inl hp)
      · exact .inr (.inr (LandedRow.landedBlock hla))
    · intro i l hl hf
      rw [← hb, getElem?_map] at hl
      obtain ⟨row, hw, rfl⟩ := Option.map_eq_some_iff.mp hl
      refine hn.failed i row hw (hf.imp_right fun hz => ?_)
      rw [getD_eq_getElem?_getD, (getElem?_rowsOf ticket e hw).2] at hz
      exact hz
  · exact .pure ⟨.refl m, .refl hd hh, rfl, fun i l hl => .inl hl, fun i l hl _ => hl⟩

theorem LandedGet.unretired {base : CacheBlockLocation → Nat} {m' bls} (h : LandedGet devRefs base ticket e m bls m')
    (hr : e.retired = false) : bls = ticket.blocks := by
  refine ext_getElem? fun i => ?_
  cases hi : ticket.blocks[i]? with
  | some l => exact h.failed i l hi (.inl hr)
  | none =>
    rw [getElem?_eq_none_iff] at hi ⊢
    rw [h.length]
    exact hi

variable {id : Nat}

theorem eraseTicket_safe (base : CacheBlockLocation → Nat) {before after}
    (hs : Split m.operations id ticket before after) (hd : m.coordinator.Accounted devRefs)
    (hh : m.coordinator.HostAccounted fun l => base l + ticket.blocks.count l) :
    Safe (m.eraseTicket id ticket) fun m' => m'.operations = before ++ after ∧ m'.config = m.config ∧
      m'.nextId = m.nextId ∧ m'.commands = m.commands ∧
      HostChange devRefs base (fun _ => False) m.coordinator m'.coordinator := by
  refine (dropAllHost_safe ticket.blocks hh).bind fun c hc => ?_
  exact .pure ⟨hs.filter_erased, rfl, rfl, rfl, .of_same hc.1 hd hc.2⟩

theorem TicketsOk.blocks_nodup (h : TicketsOk devRefs ext s) (hm : (id, ticket) ∈ s.manager.operations)
    (hk : ticket.kind = .get) (hp : ticket.completed = false) : ticket.blocks.Nodup := by
  refine nodup_iff_count_le_one.mpr fun l => ?_
  by_cases hl : l ∈ ticket.blocks
  · obtain ⟨i, hi⟩ := mem_iff_getElem?.mp hl
    have hn := (h.own (id, ticket) hm hk i l hi (.inl hp)).1
    have hle : ticket.blocks.count l ≤ s.manager.refs l := le_ticketSum (fun t => t.blocks.count l) hm
    omega
  · rw [count_eq_zero.mpr hl]
    exact Nat.zero_le 1

theorem issued_withManager (h : m.commands = s.manager.commands) : (s.withManager m).issued = s.issued := by
  unfold StorageRun.issued
  rw [show (s.withManager m).manager.commands = s.manager.commands from h]

variable {x : CacheBlockLocation}

theorem getElem?_unique {l : List CacheBlockLocation} (h : l.Nodup) {j}
    (hi : l[i]? = some x) (hj : l[j]? = some x) : i = j := by
  obtain ⟨hl, hix⟩ := List.getElem?_eq_some_iff.mp hi
  exact (getElem?_inj hl h).mp (hi.trans hj.symm)

theorem count_le_one_of_index {l : List CacheBlockLocation} (i : Nat)
    (h : ∀ j : Nat, l[j]? = some x → j = i) : l.count x ≤ 1 := by
  by_contra hl
  obtain ⟨j, k, hjk, hj, hk⟩ :=
    duplicate_iff_exists_distinct_get.mp (duplicate_iff_two_le_count.mpr (Nat.lt_of_not_le hl))
  have ht : ∀ n : Fin l.length, x = l.get n → n.val = i := fun n hn =>
    h n (by rw [getElem?_eq_getElem n.isLt, hn, get_eq_getElem])
  have := ht j hj
  have := ht k hk
  omega

structure Completes (ticket : StorageTicket) (e : StorageDone) (ticket' : StorageTicket) : Prop where
  kind : ticket'.kind = ticket.kind
  keys : ticket'.keys = ticket.keys
  completed : ticket'.completed = true
  quarantined : ticket'.quarantined = !e.retired
  success : ticket'.success = e.success

theorem Completes.failed {ticket' : StorageTicket} (h : Completes ticket e ticket')
    (hp : ticket'.Pending i) : e.retired = false ∨ e.success.getD i 0 = 0 := by
  rcases hp with hop | hq | hz
  · rw [h.completed] at hop
    exact absurd hop.symm Bool.false_ne_true
  · rw [h.quarantined, Bool.not_eq_true'] at hq
    exact .inl hq
  · rw [h.success] at hz
    exact .inr hz

abbrev otherRefs (ext : CacheBlockLocation → Nat) (before after : List (Nat × StorageTicket))
    (l : CacheBlockLocation) : Nat := ticketSum (fun t => t.blocks.count l) (before ++ after) + ext l

section Settle

variable {id : Nat} {ticket ticket' : StorageTicket} {before after : List (Nat × StorageTicket)} {e : StorageDone}
  {m : StorageTransferManager}

theorem setTicket_operations {m0 : StorageTransferManager} (hs : Split m0.operations id ticket before after)
    (hp : m.operations = m0.operations) (ticket') :
    (m.setTicket id ticket').operations = before ++ (id, ticket') :: after := by
  show (m.operations.map _) = _
  rw [hp]
  exact hs.map_replaced ticket'

theorem LandedGet.pending {base : CacheBlockLocation → Nat} {bls : List CacheBlockLocation}
    (h : LandedGet devRefs base ticket e s.manager bls m) (hd : ticket.blocks.Nodup)
    (hr : ∀ l ∈ ticket.blocks,
      indexRefs s.manager.coordinator.groups.length s.manager.coordinator.hostEntries l = 0)
    {i l} (hl : bls[i]? = some l)
    (hf : e.retired = false ∨ e.success.getD i 0 = 0) :
    ticket.blocks[i]? = some l ∧ bls.count l ≤ 1 ∧ ¬ LandedBlock ticket e l := by
  have hlt : i < ticket.blocks.length := by
    rw [← h.length]
    exact (List.getElem?_eq_some_iff.mp hl).1
  have hold : ticket.blocks[i]? = some l := by
    obtain ⟨l', hl'⟩ : ∃ l', ticket.blocks[i]? = some l' := ⟨_, getElem?_eq_getElem hlt⟩
    rw [hl', ← h.failed i l' hl' hf, hl]
  have hn : ¬ LandedBlock ticket e l := by
    rintro ⟨j, hj, ht, -, hp⟩
    rw [← getElem?_unique hd hold hj] at hp
    rcases hf with hfa | hz
    · rw [ht] at hfa
      exact Bool.false_ne_true hfa.symm
    · omega
  refine ⟨hold, count_le_one_of_index i fun j hj => ?_, hn⟩
  rcases h.source j l hj with hw | hp | hla
  · exact getElem?_unique hd hw hold
  · rw [hr l (mem_of_getElem? hold)] at hp
    exact absurd hp (lt_irrefl 0)
  · exact absurd hla hn

variable (h : TicketsOk devRefs ext s)
include h

theorem TicketsOk.host_split (hs : Split s.manager.operations id ticket before after) :
    s.manager.coordinator.HostAccounted fun l => otherRefs ext before after l + ticket.blocks.count l := by
  refine h.host.congr fun l => ?_
  rw [hs.refs_eq]
  show (_ + _) + _ = _
  omega

theorem TicketsOk.settled (hs : Split s.manager.operations id ticket before after)
    (hop : ticket.completed = false) (ht : Completes ticket e ticket')
    (hn : LandedGet devRefs (otherRefs ext before after) ticket e s.manager ticket'.blocks m) :
    TicketsOk devRefs ext (s.withManager (m.setTicket id ticket')) := by
  have hm : (id, ticket) ∈ s.manager.operations := hs.mem_iff.mpr (.inr rfl)
  have his : (s.withManager (m.setTicket id ticket')).issued = s.issued :=
    issued_withManager hn.tickets.commands
  have hv : TicketMoves s id ticket before after (s.withManager (m.setTicket id ticket')) :=
    ⟨hs, hn.tickets.config, hn.tickets.nextId, his ▸ .refl _⟩
  refine h.replace hv (setTicket_operations hs hn.tickets.operations ticket') hn.change
    (fun l => LandedBlock.mem) ?_ ht.kind ht.keys hn.length (fun _ => ht.completed) ?_
  · intro l hl
    obtain ⟨i, hi⟩ := mem_iff_getElem?.mp hl
    rcases hn.source i l hi with hr | hp | hla
    · exact .inl (mem_of_getElem? hr)
    · exact .inr hp
    · exact .inl hla.mem
  · intro hk i l hl hpe
    have hf : ∀ l ∈ ticket.blocks,
        indexRefs s.manager.coordinator.groups.length s.manager.coordinator.hostEntries l = 0 := by
      intro l hl
      obtain ⟨j, hj⟩ := mem_iff_getElem?.mp hl
      exact (h.own (id, ticket) hm hk j l hj (.inl hop)).2
    obtain ⟨hold, hc, hw⟩ :=
      hn.pending (h.blocks_nodup hm hk hop) hf hl (ht.failed hpe)
    exact ⟨hold, .inl hop, hc, hw⟩

theorem TicketsKept.settled (hid : e.opId = id)
    (hl : Split s.manager.operations id ticket before after) (hp : ticket.completed = false)
    {refs : CacheBlockLocation → Nat}
    (hh : HostChange devRefs refs (LandedBlock ticket e) s.manager.coordinator s'.manager.coordinator)
    (hg : s'.manager.config = s.manager.config) (ht : ∀ i, i ≠ id → s'.manager.find i = s.manager.find i)
    (hs : e.retired = false → ∃ t, s'.manager.find id = some t ∧ t.blocks = ticket.blocks) :
    TicketsKept s (.done e) s' := by
  have hm : (id, ticket) ∈ s.manager.operations := hl.mem_iff.mpr (.inr rfl)
  refine .of_others h hl hg ht hh (fun l => LandedBlock.mem) ?_ ?_ ?_
  · intro _
    cases hr : e.retired with
    | false => exact .inl (hs hr)
    | true => exact .inr (.inl ⟨e, rfl, hid, hr⟩)
  · rintro hk i l hi ⟨j, hj, hr, hd, hc⟩
    rw [← getElem?_unique (h.blocks_nodup hm hk hp) hi hj] at hc
    exact ⟨e, rfl, hid, hp, hr, hd, hc⟩
  · intro hq
    rw [h.quarantined _ hm hq] at hp
    exact absurd hp.symm Bool.false_ne_true

theorem settleTicket_safe (hd : e.opId = id)
    (hp : Split s.manager.operations id ticket before after) (hop : ticket.completed = false)
    (hti : Completes ticket e ticket')
    (hla : LandedGet devRefs (otherRefs ext before after) ticket e s.manager ticket'.blocks m) :
    Safe (m.settleTicket id ticket' e.retired) fun m' => CallOk devRefs ext s (.done e) (s.withManager m') := by
  have ht := h.settled hp hop hti hla
  have hos := setTicket_operations hp hla.tickets.operations ticket'
  obtain ⟨hs, hot⟩ := find_replaced hp hos
  unfold settleTicket
  split
  · rename_i hle
    rw [Bool.and_eq_true] at hle
    have hp' : Split (m.setTicket id ticket').operations id ticket' before after := by
      rw [hos]
      exact hp.replaced ticket'
    refine (eraseTicket_safe (otherRefs ext before after) hp' ht.device (ht.host_split hp')).mono ?_
    rintro m' ⟨hlf, hg, hn, hm, hc⟩
    have his : (s.withManager m').issued = (s.withManager (m.setTicket id ticket')).issued :=
      @issued_withManager (s.withManager (m.setTicket id ticket')) m' hm
    have hv : TicketMoves (s.withManager (m.setTicket id ticket')) id ticket' before after (s.withManager m') :=
      ⟨hp', hg, hn, his ▸ .refl _⟩
    refine ⟨ht.erase hv hlf hc, ?_⟩
    refine .settled h hd hp hop ⟨hc.device, hc.host, fun l hl => ?_⟩
      (hg.trans hla.tickets.config) (find_erased hp hlf) ?_
    · exact hla.change.indexed l ((hc.indexed l hl).resolve_right not_false)
    · rw [hle.1]
      exact fun hf => absurd hf.symm Bool.false_ne_true
  · exact .pure ⟨ht, .settled h hd hp hop hla.change hla.tickets.config hot fun hr => ⟨ticket', hs, hla.unretired hr⟩⟩

theorem complete_safe (e) :
    Safe (s.manager.complete e) fun m => CallOk devRefs ext s (.done e) (s.withManager m) := by
  unfold complete
  cases hf : s.manager.find e.opId with
  | none => exact .pure (.refl h)
  | some ticket =>
    dsimp only
    obtain ⟨before, after, hs⟩ := find_split h.ids_nodup hf
    split
    · exact .pure (.refl h)
    · rename_i hp
      rw [Bool.not_eq_true] at hp
      refine .assert fun hsi => .assert fun _ => ?_
      rw [Bool.and_eq_true, beq_iff_eq, beq_iff_eq] at hsi
      refine (landGet_safe (otherRefs ext before after) h.device (h.host_split hs)
        (h.rows _ (mem_of_find hf)) hsi.1 hsi.2).bind ?_
      rintro ⟨bls, m⟩ hl
      exact settleTicket_safe h rfl hs hp ⟨rfl, rfl, rfl, rfl, rfl⟩ hl

end Settle

/-! ## Detaching -/

section Detach

variable {id : Nat} {ticket : StorageTicket} {before after : List (Nat × StorageTicket)}
  {commands : List StorageOperation}
  (h : TicketsOk devRefs ext s)
include h

theorem CallOk.marked (hsp : Split s.manager.operations id ticket before after)
    (his : (s.handed ++ commands).filterMap StorageOperation.ticket? = s.issued) :
    CallOk devRefs ext s (.detach id)
      (s.withManager { s.manager.setTicket id { ticket with detached := true } with commands := commands }) := by
  have hm : (id, ticket) ∈ s.manager.operations := hsp.mem_iff.mpr (.inr rfl)
  have hop := setTicket_operations hsp rfl { ticket with detached := true }
  obtain ⟨hs, ht⟩ := find_replaced hsp hop
  have hv : TicketMoves s id ticket before after
      (s.withManager { s.manager.setTicket id { ticket with detached := true } with commands := commands }) :=
    ⟨hsp, rfl, rfl, by unfold StorageRun.issued at his ⊢; rw [← his]⟩
  have hc : HostChange devRefs (fun l => otherRefs ext before after l + ticket.blocks.count l) (fun _ => False)
      s.manager.coordinator s.manager.coordinator := .refl h.device (h.host_split hsp)
  refine ⟨h.replace hv hop hc (fun _ hf => hf.elim) (fun l hl => .inl hl) rfl rfl rfl ?_ ?_, ?_⟩
  · exact h.quarantined _ hm
  · intro hk i l hl hp
    have hn := (h.own _ hm hk i l hl hp).1
    have hle : ticket.blocks.count l ≤ s.manager.refs l := le_ticketSum (fun t => t.blocks.count l) hm
    exact ⟨hl, hp, by dsimp only; omega, not_false⟩
  · refine .of_others h hsp rfl ht hc (fun _ hf => hf.elim) ?_ ?_ ?_
    · exact fun _ => .inl ⟨_, hs, rfl⟩
    · exact fun _ _ _ _ hf => hf.elim
    · exact fun hq => ⟨_, hs, rfl, hq⟩

theorem CallOk.left (hs : Split s.manager.operations id ticket before after)
    {m : StorageTransferManager} (hp : m.operations = before ++ after) (hc : m.config = s.manager.config)
    (hn : m.nextId = s.manager.nextId) (hm : m.commands.Sublist s.manager.commands)
    (hh : HostChange devRefs (otherRefs ext before after) (fun _ => False) s.manager.coordinator m.coordinator)
    (hr : MayRelease s (.detach id) id ticket) (hq : ticket.quarantined = false) :
    CallOk devRefs ext s (.detach id) (s.withManager m) := by
  have hv : TicketMoves s id ticket before after (s.withManager m) :=
    ⟨hs, hc, hn, ((Sublist.refl _).append hm).filterMap _⟩
  refine ⟨h.erase hv hp hh, ?_⟩
  refine .of_others h hs hc (find_erased hs hp) hh (fun _ hf => hf.elim) ?_ ?_ ?_
  · exact fun _ => .inr hr
  · exact fun _ _ _ _ hf => hf.elim
  · rw [hq]
    exact fun hf => absurd hf Bool.false_ne_true

theorem TicketsOk.not_handed {op : StorageOperation} (hp : op ∈ s.manager.commands)
    (hd : op.ticket? = some id) : ∀ op' ∈ s.handed, op'.ticket? ≠ some id := by
  intro op' hp' hd'
  have hn := h.issued_nodup
  unfold StorageRun.issued at hn
  rw [filterMap_append, nodup_append] at hn
  exact hn.2.2 id (mem_filterMap.mpr ⟨op', hp', hd'⟩) id (mem_filterMap.mpr ⟨op, hp, hd⟩) rfl

theorem detach_safe (id) :
    Safe (s.manager.detach id) fun m => CallOk devRefs ext s (.detach id) (s.withManager m) := by
  unfold detach
  cases hf : s.manager.find id with
  | none => exact .pure (.refl h)
  | some ticket =>
    dsimp only
    obtain ⟨before, after, hs⟩ := find_split h.ids_nodup hf
    split
    · exact .pure (.refl h)
    · split
      · exact .pure (.marked h hs (show (s.handed ++ s.manager.commands).filterMap _ = _ from rfl))
      · rename_i hqu
        rw [Bool.not_eq_true] at hqu
        have hr := eraseTicket_safe (otherRefs ext before after) hs h.device (h.host_split hs)
        split
        · rename_i hd
          refine hr.mono ?_
          rintro m ⟨hos, hc, hn, hm, hh⟩
          exact .left h hs hos hc hn (hm ▸ .refl _) hh
            (.inr (.inl ⟨rfl, hd, hqu⟩)) hqu
        · split
          · rename_i hq
            obtain ⟨op, hp, hid⟩ := any_eq_true.mp hq
            rw [beq_iff_eq] at hid
            refine hr.bind ?_
            rintro m ⟨hos, hc, hn, hm, hh⟩
            refine .pure (.left h hs hos hc hn ?_ hh (.inr (.inr ⟨rfl, ⟨op, hp, hid⟩, h.not_handed hp hid⟩)) hqu)
            rw [hm]
            exact eraseP_sublist
          · refine .pure (.marked h hs ?_)
            rw [← append_assoc, filterMap_append]
            exact append_nil _

/-! ## Every call -/

theorem StorageRun.step_safe (event) :
    Safe (s.step event) fun s' => CallOk devRefs ext s event s' := by
  -- only taking the commands hands anything over
  have hq : ∀ m, StorageRun.handedBy s.manager event = [] → CallOk devRefs ext s event (s.withManager m) →
      Safe (pure { manager := m, handed := s.handed ++ StorageRun.handedBy s.manager event } : Result StorageRun)
        fun s' => CallOk devRefs ext s event s' := by
    intro m hn hc
    rw [hn, append_nil]
    exact .pure hc
  cases event with
  | startQuery ks =>
    refine .bind ?_ fun m => hq m rfl
    exact (startQuery_safe h ks).bind fun _ ha => .pure ha
  | startRead pr hits =>
    refine .bind ?_ fun m => hq m rfl
    exact (startRead_safe h pr hits).bind fun _ ha => .pure ha
  | startBackups => exact (startBackups_safe h).bind fun m => hq m rfl
  | queueBackups ks =>
    refine hq _ rfl ?_
    unfold queueBackups
    split
    · exact .refl h
    · split
      · exact .refl h
      · exact .frame h h.same rfl rfl rfl rfl
  | dropBackups => exact hq _ rfl (.frame h h.same rfl rfl rfl rfl)
  | clearMetadata | pressure ob =>
    refine .bind (.assert fun _ => .pure ?_) fun m => hq m rfl
    exact .frame h h.same rfl rfl rfl rfl
  | takeCommands =>
    refine .pure (.frame h h.same rfl rfl rfl ?_)
    show ((s.handed ++ s.manager.commands) ++ []).filterMap _ = _
    rw [append_nil]
    rfl
  | detach id => exact (detach_safe h id).bind fun m => hq m rfl
  | done e => exact (complete_safe h e).bind fun m => hq m rfl

end Detach

theorem TicketsOk.start (hs : m.operations = []) (hc : m.commands = []) (hd : m.coordinator.Accounted devRefs)
    (hh : m.coordinator.HostAccounted ext) : TicketsOk devRefs ext { manager := m } := by
  have his : StorageRun.issued { manager := m } = [] := by
    show ([] ++ m.commands).filterMap _ = []
    rw [hc]
    rfl
  have hn : ∀ x : Nat × StorageTicket, x ∉ m.operations := by
    rw [hs]
    exact fun _ => not_mem_nil
  constructor
  case device => exact hd
  case host =>
    refine hh.congr fun l => ?_
    unfold refs
    rw [hs]
    exact zero_add _
  case ids_nodup =>
    rw [hs]
    exact nodup_nil
  case ids_lt => exact fun x hx => absurd hx (hn x)
  case issued_nodup =>
    rw [his]
    exact nodup_nil
  case issued_lt =>
    rw [his]
    exact forall_mem_nil _
  case held =>
    rw [numHeldBlocks_eq, hs]
    exact Nat.zero_le _
  case count =>
    rw [hs]
    exact Nat.zero_le _
  case puts_count =>
    rw [length_puts, hs]
    exact Nat.zero_le _
  case puts_blocks =>
    rw [sum_puts, hs]
    exact Nat.zero_le _
  case rows => exact fun x hx => absurd hx (hn x)
  case quarantined => exact fun x hx => absurd hx (hn x)
  case own => exact fun x hx => absurd hx (hn x)

theorem TicketsOk.block_live (h : TicketsOk devRefs ext s) (hf : s.manager.find id = some ticket)
    (hl : l ∈ ticket.blocks) : ∃ pl, s.manager.coordinator.hostPool = some pl ∧ 0 < pl.useCount l := by
  obtain ⟨pl, hp, hc⟩ := h.host
  have hle : ticket.blocks.count l ≤ s.manager.refs l := le_ticketSum (fun t => t.blocks.count l) (mem_of_find hf)
  have hs := count_pos_iff.mpr hl
  exact ⟨pl, hp, hc.live (by omega)⟩

theorem StorageRun.Runs.ticketsOk (hr : StorageRun.Runs s s') (h : TicketsOk devRefs ext s) :
    TicketsOk devRefs ext s' ∧ s'.manager.config = s.manager.config := by
  induction hr with
  | refl => exact ⟨h, rfl⟩
  | tail _ hs ih =>
    obtain ⟨event, hv⟩ := hs
    obtain ⟨hok, hk⟩ := (StorageRun.step_safe ih.1 event).of_ok hv
    exact ⟨hok, hk.config.trans ih.2⟩

theorem StorageRun.Runs.quarantined (hr : StorageRun.Runs s s') (h : TicketsOk devRefs ext s)
    (hf : s.manager.find id = some ticket) (hq : ticket.quarantined = true) :
    ∃ ticket', s'.manager.find id = some ticket' ∧ ticket'.blocks = ticket.blocks ∧ ticket'.quarantined = true := by
  induction hr with
  | refl => exact ⟨ticket, hf, rfl, hq⟩
  | tail hr hs ih =>
    obtain ⟨t, ht, hb, htq⟩ := ih
    obtain ⟨event, hv⟩ := hs
    obtain ⟨-, hk⟩ := (StorageRun.step_safe (StorageRun.Runs.ticketsOk hr h).1 event).of_ok hv
    obtain ⟨t', ht', hb', htq'⟩ := hk.quarantined id t ht htq
    exact ⟨t', ht', hb'.trans hb, htq'⟩

theorem StorageRun.Runs.of_foldlM : ∀ (evs : List StorageEvent) {s s'},
    evs.foldlM StorageRun.step s = .ok s' → StorageRun.Runs s s'
  | [], _, _, h => by
    cases h
    exact .refl
  | event :: evs, s, s', h => by
    obtain ⟨s1, hs, hr⟩ := bind_ok.mp h
    exact .head ⟨event, hs⟩ (of_foldlM evs hr)

end Calls

end TokenSpeed

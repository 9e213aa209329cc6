import TokenSpeed.Coordinator.Lemmas.Storage
import TokenSpeed.Tier.Storage

/-!
# The tickets keep their blocks

One invariant over the tickets, the outbox and the Host pool: a block of a GET whose row has not landed is
its ticket's alone and in no index.
-/

namespace TokenSpeed

open List Option

/-! ## The tickets as a list -/

def ticketSum (f : StorageTicket → Nat) (ops : List (Nat × StorageTicket)) : Nat := (ops.map fun x => f x.2).sum

theorem ticketSum_append (f : StorageTicket → Nat) (ops ops') :
    ticketSum f (ops ++ ops') = ticketSum f ops + ticketSum f ops' := by
  unfold ticketSum
  rw [map_append, sum_append]

theorem ticketSum_cons (f : StorageTicket → Nat) (x : Nat × StorageTicket) (ops) :
    ticketSum f (x :: ops) = f x.2 + ticketSum f ops := rfl

theorem le_ticketSum (f : StorageTicket → Nat) {x ops} (hx : x ∈ ops) : f x.2 ≤ ticketSum f ops :=
  single_le_sum (by simp) _ (mem_map.mpr ⟨x, hx, rfl⟩)

namespace StorageTransferManager

variable {m m' : StorageTransferManager} {id : Nat} {ticket ticket' : StorageTicket}

def refs (m : StorageTransferManager) (l : CacheBlockLocation) : Nat :=
  ticketSum (fun t => t.blocks.count l) m.operations

def putBlocks (t : StorageTicket) : Nat := if t.kind = .put then t.blocks.length else 0

def putCount (t : StorageTicket) : Nat := if t.kind = .put then 1 else 0

section

variable (m : StorageTransferManager)

theorem numHeldBlocks_eq :
    m.numHeldBlocks = ticketSum (fun t => t.blocks.length) m.operations := rfl

theorem sum_puts_map (f : StorageTicket → Nat) :
    (m.puts.map fun x => f x.2).sum = ticketSum (fun t => if t.kind = .put then f t else 0) m.operations := by
  unfold puts ticketSum
  induction m.operations with
  | nil => rfl
  | cons x ops ih =>
    rw [map_cons, sum_cons, ← ih, filter_cons]
    by_cases hk : x.2.kind = .put
    · simp [hk]
    · simp [hk]

theorem length_puts : m.puts.length = ticketSum putCount m.operations := by
  have h := m.sum_puts_map fun _ => 1
  rwa [map_const', sum_replicate_nat, mul_one] at h

theorem sum_puts : (m.puts.map fun x => x.2.blocks.length).sum = ticketSum putBlocks m.operations :=
  m.sum_puts_map fun t => t.blocks.length

end

structure Split (ops : List (Nat × StorageTicket)) (id : Nat) (ticket : StorageTicket)
    (before after : List (Nat × StorageTicket)) : Prop where
  eq : ops = before ++ (id, ticket) :: after
  others : ∀ x ∈ before ++ after, x.1 ≠ id

theorem find_split (hn : (m.operations.map Prod.fst).Nodup) (h : m.find id = some ticket) :
    ∃ before after, Split m.operations id ticket before after := by
  obtain ⟨x, hx, rfl⟩ := map_eq_some_iff.mp h
  obtain ⟨hid, before, after, hq, -⟩ := find?_eq_some_iff_append.mp hx
  rw [beq_iff_eq] at hid
  refine ⟨before, after, by rw [hq, ← hid], fun y hy hd => ?_⟩
  rw [hq, map_append, map_cons, nodup_append, nodup_cons] at hn
  obtain ⟨-, ⟨ht, -⟩, hb⟩ := hn
  rcases mem_append.mp hy with hm | hm
  · exact hb y.1 (mem_map_of_mem hm) x.1 mem_cons_self (hd.trans hid.symm)
  · exact ht (by rw [hid, ← hd]; exact mem_map_of_mem hm)

theorem find_of_mem (hn : (m.operations.map Prod.fst).Nodup) (h : (id, ticket) ∈ m.operations) :
    m.find id = some ticket := by
  unfold find
  cases hf : m.operations.find? fun x => x.1 == id with
  | none =>
    have := find?_eq_none.mp hf _ h
    simp at this
  | some x =>
    have hx := mem_of_find?_eq_some hf
    have hd := find?_some hf
    rw [beq_iff_eq] at hd
    have hq : x = (id, ticket) := inj_on_of_nodup_map hn hx h hd
    rw [hq]
    rfl

theorem mem_of_find (h : m.find id = some ticket) : (id, ticket) ∈ m.operations := by
  obtain ⟨x, hx, rfl⟩ := map_eq_some_iff.mp h
  have hd := find?_some hx
  rw [beq_iff_eq] at hd
  rw [← hd]
  exact mem_of_find?_eq_some hx

namespace Split

variable {ops before after : List (Nat × StorageTicket)}

section

variable (h : Split ops id ticket before after)
include h

theorem map_replaced (ticket' : StorageTicket) :
    (ops.map fun x => if x.1 == id then (id, ticket') else x) = before ++ (id, ticket') :: after := by
  have hd : ∀ xs : List (Nat × StorageTicket), (∀ x ∈ xs, x.1 ≠ id) →
      (xs.map fun x => if x.1 == id then (id, ticket') else x) = xs := by
    intro xs hs
    refine (map_congr_left fun x hx => ?_).trans (map_id xs)
    rw [if_neg (by rw [beq_iff_eq]; exact hs x hx)]
    rfl
  rw [h.eq, map_append, map_cons, hd before fun x hx => h.others x (mem_append_left _ hx),
    hd after fun x hx => h.others x (mem_append_right _ hx), if_pos (beq_iff_eq.mpr rfl)]

theorem filter_erased : (ops.filter fun x => !(x.1 == id)) = before ++ after := by
  have hd : ∀ xs : List (Nat × StorageTicket), (∀ x ∈ xs, x.1 ≠ id) →
      (xs.filter fun x => !(x.1 == id)) = xs := by
    intro xs hs
    refine filter_eq_self.mpr fun x hx => ?_
    simp [hs x hx]
  rw [h.eq, filter_append, filter_cons, hd before fun x hx => h.others x (mem_append_left _ hx),
    hd after fun x hx => h.others x (mem_append_right _ hx), if_neg (by simp)]

theorem sum_eq (f : StorageTicket → Nat) : ticketSum f ops = ticketSum f (before ++ after) + f ticket := by
  rw [h.eq, ticketSum_append, ticketSum_cons, ticketSum_append]
  dsimp only
  omega

theorem replaced (ticket') :
    Split (before ++ (id, ticket') :: after) id ticket' before after := ⟨rfl, h.others⟩

theorem mem_iff {x} : x ∈ ops ↔ x ∈ before ++ after ∨ x = (id, ticket) := by
  rw [h.eq, mem_append, mem_cons, mem_append]
  tauto

theorem ids_eq (ticket') : (before ++ (id, ticket') :: after).map Prod.fst = ops.map Prod.fst := by
  rw [h.eq, map_append, map_append, map_cons, map_cons]

end

end Split

end StorageTransferManager

/-! ## The invariant -/

open StorageTransferManager

def StorageRun.issued (s : StorageRun) : List Nat := (s.handed ++ s.manager.commands).filterMap StorageOperation.ticket?

/-- The tickets, the outbox and the Host pool agree, and the limits hold. `devRefs` and `ext` are the
references of everyone else on the two tiers. -/
structure TicketsOk (devRefs ext : CacheBlockLocation → Nat) (s : StorageRun) : Prop where
  device : s.manager.coordinator.Accounted devRefs
  host : s.manager.coordinator.HostAccounted fun l => s.manager.refs l + ext l
  ids_nodup : (s.manager.operations.map Prod.fst).Nodup
  ids_lt : ∀ x ∈ s.manager.operations, x.1 < s.manager.nextId
  issued_nodup : s.issued.Nodup
  issued_lt : ∀ id ∈ s.issued, id < s.manager.nextId
  held : s.manager.numHeldBlocks ≤ s.manager.config.maxHostBlocks
  count : s.manager.operations.length ≤ s.manager.config.maxOperations
  puts_count : s.manager.puts.length ≤ s.manager.config.maxOperations / 2
  puts_blocks : (s.manager.puts.map fun x => x.2.blocks.length).sum ≤ s.manager.config.maxHostBlocks / 2
  rows : ∀ x ∈ s.manager.operations, x.2.kind = .get → x.2.blocks.length = x.2.keys.length
  quarantined : ∀ x ∈ s.manager.operations, x.2.quarantined = true → x.2.completed = true
  own : ∀ x ∈ s.manager.operations, x.2.kind = .get → ∀ i l, x.2.blocks[i]? = some l → x.2.Pending i →
    s.manager.refs l + ext l = 1 ∧
      indexRefs s.manager.coordinator.groups.length s.manager.coordinator.hostEntries l = 0

theorem hostIndexed_iff {s : StorageRun} {l} : HostIndexed s l ↔
    0 < indexRefs s.manager.coordinator.groups.length s.manager.coordinator.hostEntries l := by
  unfold HostIndexed indexRefs
  rw [Finset.sum_pos_iff]
  constructor
  · rintro ⟨i, hi, hl⟩
    exact ⟨i, Finset.mem_range.mpr hi, CacheEntries.refs_pos_iff.mpr hl⟩
  · rintro ⟨i, hi, hl⟩
    exact ⟨i, Finset.mem_range.mp hi, CacheEntries.refs_pos_iff.mp hl⟩

/-! ## What a call does to the coordinator -/

/-- The pools stay accounted and only blocks of `new` are newly indexed on the Host. -/
structure HostChange (devRefs refs : CacheBlockLocation → Nat) (new : CacheBlockLocation → Prop)
    (c c' : CacheCoordinator) : Prop where
  device : c'.Accounted devRefs
  host : c'.HostAccounted refs
  indexed : ∀ l, 0 < indexRefs c'.groups.length c'.hostEntries l →
    0 < indexRefs c.groups.length c.hostEntries l ∨ new l

namespace HostChange

variable {devRefs refs refs' : CacheBlockLocation → Nat} {new : CacheBlockLocation → Prop}
  {c c' c'' : CacheCoordinator}

theorem refl (hd : c.Accounted devRefs) (hh : c.HostAccounted refs) : HostChange devRefs refs new c c :=
  ⟨hd, hh, fun _ hl => .inl hl⟩

theorem of_same (hs : CacheCoordinator.SameIndex c c') (hd : c.Accounted devRefs)
    (hh : c'.HostAccounted refs) : HostChange devRefs refs new c c' := by
  refine ⟨hs.device.accounted hs.config hd, hh, fun l hl => .inl ?_⟩
  rwa [hs.config.groups_eq, hs.entries] at hl

theorem of_takes {tk : List CacheBlockLocation} (h : CacheCoordinator.HostTakes refs c tk c')
    (hd : c.Accounted devRefs) : HostChange devRefs (fun l => refs l + tk.count l) new c c' := by
  refine ⟨h.device.accounted h.config hd, h.accounted, fun l hl => .inl ?_⟩
  rw [h.config.groups_eq] at hl
  exact hl.trans_le (CacheCoordinator.indexRefs_sublist h.sublist l)

/-- A block outside `new` that was in no index stays in none. -/
theorem unindexed (h : HostChange devRefs refs new c c') {l} (hl : indexRefs c.groups.length c.hostEntries l = 0)
    (hw : ¬ new l) : indexRefs c'.groups.length c'.hostEntries l = 0 := by
  by_contra hne
  rcases h.indexed l (pos_of_ne_zero hne) with hp | hn
  · omega
  · exact hw hn

end HostChange

/-! ## Landing -/

structure SameTickets (m m' : StorageTransferManager) : Prop where
  config : m'.config = m.config
  operations : m'.operations = m.operations
  commands : m'.commands = m.commands
  nextId : m'.nextId = m.nextId

theorem SameTickets.refl (m) : SameTickets m m := ⟨rfl, rfl, rfl, rfl⟩

theorem SameTickets.trans {m m' m''} (h : SameTickets m m') (h' : SameTickets m' m'') : SameTickets m m'' :=
  ⟨h'.config.trans h.config, h'.operations.trans h.operations, h'.commands.trans h.commands, h'.nextId.trans h.nextId⟩

namespace StorageTransferManager

variable {devRefs base : CacheBlockLocation → Nat}

def LandedRow (retired detached : Bool) (rows : List StorageRow) (l : CacheBlockLocation) : Prop :=
  ∃ row ∈ rows, row.block = l ∧ retired = true ∧ detached = false ∧ 0 < row.success

/-- What the rows of a completion did: `blocks` are the ticket's afterwards, each one a block of a
row or one the index already had. -/
structure Landed (devRefs base : CacheBlockLocation → Nat) (retired detached : Bool) (rows : List StorageRow)
    (m : StorageTransferManager) (blocks : List CacheBlockLocation) (m' : StorageTransferManager) : Prop where
  tickets : SameTickets m m'
  change : HostChange devRefs (fun l => base l + blocks.count l) (LandedRow retired detached rows)
    m.coordinator m'.coordinator
  length : blocks.length = rows.length
  source : ∀ (i : Nat) l, blocks[i]? = some l → rows[i]?.map StorageRow.block = some l ∨
    0 < indexRefs m.coordinator.groups.length m.coordinator.hostEntries l ∨ LandedRow retired detached rows l
  failed : ∀ (i : Nat) row, rows[i]? = some row → retired = false ∨ row.success = 0 → blocks[i]? = some row.block

theorem noteFailure_same (m : StorageTransferManager) (dt) (row) :
    SameTickets m (m.noteFailure dt row) ∧ (m.noteFailure dt row).coordinator = m.coordinator := by
  unfold noteFailure rememberNegative
  split
  · split
    · exact ⟨.refl m, rfl⟩
    · exact ⟨⟨rfl, rfl, rfl, rfl⟩, rfl⟩
  · exact ⟨.refl m, rfl⟩

theorem landRow_safe {m : StorageTransferManager} (rt dt) (row : StorageRow)
    (hd : m.coordinator.Accounted devRefs)
    (hh : m.coordinator.HostAccounted fun l => base l + if l = row.block then 1 else 0) :
    Safe (m.landRow rt dt row) fun out => SameTickets m out.2 ∧
      HostChange devRefs (fun l => base l + if l = out.1 then 1 else 0) (LandedRow rt dt [row])
        m.coordinator out.2.coordinator ∧
      (out.1 = row.block ∨ 0 < indexRefs m.coordinator.groups.length m.coordinator.hostEntries out.1) ∧
      (rt = false ∨ row.success = 0 → out.1 = row.block) := by
  obtain ⟨hs, hcoord⟩ := noteFailure_same m dt row
  unfold landRow
  dsimp only
  split
  · rename_i hla
    simp only [Bool.and_eq_true, Bool.not_eq_true', bne_iff_ne] at hla
    rw [hcoord]
    refine (CacheCoordinator.cacheHostBlock_safe hh (by simp) row.key).bind ?_
    rintro ⟨block, c⟩ hc
    refine .pure ⟨{ hs with }, ⟨?_, ?_, ?_⟩, ?_, ?_⟩
    · exact hc.device.accounted hc.config hd
    · refine hc.accounted.congr fun l => ?_
      unfold Accounts.swapRefs
      dsimp only
      omega
    · intro l hl
      rw [show c.groups = m.coordinator.groups from hc.config.groups_eq] at hl
      rcases hc.indexed l hl with hp | rfl
      · exact .inl hp
      · exact .inr ⟨row, mem_singleton_self row, rfl, hla.1.1, hla.1.2, pos_of_ne_zero hla.2⟩
    · exact hc.canonical
    · rintro (hf | hz)
      · rw [hla.1.1] at hf
        exact absurd hf.symm Bool.false_ne_true
      · exact absurd hz hla.2
  · refine .pure ⟨hs, ?_, .inl rfl, fun _ => rfl⟩
    rw [hcoord]
    exact .refl hd hh

theorem count_cons_eq_ite (a x) (l : List CacheBlockLocation) :
    (a :: l).count x = l.count x + if x = a then 1 else 0 := by
  by_cases h : x = a
  · rw [if_pos h, h, count_cons_self]
  · rw [if_neg h, count_cons_of_ne (Ne.symm h), add_zero]

theorem landRows_safe (rt dt) : ∀ (rest : List StorageRow) {m : StorageTransferManager}
    {base : CacheBlockLocation → Nat}, m.coordinator.Accounted devRefs →
    (m.coordinator.HostAccounted fun l => base l + (rest.map StorageRow.block).count l) →
    Safe (landRows rt dt rest m) fun out => Landed devRefs base rt dt rest m out.1 out.2
  | [], m, base, hd, hh => .pure ⟨.refl m, .refl hd hh, rfl, nofun, nofun⟩
  | row :: rest, m, base, hd, hh => by
    -- the rows still to come hold their blocks while this one lands
    have hw : m.coordinator.HostAccounted fun l =>
        (base l + (rest.map StorageRow.block).count l) + if l = row.block then 1 else 0 := by
      refine hh.congr fun l => ?_
      rw [map_cons, count_cons_eq_ite]
      omega
    refine (landRow_safe rt dt row hd hw).bind ?_
    rintro ⟨block, m1⟩ ⟨hs, hc, hsr, hfa⟩
    dsimp only at hs hc hsr hfa
    have ht : m1.coordinator.HostAccounted fun l =>
        (base l + if l = block then 1 else 0) + (rest.map StorageRow.block).count l :=
      hc.host.congr fun l => by omega
    refine (landRows_safe rt dt rest hc.device ht).bind ?_
    rintro ⟨bls, m2⟩ hn
    dsimp only at hn
    refine .pure ⟨hs.trans hn.tickets, ⟨hn.change.device, ?_, ?_⟩, ?_, ?_, ?_⟩
    · refine hn.change.host.congr fun l => ?_
      rw [count_cons_eq_ite]
      omega
    · intro l hl
      rcases hn.change.indexed l hl with hp | ⟨r, hr, hn⟩
      · rcases hc.indexed l hp with hp | ⟨r, hr, hn⟩
        · exact .inl hp
        · rw [mem_singleton.mp hr] at hn
          exact .inr ⟨row, mem_cons_self, hn⟩
      · exact .inr ⟨r, mem_cons_of_mem _ hr, hn⟩
    · rw [length_cons, length_cons, hn.length]
    · rintro (_ | i) l hl
      · rw [getElem?_cons_zero, some_inj] at hl
        subst hl
        rcases hsr with rfl | hp
        · exact .inl rfl
        · exact .inr (.inl hp)
      · rw [getElem?_cons_succ] at hl
        rcases hn.source i l hl with hw | hp | ⟨r, hr, hla⟩
        · exact .inl hw
        · -- what the index had after this row it had before, or this row landed
          rcases hc.indexed l hp with hp | ⟨r, hr, hla⟩
          · exact .inr (.inl hp)
          · rw [mem_singleton.mp hr] at hla
            exact .inr (.inr ⟨row, mem_cons_self, hla⟩)
        · exact .inr (.inr ⟨r, mem_cons_of_mem _ hr, hla⟩)
    · rintro (_ | i) r hr hf
      · rw [getElem?_cons_zero, some_inj] at hr
        subst hr
        rw [getElem?_cons_zero, hfa hf]
      · rw [getElem?_cons_succ] at hr ⊢
        exact hn.failed i r hr hf

end StorageTransferManager

/-! ## Tickets that join, change and leave -/

section Moves

variable {devRefs ext : CacheBlockLocation → Nat} {s s' : StorageRun} {ev : StorageEvent}

variable {ticket : StorageTicket} {id : Nat} {before after : List (Nat × StorageTicket)} {m : StorageTransferManager}

theorem StorageTransferManager.Split.refs_eq (h : Split m.operations id ticket before after)
    (l) :
    m.refs l = ticketSum (fun t => t.blocks.count l) (before ++ after) + ticket.blocks.count l := h.sum_eq _

variable {m' : StorageTransferManager}

theorem refs_congr (h : m'.operations = m.operations) (l) : m'.refs l = m.refs l := by
  unfold refs
  rw [h]

theorem find_congr (h : m'.operations = m.operations) (id) : m'.find id = m.find id := by
  unfold find
  rw [h]

variable {x : Nat × StorageTicket} {i : Nat} {l : CacheBlockLocation}

theorem TicketsOk.not_mem_of_own (h : TicketsOk devRefs ext s) (hs : Split s.manager.operations id ticket before after)
    (hx : x ∈ before ++ after) (hk : x.2.kind = .get) (hl : x.2.blocks[i]? = some l) (hp : x.2.Pending i) :
    l ∉ ticket.blocks := by
  intro hm
  have hn := (h.own x (hs.mem_iff.mpr (.inl hx)) hk i l hl hp).1
  have hh : x.2.blocks.count l ≤ ticketSum (fun t => t.blocks.count l) (before ++ after) :=
    le_ticketSum (fun t => t.blocks.count l) hx
  have hpo := count_pos_iff.mpr (mem_of_getElem? hl)
  have hpo' := count_pos_iff.mpr hm
  rw [hs.refs_eq] at hn
  omega

theorem TicketsOk.frame (h : TicketsOk devRefs ext s)
    (hh : HostChange devRefs (fun l => s.manager.refs l + ext l) (fun _ => False)
      s.manager.coordinator s'.manager.coordinator)
    (hc : s'.manager.config = s.manager.config) (hs : s'.manager.operations = s.manager.operations)
    (hn : s'.manager.nextId = s.manager.nextId) (his : s'.issued = s.issued) : TicketsOk devRefs ext s' where
  device := hh.device
  host := hh.host.congr fun l => by rw [refs_congr hs]
  ids_nodup := by rw [hs]; exact h.ids_nodup
  ids_lt := by rw [hs, hn]; exact h.ids_lt
  issued_nodup := by rw [his]; exact h.issued_nodup
  issued_lt := by rw [his, hn]; exact h.issued_lt
  held := by rw [numHeldBlocks_eq, hs, hc]; exact h.held
  count := by rw [hs, hc]; exact h.count
  puts_count := by unfold puts; rw [hs, hc]; exact h.puts_count
  puts_blocks := by unfold puts; rw [hs, hc]; exact h.puts_blocks
  rows := by rw [hs]; exact h.rows
  quarantined := by rw [hs]; exact h.quarantined
  own := by
    rw [hs]
    intro x hx hk i l hl hp
    rw [refs_congr hs]
    obtain ⟨hon, hd⟩ := h.own x hx hk i l hl hp
    exact ⟨hon, hh.unindexed hd not_false⟩

/-- Numbers below a counter stay apart, and below it, when the counter is handed out. -/
theorem nodup_handed {l : List Nat} {n} (hn : l.Nodup) (hl : ∀ a ∈ l, a < n) :
    (l ++ [n]).Nodup ∧ ∀ a ∈ l ++ [n], a < n + 1 := by
  refine ⟨nodup_append.mpr ⟨hn, nodup_singleton _, fun a ha b hb hab => ?_⟩,
    forall_mem_append.mpr ⟨fun a ha => (hl a ha).trans (Nat.lt_succ_self _),
      forall_mem_singleton.mpr (Nat.lt_succ_self _)⟩⟩
  rw [hab, mem_singleton.mp hb] at ha
  exact lt_irrefl _ (hl n ha)

theorem TicketsOk.add (h : TicketsOk devRefs ext s) {command : StorageOperation}
    (hc : s'.manager.config = s.manager.config)
    (hs : s'.manager.operations = s.manager.operations ++ [(s.manager.nextId, ticket)])
    (hn : s'.manager.nextId = s.manager.nextId + 1) (hha : s'.handed = s.handed)
    (hcm : s'.manager.commands = s.manager.commands ++ [command])
    (hco : command.ticket? = some s.manager.nextId)
    (hch : HostChange devRefs (fun l => (s.manager.refs l + ext l) + ticket.blocks.count l) (fun _ => False)
      s.manager.coordinator s'.manager.coordinator)
    (hr : s.manager.operations.length < s.manager.config.maxOperations)
    (hh : s.manager.numHeldBlocks + ticket.blocks.length ≤ s.manager.config.maxHostBlocks)
    (hp : ticket.kind = .put → s.manager.puts.length < s.manager.config.maxOperations / 2)
    (ht : ticket.kind = .put →
      (s.manager.puts.map fun x => x.2.blocks.length).sum + ticket.blocks.length ≤ s.manager.config.maxHostBlocks / 2)
    (hro : ticket.kind = .get → ticket.blocks.length = ticket.keys.length) (hqu : ticket.quarantined = false)
    (hap : ∀ l ∈ ticket.blocks, s.manager.refs l + ext l = 0 ∨
      0 < indexRefs s.manager.coordinator.groups.length s.manager.coordinator.hostEntries l)
    (hw : ticket.kind = .get → ticket.blocks.Nodup ∧ ∀ l ∈ ticket.blocks, s.manager.refs l + ext l = 0 ∧
      indexRefs s'.manager.coordinator.groups.length s'.manager.coordinator.hostEntries l = 0) :
    TicketsOk devRefs ext s' := by
  have hm : ∀ f, ticketSum f s'.manager.operations = ticketSum f s.manager.operations + f ticket := by
    intro f
    rw [hs, ticketSum_append]
    rfl
  have hre : ∀ l, s'.manager.refs l = s.manager.refs l + ticket.blocks.count l := fun l => hm fun t => t.blocks.count l
  have hid : s'.manager.operations.map Prod.fst = s.manager.operations.map Prod.fst ++ [s.manager.nextId] := by
    rw [hs, map_append]
    rfl
  have his : s'.issued = s.issued ++ [s.manager.nextId] := by
    unfold StorageRun.issued
    rw [hha, hcm, ← append_assoc, filterMap_append, filterMap_cons, hco]
    rfl
  obtain ⟨hnd, hlt⟩ := nodup_handed h.ids_nodup (forall_mem_map.mpr h.ids_lt)
  obtain ⟨hnd', hlt'⟩ := nodup_handed h.issued_nodup h.issued_lt
  constructor
  case device => exact hch.device
  case host =>
    refine hch.host.congr fun l => ?_
    rw [hre]
    omega
  case ids_nodup => exact hid ▸ hnd
  case ids_lt =>
    intro x hx
    rw [hn]
    exact hlt _ (hid ▸ mem_map_of_mem hx)
  case issued_nodup => exact his ▸ hnd'
  case issued_lt =>
    rw [his, hn]
    exact hlt'
  case held =>
    rw [numHeldBlocks_eq, hm, hc]
    exact hh
  case count =>
    rw [hs, hc, length_append]
    exact hr
  case puts_count =>
    have hold := h.puts_count
    rw [length_puts] at hold
    rw [length_puts, hm, hc]
    unfold putCount
    split
    · rename_i hk
      have := hp hk
      rw [length_puts] at this
      exact this
    · exact hold
  case puts_blocks =>
    have hold := h.puts_blocks
    rw [sum_puts] at hold
    rw [sum_puts, hm, hc]
    show _ + (if ticket.kind = .put then ticket.blocks.length else 0) ≤ _
    split
    · rename_i hk
      have := ht hk
      rw [sum_puts] at this
      exact this
    · exact hold
  case rows =>
    rw [hs]
    exact forall_mem_append.mpr ⟨h.rows, forall_mem_singleton.mpr hro⟩
  case quarantined =>
    rw [hs]
    exact forall_mem_append.mpr ⟨h.quarantined, forall_mem_singleton.mpr fun hq => by cases hqu.symm.trans hq⟩
  case own =>
    intro x hx hk i l hl hpe
    rw [hs, mem_append] at hx
    rw [hre]
    rcases hx with hx | hx
    · obtain ⟨hon, hd⟩ := h.own x hx hk i l hl hpe
      have hcn : ticket.blocks.count l = 0 := by
        rw [count_eq_zero]
        intro hme
        rcases hap l hme with hz | hpo <;> omega
      exact ⟨by omega, hch.unindexed hd id⟩
    · rw [mem_singleton.mp hx] at hk hl
      obtain ⟨hnd, hf⟩ := hw hk
      obtain ⟨hz, hd⟩ := hf l (mem_of_getElem? hl)
      rw [count_eq_one_of_mem hnd (mem_of_getElem? hl)]
      exact ⟨by omega, hd⟩

structure TicketMoves (s : StorageRun) (id : Nat) (ticket : StorageTicket) (before after : List (Nat × StorageTicket))
    (s' : StorageRun) : Prop where
  split : Split s.manager.operations id ticket before after
  config : s'.manager.config = s.manager.config
  nextId : s'.manager.nextId = s.manager.nextId
  issued : s'.issued.Sublist s.issued

variable {ticket' : StorageTicket} {new : CacheBlockLocation → Prop}

section

variable (h : TicketsOk devRefs ext s)
include h

theorem TicketsOk.replace (hm : TicketMoves s id ticket before after s')
    (hop : s'.manager.operations = before ++ (id, ticket') :: after) (hc : HostChange devRefs
      (fun l => (ticketSum (fun t => t.blocks.count l) (before ++ after) + ext l) + ticket'.blocks.count l) new
      s.manager.coordinator s'.manager.coordinator) (hw : ∀ l, new l → l ∈ ticket.blocks)
    (hsr : ∀ l ∈ ticket'.blocks, l ∈ ticket.blocks ∨
      0 < indexRefs s.manager.coordinator.groups.length s.manager.coordinator.hostEntries l)
    (hk : ticket'.kind = ticket.kind) (hke : ticket'.keys = ticket.keys)
    (hln : ticket'.blocks.length = ticket.blocks.length)
    (hqu : ticket'.quarantined = true → ticket'.completed = true)
    (hpe : ticket.kind = .get → ∀ i l, ticket'.blocks[i]? = some l → ticket'.Pending i →
      ticket.blocks[i]? = some l ∧ ticket.Pending i ∧ ticket'.blocks.count l ≤ 1 ∧ ¬ new l) :
    TicketsOk devRefs ext s' := by
  have hs := hm.split
  have hs' : Split s'.manager.operations id ticket' before after := by
    rw [hop]
    exact hs.replaced ticket'
  have hsu : ∀ f, f ticket' = f ticket → ticketSum f s'.manager.operations = ticketSum f s.manager.operations := by
    intro f hf
    rw [hs'.sum_eq, hs.sum_eq, hf]
  have hid : s'.manager.operations.map Prod.fst = s.manager.operations.map Prod.fst := by
    rw [hop]
    exact hs.ids_eq ticket'
  constructor
  case device => exact hc.device
  case host =>
    refine hc.host.congr fun l => ?_
    rw [hs'.refs_eq]
    omega
  case ids_nodup =>
    rw [hid]
    exact h.ids_nodup
  case ids_lt =>
    intro x hx
    rw [hm.nextId]
    have hme : x.1 ∈ s.manager.operations.map Prod.fst := by
      rw [← hid]
      exact mem_map_of_mem hx
    obtain ⟨y, hy, hyx⟩ := mem_map.mp hme
    rw [← hyx]
    exact h.ids_lt y hy
  case issued_nodup => exact h.issued_nodup.sublist hm.issued
  case issued_lt =>
    intro i hi
    rw [hm.nextId]
    exact h.issued_lt i (hm.issued.subset hi)
  case held =>
    rw [numHeldBlocks_eq, hsu (fun t => t.blocks.length) hln, hm.config]
    exact h.held
  case count =>
    have hle := congrArg length hid
    rw [length_map, length_map] at hle
    rw [hle, hm.config]
    exact h.count
  case puts_count =>
    rw [length_puts, hsu putCount (by unfold putCount; rw [hk]), ← length_puts, hm.config]
    exact h.puts_count
  case puts_blocks =>
    rw [sum_puts, hsu putBlocks (by unfold putBlocks; rw [hk, hln]), ← sum_puts, hm.config]
    exact h.puts_blocks
  case rows =>
    intro x hx hg
    rcases hs'.mem_iff.mp hx with hx | rfl
    · exact h.rows x (hs.mem_iff.mpr (.inl hx)) hg
    · rw [hln, hke]
      exact h.rows (id, ticket) (hs.mem_iff.mpr (.inr rfl)) (hk ▸ hg)
  case quarantined =>
    intro x hx hq
    rcases hs'.mem_iff.mp hx with hx | rfl
    · exact h.quarantined x (hs.mem_iff.mpr (.inl hx)) hq
    · exact hqu hq
  case own =>
    intro x hx hg i l hl hr
    rw [hs'.refs_eq]
    rcases hs'.mem_iff.mp hx with hx | rfl
    · have hp := h.not_mem_of_own hs hx hg hl hr
      obtain ⟨hon, hd⟩ := h.own x (hs.mem_iff.mpr (.inl hx)) hg i l hl hr
      have ht : ticket'.blocks.count l = 0 := by
        rw [count_eq_zero]
        intro hme
        rcases hsr l hme with hme | hpo
        · exact hp hme
        · omega
      rw [hs.refs_eq, count_eq_zero.mpr hp] at hon
      exact ⟨by omega, hc.unindexed hd fun hn => hp (hw l hn)⟩
    · dsimp only at hg hl hr
      rw [hk] at hg
      obtain ⟨hold, hwa, ht, hno⟩ := hpe hg i l hl hr
      obtain ⟨hon, hd⟩ := h.own (id, ticket) (hs.mem_iff.mpr (.inr rfl)) hg i l hold hwa
      have hpo := count_pos_iff.mpr (mem_of_getElem? hold)
      have hpo' := count_pos_iff.mpr (mem_of_getElem? hl)
      rw [hs.refs_eq] at hon
      exact ⟨by omega, hc.unindexed hd hno⟩

theorem TicketsOk.erase (hm : TicketMoves s id ticket before after s')
    (hs : s'.manager.operations = before ++ after)
    (hc : HostChange devRefs (fun l => ticketSum (fun t => t.blocks.count l) (before ++ after) + ext l)
      (fun _ => False) s.manager.coordinator s'.manager.coordinator) : TicketsOk devRefs ext s' := by
  have hsp := hm.split
  have hme : ∀ x ∈ s'.manager.operations, x ∈ s.manager.operations := by
    intro x hx
    rw [hs] at hx
    exact hsp.mem_iff.mpr (.inl hx)
  have hb : s'.manager.operations.Sublist s.manager.operations := by
    rw [hs, hsp.eq]
    exact (Sublist.refl before).append (sublist_cons_self _ _)
  have hsu : ∀ f, ticketSum f s'.manager.operations ≤ ticketSum f s.manager.operations := by
    intro f
    rw [hs, hsp.sum_eq]
    exact Nat.le_add_right _ _
  constructor
  case device => exact hc.device
  case host =>
    refine hc.host.congr fun l => ?_
    unfold refs
    rw [hs]
  case ids_nodup => exact h.ids_nodup.sublist (hb.map _)
  case ids_lt =>
    intro x hx
    rw [hm.nextId]
    exact h.ids_lt x (hme x hx)
  case issued_nodup => exact h.issued_nodup.sublist hm.issued
  case issued_lt =>
    intro i hi
    rw [hm.nextId]
    exact h.issued_lt i (hm.issued.subset hi)
  case held =>
    rw [hm.config]
    exact (hsu fun t => t.blocks.length).trans h.held
  case count =>
    rw [hm.config]
    exact hb.length_le.trans h.count
  case puts_count =>
    have hold := h.puts_count
    rw [length_puts] at hold
    rw [length_puts, hm.config]
    exact (hsu _).trans hold
  case puts_blocks =>
    have hold := h.puts_blocks
    rw [sum_puts] at hold
    rw [sum_puts, hm.config]
    exact (hsu _).trans hold
  case rows => exact fun x hx => h.rows x (hme x hx)
  case quarantined => exact fun x hx => h.quarantined x (hme x hx)
  case own =>
    intro x hx hg i l hl hr
    obtain ⟨hn, hd⟩ := h.own x (hme x hx) hg i l hl hr
    rw [hs] at hx
    have hp := h.not_mem_of_own hsp hx hg hl hr
    rw [hsp.refs_eq, count_eq_zero.mpr hp] at hn
    refine ⟨?_, hc.unindexed hd not_false⟩
    unfold refs
    rw [hs]
    exact hn

/-! ## What is kept -/

theorem TicketsOk.pending_unindexed (hf : s.manager.find id = some ticket) (hk : ticket.kind = .get)
    (hl : ticket.blocks[i]? = some l) (hp : ticket.Pending i) : ¬ HostIndexed s l := by
  rw [hostIndexed_iff, (h.own (id, ticket) (mem_of_find hf) hk i l hl hp).2]
  exact lt_irrefl 0

theorem TicketsKept.of_find (hc : s'.manager.config = s.manager.config)
    (hf : ∀ id ticket, s.manager.find id = some ticket → s'.manager.find id = some ticket)
    (hd : ∀ l, HostIndexed s' l → HostIndexed s l) : TicketsKept s ev s' where
  config := hc
  get := fun id ticket hid _ => .inl ⟨ticket, hf id ticket hid, rfl⟩
  indexed := by
    intro id ticket hid hk i l hl hp hn
    exact absurd (hd l hn) (h.pending_unindexed hid hk hl hp)
  quarantined := fun id ticket hid hq => ⟨ticket, hf id ticket hid, rfl, hq⟩

theorem TicketsKept.of_others {refs : CacheBlockLocation → Nat}
    (hsp : Split s.manager.operations id ticket before after) (hc : s'.manager.config = s.manager.config)
    (hot : ∀ i, i ≠ id → s'.manager.find i = s.manager.find i)
    (hh : HostChange devRefs refs new s.manager.coordinator s'.manager.coordinator)
    (hw : ∀ l, new l → l ∈ ticket.blocks) (hg : ticket.kind = .get →
      (∃ ticket', s'.manager.find id = some ticket' ∧ ticket'.blocks = ticket.blocks) ∨ MayRelease s ev id ticket)
    (hd : ticket.kind = .get → ∀ i l, ticket.blocks[i]? = some l → new l → Lands ev id ticket i)
    (hqu : ticket.quarantined = true →
      ∃ ticket', s'.manager.find id = some ticket' ∧ ticket'.blocks = ticket.blocks ∧ ticket'.quarantined = true) :
    TicketsKept s ev s' := by
  have hs : s.manager.find id = some ticket :=
    find_of_mem h.ids_nodup (hsp.mem_iff.mpr (.inr rfl))
  constructor
  case config => exact hc
  case get =>
    intro i t hi hk
    by_cases hid : i = id
    · subst hid
      obtain rfl : ticket = t := mem_unique hs hi
      exact hg hk
    · exact .inl ⟨t, (hot i hid).trans hi, rfl⟩
  case indexed =>
    intro i t hi hk j l hl hp hin
    have ht := h.pending_unindexed hi hk hl hp
    rw [hostIndexed_iff] at hin ht
    rcases hh.indexed l hin with hpo | hn
    · exact absurd hpo ht
    · by_cases hid : i = id
      · subst hid
        obtain rfl : ticket = t := mem_unique hs hi
        exact hd hk j l hl hn
      · refine absurd (hw l hn) (h.not_mem_of_own hsp (x := (i, t)) ?_ hk hl hp)
        rcases hsp.mem_iff.mp (mem_of_find hi) with hx | hx
        · exact hx
        · exact absurd (congrArg Prod.fst hx) hid
  case quarantined =>
    intro i t hi hq
    by_cases hid : i = id
    · subst hid
      obtain rfl : ticket = t := mem_unique hs hi
      exact hqu hq
    · exact ⟨t, (hot i hid).trans hi, rfl, hq⟩

end

theorem find_replaced (hs : Split m.operations id ticket before after)
    (hp : m'.operations = before ++ (id, ticket') :: after) :
    m'.find id = some ticket' ∧ ∀ i, i ≠ id → m'.find i = m.find i := by
  unfold find
  rw [hp, hs.eq]
  refine ⟨?_, fun i hi => ?_⟩
  · have hn : before.find? (fun x => x.1 == id) = none :=
      find?_eq_none.mpr fun x hx => by simp [hs.others x (mem_append_left _ hx)]
    rw [find?_append, hn, find?_cons_of_pos (by simp)]
    rfl
  · rw [find?_append, find?_append, find?_cons_of_neg (by simp [hi.symm]),
      find?_cons_of_neg (by simp [hi.symm])]

theorem find_erased (hs : Split m.operations id ticket before after)
    (hp : m'.operations = before ++ after) : ∀ i, i ≠ id → m'.find i = m.find i := by
  intro i hi
  unfold find
  rw [hp, hs.eq, find?_append, find?_append, find?_cons_of_neg (by simp [hi.symm])]

theorem find_added (hs : m'.operations = m.operations ++ [x])
    (id) (ticket) (h : m.find id = some ticket) : m'.find id = some ticket := by
  unfold find at h ⊢
  obtain ⟨y, hy, rfl⟩ := map_eq_some_iff.mp h
  rw [hs, find?_append, hy]
  rfl

end Moves

end TokenSpeed

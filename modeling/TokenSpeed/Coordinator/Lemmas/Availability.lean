import TokenSpeed.Coordinator.Availability
import TokenSpeed.Coordinator.Lemmas.Eviction

/-!
# What a release leaves

A parent is available when nobody outside the index holds a block of it, so a release frees the parents that
only the request and the index held.
-/

namespace TokenSpeed

open List CacheEntries

/-! ## Dropping references -/

namespace Accounts

variable {n : Nat} {es : Nat → CacheEntries} {refs : CacheBlockLocation → Nat}

theorem dropSlots : ∀ (sls : List (Option CacheBlockLocation)) {p : BlockPool},
    Accounts p n es (fun l => refs l + (sls.filterMap id).count l) →
    ∃ p', sls.foldlM GroupAllocator.dropSlot p = .ok p' ∧ p.Shrinks p' ∧ Accounts p' n es refs
  | [], p, h => ⟨p, rfl, .refl p, h⟩
  | none :: sls, p, h => dropSlots sls h
  | some l :: sls, p, h => by
    have hh : 0 < refs l + ((some l :: sls).filterMap id).count l := by simp
    obtain ⟨p1, hd, -⟩ := h.ok.drop_spec (h.live hh)
    obtain ⟨hs, hc⟩ := (h.drop hh).of_ok hd
    have hr : Accounts p1 n es fun x => refs x + (sls.filterMap id).count x := by
      refine hc.congr fun x => ?_
      by_cases hx : x = l
      · subst hx
        simp
      · simp [hx, Ne.symm hx]
    obtain ⟨p2, hf, hs', hc'⟩ := dropSlots sls hr
    refine ⟨p2, ?_, hs.trans hs', hc'⟩
    rw [foldlM_cons]
    exact bind_ok.mpr ⟨p1, hd, hf⟩

end Accounts

namespace CacheCoordinator

variable {c : CacheCoordinator} {refs others : CacheBlockLocation → Nat} {tables : Nat → BlockTable}

theorem freeGroups (tables : Nat → BlockTable) : ∀ (is : List Nat) {s}, is.Nodup →
    (∀ i ∈ is, s.1.tables i = tables i) → (s.2.Accounted fun l => refs l + (is.flatMap (releasedRefs tables)).count l) →
    ∃ holding p, is.foldlM freeGroup s = .ok (holding, { s.2 with pool := p }) ∧ s.2.pool.Shrinks p ∧
      Accounts p s.2.groups.length s.2.deviceEntries refs
  | [], s, _, _, h => ⟨s.1, s.2.pool, rfl, .refl _, h⟩
  | i :: is, s, hn, ht, h => by
    obtain ⟨hi, hr⟩ := nodup_cons.mp hn
    have hl : Accounts s.2.pool s.2.groups.length s.2.deviceEntries fun l =>
        (refs l + (is.flatMap (releasedRefs tables)).count l) +
          ((s.1.tables i).blocks.reverse.filterMap id).count l := by
      refine h.congr fun l => ?_
      rw [flatMap_cons, count_append, ht i mem_cons_self, filterMap_reverse, count_reverse]
      unfold releasedRefs
      omega
    obtain ⟨p, hd, hs, hc⟩ := Accounts.dropSlots _ hl
    have ht' : ∀ j ∈ is, (s.1.setTable i {}).tables j = tables j := fun j hj => by
      rw [← ht j (mem_cons_of_mem _ hj)]
      exact Function.update_of_ne (by rintro rfl; exact hi hj) ..
    obtain ⟨holding, p', hf, hs', hc'⟩ :=
      freeGroups tables is (s := (s.1.setTable i {}, { s.2 with pool := p })) hr ht' hc
    refine ⟨holding, p', ?_, hs.trans hs', hc'⟩
    rw [foldlM_cons]
    exact bind_ok.mpr ⟨_, bind_ok.mpr ⟨_, bind_ok.mpr ⟨p, hd, rfl⟩, rfl⟩, hf⟩

/-! ## The parents of a state -/

/-- A request's tables in a state: the blocks are the pool's, of their groups, and counted apart from what
`others` hold. -/
structure Owns (c : CacheCoordinator) (tables : Nat → BlockTable) (others : CacheBlockLocation → Nat) : Prop where
  accounts : c.Accounted fun l => others l + c.tableRefs tables l
  groups : ∀ id g, c.pool.boundGroup id = some g → g < c.groups.length
  tables : ∀ i < c.groups.length, ∀ l ∈ releasedRefs tables i, c.pool.boundGroup l.lcmBlockId = some i

theorem Accounted.index_refs (h : c.Accounted refs) {g} (hg : g < c.groups.length) {l : CacheBlockLocation}
    (hb : c.pool.boundGroup l.lcmBlockId = some g) :
    indexRefs c.groups.length c.deviceEntries l = if c.deviceCached g l then 1 else 0 := by
  have ht : ∀ i ∈ Finset.range c.groups.length, i ≠ g → (c.deviceEntries i).refs l = 0 := by
    intro i hi hne
    by_contra hp
    obtain ⟨e, he, rfl⟩ := containsBlock_iff.mp (refs_pos_iff.mp (Nat.pos_of_ne_zero hp))
    have := h.bound i (Finset.mem_range.mp hi) _ (mem_pairs he)
    exact hne (Option.mem_unique this hb)
  rw [indexRefs, Finset.sum_eq_single_of_mem g (Finset.mem_range.mpr hg) ht]
  have hn : (c.deviceEntries g).refs l ≤ 1 := by
    have := nodup_iff_count_le_one.mp (h.blocks_nodup g hg) l
    rwa [pairs, map_map, count, countP_map] at this
  have hf : 0 < (c.deviceEntries g).refs l ↔ c.deviceCached g l = true := refs_pos_iff
  split
  · have := hf.mpr ‹_›
    omega
  · have := mt hf.mp ‹_›
    omega

theorem Accounted.available_iff (h : c.Accounted refs)
    (hr : ∀ id g, c.pool.boundGroup id = some g → g < c.groups.length)
    (id) : c.lcmBlockAvailable id = true ↔ ∀ sl, refs ⟨id, sl⟩ = 0 := by
  have hu := fun sl => h.use_eq ⟨id, sl⟩
  have hc := fun sl => h.ok.use_pos ⟨id, sl⟩
  unfold lcmBlockAvailable
  cases hb : c.pool.boundGroup id with
  | none =>
    refine ⟨fun _ sl => ?_, fun _ => rfl⟩
    have : c.pool.isOccupied ⟨id, sl⟩ ≠ true := fun hon => by
      obtain ⟨g, hg, -⟩ := h.ok.occupied_bound _ hon
      exact nomatch hb.symm.trans hg
    have := mt (hc sl).mp this
    have := hu sl
    omega
  | some g =>
    have hd := fun sl => h.index_refs (hr id g hb) (l := ⟨id, sl⟩) hb
    have hoc : c.pool.occupants id ≠ 0 := by
      obtain ⟨sl, -, hon⟩ := h.ok.bound_occupied id g hb
      rw [BlockPool.occupants, hb]
      exact (h.ok.occupiedCount_pos (l := ⟨id, sl⟩) hon hb).ne'
    have hl : c.parentIsFullyEvictable g id = true ↔ ∀ sl < c.pool.packing g,
        c.pool.isOccupied ⟨id, sl⟩ = true → c.deviceCached g ⟨id, sl⟩ = true ∧ c.pool.useCount ⟨id, sl⟩ = 1 := by
      simp [parentIsFullyEvictable, hoc, BlockPool.unique, ← Bool.not_eq_true, or_iff_not_imp_left]
    refine hl.trans ⟨fun hal sl => ?_, fun hn sl _ hon => ?_⟩
    · by_cases hon : c.pool.isOccupied ⟨id, sl⟩ = true
      · obtain ⟨g', hg', ht⟩ := h.ok.occupied_bound _ hon
        obtain rfl := Option.mem_unique hg' hb
        obtain ⟨hca, hoe⟩ := hal sl ht hon
        have := hd sl
        rw [if_pos hca] at this
        have := hu sl
        omega
      · have := mt (hc sl).mp hon
        have := hu sl
        omega
    · have hp := (hc sl).mpr hon
      have hs := hu sl
      rw [hd sl, hn sl] at hs
      split at hs
      · exact ⟨‹_›, hs⟩
      · omega

section

variable (h : c.Owns tables others)
include h

theorem Owns.tableRefs_eq {g} (hg : g < c.groups.length) {l : CacheBlockLocation}
    (hb : c.pool.boundGroup l.lcmBlockId = some g) : c.tableRefs tables l = (releasedRefs tables g).count l := by
  have hs : ∀ is : List Nat, is.Nodup → (∀ i ∈ is, i < c.groups.length) →
      (is.flatMap (releasedRefs tables)).count l = if g ∈ is then (releasedRefs tables g).count l else 0 := by
    intro is hn hl
    induction is with
    | nil => rfl
    | cons i is ih =>
      obtain ⟨hi, hn⟩ := nodup_cons.mp hn
      rw [flatMap_cons, count_append, ih hn fun j hj => hl j (mem_cons_of_mem _ hj)]
      by_cases hgi : g = i
      · subst hgi
        simp [hi]
      · have hz : (releasedRefs tables i).count l = 0 := count_eq_zero.mpr fun hm =>
          hgi (Option.mem_unique hb (h.tables i (hl i mem_cons_self) l hm))
        simp [hz, hgi]
  rw [tableRefs, hs _ nodup_range fun i hi => mem_range.mp hi, if_pos (mem_range.mpr hg)]

theorem Owns.becomes_iff {g id} (hb : c.pool.boundGroup id = some g) :
    c.parentBecomesReclaimable tables g id = true ↔ ∀ sl, c.pool.isOccupied ⟨id, sl⟩ = true →
      0 < c.tableRefs tables ⟨id, sl⟩ ∧ others ⟨id, sl⟩ = 0 := by
  have hg := h.groups id g hb
  have hsl : c.parentBecomesReclaimable tables g id = true ↔ ∀ sl < c.pool.packing g,
      c.pool.isOccupied ⟨id, sl⟩ = true → ⟨id, sl⟩ ∈ releasedRefs tables g ∧
        c.pool.useCount ⟨id, sl⟩ - (releasedRefs tables g).count ⟨id, sl⟩ =
          if c.deviceCached g ⟨id, sl⟩ then 1 else 0 := by
    simp [parentBecomesReclaimable, ← Bool.not_eq_true, or_iff_not_imp_left]
  have hs : ∀ sl, (⟨id, sl⟩ ∈ releasedRefs tables g ∧ c.pool.useCount ⟨id, sl⟩ -
      (releasedRefs tables g).count ⟨id, sl⟩ = if c.deviceCached g ⟨id, sl⟩ then 1 else 0) ↔
        0 < c.tableRefs tables ⟨id, sl⟩ ∧ others ⟨id, sl⟩ = 0 := by
    intro sl
    rw [h.accounts.use_eq, h.accounts.index_refs hg hb, h.tableRefs_eq hg hb, ← count_pos_iff]
    refine and_congr_right fun _ => ?_
    omega
  rw [hsl]
  refine ⟨fun hl sl hn => ?_, fun hl sl _ hn => (hs sl).mpr (hl sl hn)⟩
  obtain ⟨g', hg', ht⟩ := h.accounts.ok.occupied_bound _ hn
  obtain rfl := Option.mem_unique hg' hb
  exact (hs sl).mp (hl sl ht hn)

theorem Owns.freeTables : ∃ holding p, c.freeTables { tables := tables } =
    .ok (holding, { c with pool := p }) ∧ c.pool.Shrinks p ∧
      ({ c with pool := p } : CacheCoordinator).Accounted others :=
  freeGroups tables _ (s := ({ tables := tables }, c)) nodup_range (fun _ _ => rfl) h.accounts

/-! ## Counting parents -/

theorem Owns.live {l} (hl : 0 < others l + c.tableRefs tables l) :
    c.pool.isOccupied l = true := (h.accounts.ok.use_pos l).mp (h.accounts.live hl)

end

def Estimated (c : CacheCoordinator) (tables : Nat → BlockTable) (others : CacheBlockLocation → Nat) (id : Nat) :
    Prop :=
  (∃ slot, 0 < c.tableRefs tables ⟨id, slot⟩) ∧ ∀ slot, c.pool.isOccupied ⟨id, slot⟩ = true →
    0 < c.tableRefs tables ⟨id, slot⟩ ∧ others ⟨id, slot⟩ = 0

open Classical in
theorem Owns.newlyReleasable_eq (h : c.Owns tables others) : c.numNewlyReleasableLcmBlocks tables =
    (range' 1 c.pool.numLcmBlocks).countP fun id => c.Estimated tables others id := by
  unfold numNewlyReleasableLcmBlocks
  generalize hn : ((range c.groups.length).flatMap fun i =>
    (releasedRefs tables i).map (·.lcmBlockId)).dedup = parents
  have hnd : parents.Nodup := hn ▸ nodup_dedup _
  have hm : ∀ id, id ∈ parents ↔ ∃ sl, 0 < c.tableRefs tables ⟨id, sl⟩ := by
    intro id
    simp only [← hn, mem_dedup, mem_flatMap, mem_map, tableRefs, count_pos_iff]
    constructor
    · rintro ⟨i, hi, l, hl, rfl⟩
      exact ⟨l.slotIndex, i, hi, hl⟩
    · rintro ⟨sl, i, hi, hl⟩
      exact ⟨i, hi, _, hl, rfl⟩
  have hb : ∀ id ∈ parents, ∃ g, c.pool.boundGroup id = some g := fun id hd => by
    obtain ⟨sl, hs⟩ := (hm id).mp hd
    obtain ⟨g, hg, -⟩ := h.accounts.ok.occupied_bound _ (h.live (Nat.add_pos_right _ hs))
    exact ⟨g, hg⟩
  have hp : parents.Perm ((range' 1 c.pool.numLcmBlocks).filter fun id => id ∈ parents) := by
    refine (perm_ext_iff_of_nodup hnd (Nodup.filter _ nodup_range')).mpr fun id => ?_
    rw [mem_filter, decide_eq_true_iff, iff_and_self]
    intro hd
    obtain ⟨g, hg⟩ := hb id hd
    have := Finset.mem_Icc.mp (h.accounts.ok.bound_mem id g hg)
    exact mem_range'_1.mpr (by omega)
  rw [hp.countP_eq, countP_filter]
  refine countP_congr fun id _ => ?_
  rw [Bool.and_eq_true, decide_eq_true_iff, decide_eq_true_iff, and_comm, Estimated, ← hm]
  refine and_congr_right fun hd => ?_
  obtain ⟨g, hg⟩ := hb id hd
  rw [hg]
  exact h.becomes_iff hg

theorem countP_add {α : Type} {l : List α} {a b d e : α → Bool}
    (h : ∀ x, (a x).toNat = (b x).toNat + (d x).toNat + (e x).toNat) :
    l.countP a = l.countP b + l.countP d + l.countP e := by
  induction l with
  | nil => rfl
  | cons x l ih =>
    have hx := h x
    cases ha : a x <;> cases hb : b x <;> cases hd : d x <;> cases he : e x <;> simp_all <;> omega

open Classical in
theorem Owns.available_add (h : c.Owns tables others) {p} (hsh : c.pool.Shrinks p)
    (hc : ({ c with pool := p } : CacheCoordinator).Accounted others) :
    ({ c with pool := p } : CacheCoordinator).numAvailableLcmBlocks = c.numAvailableLcmBlocks +
      c.numNewlyReleasableLcmBlocks tables +
        (range' 1 c.pool.numLcmBlocks).countP fun id => c.SharedWithIndex tables others id := by
  rw [h.newlyReleasable_eq, numAvailableLcmBlocks, show ({ c with pool := p } : CacheCoordinator).pool.numLcmBlocks =
    c.pool.numLcmBlocks from hsh.parents_eq]
  refine countP_add fun id => ?_
  have hb := h.accounts.available_iff h.groups id
  have hf := hc.available_iff (fun id g hg => h.groups id g (hsh.bound_of id g hg)) id
  have hl := fun sl => h.live (l := ⟨id, sl⟩)
  -- a parent is freed when no other holds a block of it; it is counted unless the index alone holds one
  by_cases hot : ∀ sl, others ⟨id, sl⟩ = 0
  · rw [hf.mpr hot]
    by_cases hr : ∃ sl, 0 < c.tableRefs tables ⟨id, sl⟩
    · have hn : c.lcmBlockAvailable id = false := Bool.eq_false_iff.mpr fun hv => by
        obtain ⟨sl, hsl⟩ := hr
        have := hb.mp hv sl
        omega
      by_cases hd : ∃ sl, c.pool.isOccupied ⟨id, sl⟩ = true ∧ c.tableRefs tables ⟨id, sl⟩ = 0
      · have ht : ¬c.Estimated tables others id := fun ht => by
          obtain ⟨sl, hon, hz⟩ := hd
          exact (ht.2 sl hon).1.ne' hz
        simp [hn, ht, (⟨hr, hot, hd⟩ : c.SharedWithIndex tables others id)]
      · have ht : c.Estimated tables others id := ⟨hr, fun sl hon => ⟨Nat.pos_of_ne_zero fun hz =>
          hd ⟨sl, hon, hz⟩, hot sl⟩⟩
        have hh : ¬c.SharedWithIndex tables others id := fun hs => hd hs.cached
        simp [hn, ht, hh]
    · have hv : c.lcmBlockAvailable id = true := hb.mpr fun sl => by
        have := hot sl
        have := mt (fun hp => ⟨sl, hp⟩) hr
        omega
      have ht : ¬c.Estimated tables others id := fun hs => hr hs.1
      have hh : ¬c.SharedWithIndex tables others id := fun hs => hr hs.referenced
      simp [hv, ht, hh]
  · have hn : c.lcmBlockAvailable id = false := Bool.eq_false_iff.mpr fun hv => hot fun sl => by
      have := hb.mp hv sl
      omega
    have hn' := Bool.eq_false_iff.mpr (mt hf.mp hot)
    have ht : ¬c.Estimated tables others id := fun ht => hot fun sl => by
      by_contra hne
      exact hne (ht.2 sl (hl sl (by omega))).2
    have hh : ¬c.SharedWithIndex tables others id := fun hs => hot hs.unshared
    simp [hn, hn', ht, hh]

end CacheCoordinator

end TokenSpeed

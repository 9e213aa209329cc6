import Mathlib.Data.List.GetD
import TokenSpeed.Cache.IndexedPool
import TokenSpeed.Cache.Lemmas.Pool

/-!
# The indexes follow the occupancy

One parent at a time: what marking or clearing a slot does to its free slots, then what leaving and
joining the ordered sets does to a group.
-/

namespace TokenSpeed.Indexed

open Function List Indexed.BlockPool

/-! ## The slots of one parent -/

variable {occupancy : List Bool} {B b s v : Nat}

theorem mem_freeIn : s ∈ freeIn occupancy B b ↔ FreeAt occupancy B b s := by
  unfold freeIn
  rw [Finset.mem_filter, Finset.mem_range]
  exact ⟨fun h => h.2, fun h => ⟨h.1, h⟩⟩

variable {j : Nat} {α : Type}

theorem getD_set {l : List α} {k x d} (hj : j < l.length) : (l.set j x).getD k d = if k = j then x else l.getD k d := by
  rw [getD_eq_getElem?_getD, getElem?_set, getD_eq_getElem?_getD]
  by_cases hk : j = k
  · subst hk
    simp [hj]
  · rw [if_neg hk, if_neg (Ne.symm hk)]

theorem getD_replicate_self (n k) (d : α) : (replicate n d).getD k d = d := by
  rw [getD_eq_getElem?_getD, getElem?_replicate]
  split
  · rfl
  · rfl

section

variable (hs : s < occupancy.length)
include hs

theorem freeAt_set_true : FreeAt (occupancy.set s true) B b j ↔ FreeAt occupancy B b j ∧ j ≠ s := by
  unfold FreeAt
  rw [length_set, getD_set hs]
  by_cases hj : j = s
  · simp [hj]
  · simp [hj]

theorem freeAt_set_false : FreeAt (occupancy.set s false) B b j ↔ FreeAt occupancy B b j ∨ j = s ∧ s % B = b := by
  unfold FreeAt
  rw [length_set, getD_set hs]
  by_cases hj : j = s
  · subst hj
    rw [if_pos rfl]
    constructor
    · rintro ⟨_, _, h⟩
      exact .inr ⟨rfl, h⟩
    · rintro (⟨h, _, h'⟩ | ⟨_, h⟩)
      · exact ⟨h, rfl, h'⟩
      · exact ⟨hs, rfl, h⟩
  · simp [hj]

theorem freeIn_set_true : freeIn (occupancy.set s true) B b = (freeIn occupancy B b).erase s := by
  ext j
  rw [mem_freeIn, freeAt_set_true hs, Finset.mem_erase, mem_freeIn]
  exact and_comm

theorem card_freeIn_set_true (hf : occupancy.getD s false = false) :
    (freeIn (occupancy.set s true) B b).card + (if s % B = b then 1 else 0) = (freeIn occupancy B b).card := by
  rw [freeIn_set_true hs]
  by_cases hb : s % B = b
  · have hm : s ∈ freeIn occupancy B b := mem_freeIn.mpr ⟨hs, hf, hb⟩
    rw [if_pos hb, Finset.card_erase_add_one hm]
  · have hm : s ∉ freeIn occupancy B b := fun h => hb (mem_freeIn.mp h).2.2
    rw [if_neg hb, Finset.erase_eq_of_notMem hm, add_zero]

theorem card_freeIn_set_false (hf : occupancy.getD s false = true) :
    (freeIn (occupancy.set s false) B b).card = (freeIn occupancy B b).card + if s % B = b then 1 else 0 := by
  have ht : (occupancy.set s false).set s true = occupancy := by
    rw [set_set]
    refine ext_getElem (by simp) fun j hj hj' => ?_
    rw [getElem_set]
    split
    · rename_i h
      subst h
      rw [getD_eq_getElem _ _ hs] at hf
      exact hf.symm
    · rfl
  have hc := @card_freeIn_set_true (occupancy.set s false) B b _
    (by rw [length_set]; exact hs) (by rw [getD_set hs, if_pos rfl])
  rw [ht] at hc
  exact hc.symm

theorem count_set_true (hf : occupancy.getD s false = false) :
    (occupancy.set s true).count true = occupancy.count true + 1 := by
  rw [getD_eq_getElem _ _ hs] at hf
  rw [count_set hs, hf]
  simp

theorem count_set_false (hf : occupancy.getD s false = true) :
    (occupancy.set s false).count true = occupancy.count true - 1 := by
  rw [getD_eq_getElem _ _ hs] at hf
  rw [count_set hs, hf]
  simp

end

theorem card_freeIn_replicate {w} (hb : b < B) : (freeIn (replicate (B * w) false) B b).card = w := by
  have hq : freeIn (replicate (B * w) false) B b =
      (Finset.range (B * w)).filter fun s => s % B == b := by
    ext j
    rw [mem_freeIn, FreeAt, length_replicate, Finset.mem_filter, Finset.mem_range, beq_iff_eq]
    rw [getD_replicate_self]
    exact and_congr_right fun _ => ⟨fun h => h.2, fun h => ⟨rfl, h⟩⟩
  rw [hq, BlockPool.card_bucket hb]

theorem LowestFree.lt_iff (h : LowestFree occupancy B b v) :
    v < occupancy.length ↔ (freeIn occupancy B b).Nonempty := by
  constructor
  · intro hl
    rcases h with ⟨hf, -⟩ | ⟨rfl, -⟩
    · exact ⟨v, mem_freeIn.mpr hf⟩
    · exact absurd hl (lt_irrefl _)
  · rintro ⟨s, hs⟩
    rcases h with ⟨hf, -⟩ | ⟨-, hn⟩
    · exact hf.1
    · exact absurd (mem_freeIn.mp hs) (hn s)

theorem LowestFree.free (h : LowestFree occupancy B b v) (hl : v < occupancy.length) : FreeAt occupancy B b v := by
  rcases h with ⟨hf, -⟩ | ⟨rfl, -⟩
  · exact hf
  · exact absurd hl (lt_irrefl _)

theorem nextFreeSlot_lowest (hB : 0 < B) : ∀ fl next, next % B = b → (∀ s < next, ¬ FreeAt occupancy B b s) →
    occupancy.length ≤ next + fl * B → LowestFree occupancy B b (nextFreeSlot occupancy B occupancy.length fl next)
  | 0, next, _, hb, hfu => .inr ⟨rfl, fun s hs => hb s (by have := hs.1; omega) hs⟩
  | fl + 1, next, hr, hb, hfu => by
    unfold nextFreeSlot
    split
    · rename_i hl
      cases hc : occupancy.getD next false with
      | false =>
        rw [if_neg (by decide)]
        exact .inl ⟨⟨hl, hc, hr⟩, hb⟩
      | true =>
        rw [if_pos rfl]
        refine nextFreeSlot_lowest hB fl (next + B) (by rw [Nat.add_mod_right]; exact hr)
          (fun s hs hf => ?_) (by rw [add_mul] at hfu; omega)
        rcases lt_trichotomy s next with h | h | h
        · exact hb s h hf
        · subst h
          rw [hf.2.1] at hc
          cases hc
        · -- slots of one residue lie whole strides apart
          have hm : s % B = next % B := hf.2.2.trans hr.symm
          have hd : B ∣ s - next := Nat.dvd_of_mod_eq_zero (Nat.sub_mod_eq_zero_of_mod_eq hm)
          have := Nat.le_of_dvd (by omega) hd
          omega
    · rename_i hg
      exact .inr ⟨rfl, fun s hs => hb s (by have := hs.1; omega) hs⟩

/-! ## One parent -/

variable {packing : Nat} {parent : LcmBlock}

theorem ParentOk.fresh (hd : B ∣ packing) (g) :
    ParentOk packing B
      { boundGroup := some g
        occupancy := replicate packing false
        firstFreeSlots := if 1 < packing then range B else [] } where
  size := length_replicate
  count := by simp [count_replicate]
  first := by
    intro hn
    rw [if_pos hn]
    refine ⟨length_range, fun b hb => ?_⟩
    rw [getD_eq_getElem?_getD, getElem?_range hb, Option.getD_some]
    refine .inl ⟨⟨?_, ?_, ?_⟩, fun s hs hf => ?_⟩
    · rw [length_replicate]
      exact lt_of_lt_of_le hb (Nat.le_of_dvd (by omega) hd)
    · exact getD_replicate_self _ _ _
    · exact Nat.mod_eq_of_lt hb
    · have := hf.2.2
      rw [Nat.mod_eq_of_lt (hs.trans hb)] at this
      omega
  first_one := fun hn => if_neg (by omega)

theorem LowestFree.set_true_ne (h : LowestFree occupancy B b v) (hs : s < occupancy.length) (hne : v ≠ s) :
    LowestFree (occupancy.set s true) B b v := by
  rcases h with ⟨hf, hb⟩ | ⟨hv, hn⟩
  · exact .inl ⟨(freeAt_set_true hs).mpr ⟨hf, hne⟩, fun j hj hf' =>
      hb j hj ((freeAt_set_true hs).mp hf').1⟩
  · exact .inr ⟨by rw [length_set]; exact hv, fun j hf' => hn j ((freeAt_set_true hs).mp hf').1⟩

section

variable (h : ParentOk packing B parent)
include h

theorem ParentOk.occupySlot (hB : 0 < B) (hs : s < packing) (hf : parent.occupancy.getD s false = false) :
    ParentOk packing B (BlockPool.occupySlot parent B packing s) where
  size := by
    unfold BlockPool.occupySlot
    rw [length_set]
    exact h.size
  count := by
    show parent.occupiedCount + 1 = _
    rw [h.count, ← count_set_true (by rw [h.size]; exact hs) hf]
    rfl
  first := by
    intro hon
    obtain ⟨hle, hl⟩ := h.first hon
    have hs' : s < parent.occupancy.length := by rw [h.size]; exact hs
    have hm : s % B < B := Nat.mod_lt s hB
    unfold BlockPool.occupySlot
    dsimp only
    split
    · rename_i ht
      refine ⟨by rw [length_set]; exact hle, fun b hb => ?_⟩
      rw [getD_set (by rw [hle]; exact hm)]
      split
      · rename_i hbs
        subst hbs
        have hsi : (parent.occupancy.set s true).length = packing := by rw [length_set]; exact h.size
        have hc := @nextFreeSlot_lowest (parent.occupancy.set s true) B (s % B) hB
          (parent.occupancy.set s true).length (s + B) (Nat.add_mod_right s B) (fun j hj hf' => ?_) ?_
        · rwa [hsi] at hc ⊢
        · -- Below `s` nothing of the residue was free; `s` is marked; up to `s + B` there is no other.
          obtain ⟨hold, hne⟩ := (freeAt_set_true hs').mp hf'
          rcases lt_trichotomy j s with hlt | hq | hgt
          · rcases hl (s % B) hm with ⟨-, hbe⟩ | ⟨-, hn⟩
            · exact hbe j (by rw [ht.2]; exact hlt) hold
            · exact hn j hold
          · exact hne hq
          · have hd : B ∣ j - s := Nat.dvd_of_mod_eq_zero (Nat.sub_mod_eq_zero_of_mod_eq hold.2.2)
            have := Nat.le_of_dvd (by omega) hd
            omega
        · have := Nat.le_mul_of_pos_right (parent.occupancy.set s true).length hB
          omega
      · rename_i hbs
        refine (hl b hb).set_true_ne hs' fun hq => ?_
        have hf' := (hl b hb).free (by rw [hq]; exact hs')
        exact hbs (by rw [← hf'.2.2, hq])
    · rename_i ht
      refine ⟨hle, fun b hb => (hl b hb).set_true_ne hs' fun hq => ?_⟩
      have hf' := (hl b hb).free (by rw [hq]; exact hs')
      have hbs : b = s % B := by rw [← hf'.2.2, hq]
      exact ht ⟨hon, by rw [← hbs]; exact hq⟩
  first_one := by
    intro hon
    unfold BlockPool.occupySlot
    dsimp only
    rw [if_neg (by omega)]
    exact h.first_one hon

theorem ParentOk.clearSlot (hB : 0 < B) (hs : s < packing)
    (hon : 1 < packing) (hfu : parent.occupancy.getD s false = true) :
    ParentOk packing B { BlockPool.clearSlot parent s with
      firstFreeSlots := parent.firstFreeSlots.set (s % B) (min (parent.firstFreeSlots.getD (s % B) 0) s) } where
  size := by
    show (parent.occupancy.set s false).length = packing
    rw [length_set]
    exact h.size
  count := by
    show parent.occupiedCount - 1 = (parent.occupancy.set s false).count true
    rw [h.count, count_set_false (by rw [h.size]; exact hs) hfu]
  first := by
    intro _
    obtain ⟨hle, hl⟩ := h.first hon
    have hs' : s < parent.occupancy.length := by rw [h.size]; exact hs
    have hm : s % B < B := Nat.mod_lt s hB
    refine ⟨by rw [length_set]; exact hle, fun b hb => ?_⟩
    show LowestFree (parent.occupancy.set s false) B b _
    rw [getD_set (by rw [hle]; exact hm)]
    split
    · rename_i hbs
      subst hbs
      refine .inl ⟨(freeAt_set_false hs').mpr ?_, fun j hj hf => ?_⟩
      · rcases lt_or_ge (parent.firstFreeSlots.getD (s % B) 0) s with ht | hg
        · rw [min_eq_left ht.le]
          exact .inl ((hl _ hm).free (ht.trans hs'))
        · rw [min_eq_right hg]
          exact .inr ⟨rfl, rfl⟩
      · rw [Nat.lt_min] at hj
        rcases (freeAt_set_false hs').mp hf with hold | ⟨rfl, -⟩
        · rcases hl _ hm with ⟨-, hbe⟩ | ⟨-, hn⟩
          · exact hbe j hj.1 hold
          · exact hn j hold
        · omega
    · rename_i hbs
      have hif : ∀ j, FreeAt (parent.occupancy.set s false) B b j ↔ FreeAt parent.occupancy B b j := by
        intro j
        rw [freeAt_set_false hs']
        exact ⟨fun h => h.resolve_right fun h' => hbs h'.2.symm, .inl⟩
      unfold LowestFree
      simp only [hif, length_set]
      exact hl b hb
  first_one := fun h' => absurd hon (by omega)

theorem ParentOk.count_le : parent.occupiedCount ≤ packing := by
  rw [h.count, ← h.size]
  exact count_le_length

theorem ParentOk.freeIn_full
    (hfu : parent.occupiedCount = parent.occupancy.length) : ¬ (freeIn parent.occupancy B b).Nonempty := by
  rintro ⟨s, hs⟩
  obtain ⟨ht, hf, -⟩ := mem_freeIn.mp hs
  rw [h.count] at hfu
  have hl := count_eq_length.mp hfu
  rw [getD_eq_getElem _ _ ht] at hf
  have := hl _ (getElem_mem ht)
  rw [hf] at this
  cases this

end

/-! ## The representation -/

/-- Group `g` while parent `id` is outside its ordered sets, about to come back as `parent`. -/
structure Detached (p : BlockPool) (g id : Nat) (parent : LcmBlock) (group : GroupAvailability) : Prop where
  packing_eq : group.packing = (p.groups g).packing
  buckets_eq : group.buckets = p.bucketCount g
  lengths : group.freeSlotsByBucket.length = p.bucketCount g
  parent_ok : ParentOk (p.groups g).packing (p.bucketCount g) parent
  bound : parent.boundGroup = some g
  holes : ∀ b < p.bucketCount g, group.freeSlotsByBucket.getD b 0 =
    ∑ id' ∈ (Finset.Icc 1 p.numLcmBlocks).erase id, p.freeSlotsOf g b id' +
      (freeIn parent.occupancy (p.bucketCount g) b).card
  index : ∀ b < p.bucketCount g, ∀ x, x ∈ group.parentsByBucket.getD b ∅ ↔
    ∃ id' ≠ id, p.Partial g b id' ∧ x = (p.lcmBlocks id').order id'

variable {id' : Nat}

theorem order_ne {parent' : LcmBlock} {id} (h : id ≠ id') : parent.order id ≠ parent'.order id' := by
  intro hq
  exact h (congrArg (fun x : ParentOrder => (ofLex x).2) hq)

theorem mapM_zipIdx_returns {f : Finset ParentOrder × Nat → Result (Finset ParentOrder)}
    {R : Nat → Finset ParentOrder → Prop} (ss : List (Finset ParentOrder))
    (h : ∀ b < ss.length, Returns (f (ss.getD b ∅, b)) (R b)) :
    Returns (ss.zipIdx.mapM f) fun out => out.length = ss.length ∧ ∀ b < ss.length, R b (out.getD b ∅) := by
  refine (Returns.mapM (R := fun entry out => R entry.2 out) ss.zipIdx fun entry ht => ?_).mono fun out hou => ?_
  · obtain ⟨set, b⟩ := entry
    rw [mem_zipIdx_iff_getElem?] at ht
    have hlt : b < ss.length := (List.getElem?_eq_some_iff.mp ht).1
    have hg : ss.getD b ∅ = set := by rw [getD_eq_getElem?_getD, ht, Option.getD_some]
    rw [← hg]
    exact h b hlt
  · have hl : out.length = ss.length := by rw [← hou.length_eq, length_zipIdx]
    refine ⟨hl, fun b hb => ?_⟩
    have hz : b < ss.zipIdx.length := by rw [length_zipIdx]; exact hb
    have hg := (forall₂_iff_get.mp hou).2 b hz (by rw [hl]; exact hb)
    rw [getD_eq_getElem _ _ (by rw [hl]; exact hb)]
    simpa using hg

variable {p : BlockPool} {g id : Nat} {group : GroupAvailability}

/-- Leaving out a parent that is not one of the bucket's changes nothing. -/
theorem exists_partial_ne (hn : ¬ p.Partial g b id) {x} : (∃ id', p.Partial g b id' ∧ x = (p.lcmBlocks id').order id') ↔
    ∃ id' ≠ id, p.Partial g b id' ∧ x = (p.lcmBlocks id').order id' := by
  refine exists_congr fun id' => ⟨fun ht => ⟨?_, ht⟩, And.right⟩
  rintro rfl
  exact hn ht.1

theorem RepOk.notMem_free (h : RepOk p) (hb : p.boundGroup id = some g) : id ∉ p.freeParentIds := by
  intro hin
  rw [h.mem_free, hb] at hin
  cases hin.2

theorem RepOk.mem_free_ne (h : RepOk p) (hb : p.boundGroup id = some g) (id') :
    id' ∈ p.freeParentIds ↔ id' ≠ id ∧ id' ∈ p.freeParentIds :=
  ⟨fun hin => ⟨fun hq => h.notMem_free hb (hq ▸ hin), hin⟩, And.right⟩

theorem RepOk.detach (h : RepOk p) (hbo : p.boundGroup id = some g) :
    Returns (removeAvailability (p.groups g) (p.lcmBlocks id) id) (Detached p g id (p.lcmBlocks id)) := by
  obtain ⟨hg, hB⟩ := h.bound_group id g hbo
  obtain ⟨hk, hpo⟩ := h.bound_ok id g hbo
  have hid := Finset.mem_Icc.mpr (h.bound_mem id g hbo)
  have hh : ∀ b < p.bucketCount g, (p.groups g).freeSlotsByBucket.getD b 0 =
      ∑ id' ∈ (Finset.Icc 1 p.numLcmBlocks).erase id, p.freeSlotsOf g b id' +
        (freeIn (p.lcmBlocks id).occupancy (p.bucketCount g) b).card := by
    intro b hb
    rw [h.holes g hg b hb, ← Finset.sum_erase_add _ _ hid]
    congr 1
    exact if_pos hbo
  unfold removeAvailability
  split
  · rename_i hfu
    refine ⟨rfl, rfl, h.lengths g hg, hk, hbo, hh, fun b hb x => ?_⟩
    rw [h.index g hg b hb]
    exact exists_partial_ne fun hp => hk.freeIn_full hfu hp.2
  · have hn : 1 < (p.groups g).packing := by
      have := hk.count_le
      have := hk.size
      omega
    obtain ⟨-, hl⟩ := hk.first hn
    refine (mapM_zipIdx_returns (R := fun b out => ∀ x, x ∈ out ↔
      ∃ id' ≠ id, p.Partial g b id' ∧ x = (p.lcmBlocks id').order id') _ fun b hb => ?_).bind ?_
    · have hd := h.index g hg b hb
      have hf := (hl b hb).lt_iff
      rw [hk.size] at hf
      split
      · rename_i ht
        refine .fatalCheck (decide_eq_true ?_) (.pure fun x => ?_)
        · exact (hd _).mpr ⟨id, ⟨hbo, hf.mp ht⟩, rfl⟩
        · rw [Finset.mem_erase, hd]
          constructor
          · rintro ⟨hne, id', hp, rfl⟩
            refine ⟨id', fun hq => hne (by rw [hq]), hp, rfl⟩
          · rintro ⟨id', hne, hp, rfl⟩
            exact ⟨order_ne hne, id', hp, rfl⟩
      · rename_i hge
        refine .pure fun x => ?_
        rw [hd]
        exact exists_partial_ne fun hp => hge (hf.mpr hp.2)
    · rintro ss ⟨hle, hsets⟩
      exact .pure ⟨rfl, hle, h.lengths g hg, hk, hbo, hh, hsets⟩

def BlockPool.withParent (p : BlockPool) (g id : Nat) (parent : LcmBlock) (group : GroupAvailability)
    (free : List Nat) : BlockPool :=
  { p.setGroup g group with lcmBlocks := update p.lcmBlocks id parent, freeParentIds := free }

theorem Detached.attachSets (h : Detached p g id parent group) (hp : 0 < parent.occupiedCount) :
    Returns (addAvailability group parent id) fun group' => group'.packing = group.packing ∧
      group'.freeSlotsByBucket = group.freeSlotsByBucket ∧ group'.buckets = group.buckets ∧
      ∀ b < p.bucketCount g, ∀ x, x ∈ group'.parentsByBucket.getD b ∅ ↔
        (∃ id' ≠ id, p.Partial g b id' ∧ x = (p.lcmBlocks id').order id') ∨
          (freeIn parent.occupancy (p.bucketCount g) b).Nonempty ∧ x = parent.order id := by
  have hk := h.parent_ok
  unfold addAvailability
  split
  · rename_i hfu
    refine ⟨rfl, rfl, rfl, fun b hb x => ?_⟩
    rw [h.index b hb]
    exact ⟨.inl, fun hx => hx.resolve_right fun hx => hk.freeIn_full hfu hx.1⟩
  · have hn : 1 < (p.groups g).packing := by
      have := hk.count_le
      have := hk.size
      omega
    obtain ⟨-, hl⟩ := hk.first hn
    refine (mapM_zipIdx_returns (R := fun b out => ∀ x, x ∈ out ↔
      (∃ id' ≠ id, p.Partial g b id' ∧ x = (p.lcmBlocks id').order id') ∨
        (freeIn parent.occupancy (p.bucketCount g) b).Nonempty ∧ x = parent.order id) _ fun b hb => ?_).bind ?_
    · have hb' : b < p.bucketCount g := by rw [← h.buckets_eq]; exact hb
      have hd := h.index b hb'
      have hf := (hl b hb').lt_iff
      rw [hk.size, ← h.packing_eq] at hf
      split
      · rename_i ht
        refine .fatalCheck (decide_eq_true fun hm => ?_) (.pure fun x => ?_)
        · obtain ⟨id', hne, -, hq⟩ := (hd _).mp hm
          exact order_ne hne.symm hq
        · rw [Finset.mem_insert, hd]
          constructor
          · rintro (hx | hx)
            · exact .inr ⟨hf.mp ht, hx⟩
            · exact .inl hx
          · rintro (hx | hx)
            · exact .inr hx
            · exact .inl hx.2
      · rename_i hg
        refine .pure fun x => ?_
        rw [hd]
        exact ⟨.inl, fun hx => hx.resolve_right fun hx => hg (hf.mpr hx.1)⟩
    · rintro ss ⟨hle, hsets⟩
      refine .pure ⟨rfl, rfl, hle, fun b hb => hsets b ?_⟩
      have := h.buckets_eq
      unfold GroupAvailability.buckets at this
      omega

variable {free : List Nat}

theorem bucketCount_withParent (hb : group.buckets = p.bucketCount g) (g') :
    (p.withParent g id parent group free).bucketCount g' = p.bucketCount g' := by
  unfold bucketCount withParent setGroup
  dsimp only
  by_cases hg : g' = g
  · subst hg
    rw [update_self]
    exact hb
  · rw [update_of_ne hg]

theorem lcmBlocks_withParent_ne (hn : id' ≠ id) :
    (p.withParent g id parent group free).lcmBlocks id' = p.lcmBlocks id' := update_of_ne hn ..

theorem lcmBlocks_withParent_self :
    (p.withParent g id parent group free).lcmBlocks id = parent := update_self ..

theorem boundGroup_withParent_self : (p.withParent g id parent group free).boundGroup id = parent.boundGroup :=
  congrArg LcmBlock.boundGroup lcmBlocks_withParent_self

variable {g' : Nat}

theorem groups_withParent_ne (hn : g' ≠ g) :
    (p.withParent g id parent group free).groups g' = p.groups g' := update_of_ne hn ..

theorem groups_withParent_self :
    (p.withParent g id parent group free).groups g = group := update_self ..

theorem partial_withParent_ne (hb : group.buckets = p.bucketCount g)
    (hn : id' ≠ id) : (p.withParent g id parent group free).Partial g' b id' ↔ p.Partial g' b id' := by
  unfold BlockPool.Partial boundGroup
  rw [lcmBlocks_withParent_ne hn, bucketCount_withParent hb]

theorem packing_withParent (hpa : group.packing = (p.groups g).packing) (g') :
    ((p.withParent g id parent group free).groups g').packing = (p.groups g').packing := by
  by_cases hgg : g' = g
  · rw [hgg, groups_withParent_self]
    exact hpa
  · rw [groups_withParent_ne hgg]

/-- The free slots of a bucket, those of the parent set apart. -/
theorem sum_freeSlotsOf_withParent (hb : group.buckets = p.bucketCount g) (hid : id ∈ Finset.Icc 1 p.numLcmBlocks) (b) :
    ∑ id' ∈ Finset.Icc 1 p.numLcmBlocks, (p.withParent g id parent group free).freeSlotsOf g' b id' =
      ∑ id' ∈ (Finset.Icc 1 p.numLcmBlocks).erase id, p.freeSlotsOf g' b id' +
        if parent.boundGroup = some g' then (freeIn parent.occupancy (p.bucketCount g') b).card else 0 := by
  rw [← Finset.sum_erase_add _ _ hid]
  congr 1
  · refine Finset.sum_congr rfl fun id' hid' => ?_
    unfold freeSlotsOf boundGroup
    rw [lcmBlocks_withParent_ne (Finset.ne_of_mem_erase hid'), bucketCount_withParent hb]
  · unfold freeSlotsOf
    rw [boundGroup_withParent_self, lcmBlocks_withParent_self, bucketCount_withParent hb]

theorem exists_partial_withParent (hb : group.buckets = p.bucketCount g) {x} :
    (∃ id', (p.withParent g id parent group free).Partial g' b id' ∧
        x = ((p.withParent g id parent group free).lcmBlocks id').order id') ↔
      (∃ id' ≠ id, p.Partial g' b id' ∧ x = (p.lcmBlocks id').order id') ∨ parent.boundGroup = some g' ∧
        (freeIn parent.occupancy (p.bucketCount g') b).Nonempty ∧ x = parent.order id := by
  constructor
  · rintro ⟨id', ht, rfl⟩
    by_cases hne : id' = id
    · subst hne
      obtain ⟨hg, hf⟩ := ht
      rw [boundGroup_withParent_self] at hg
      rw [lcmBlocks_withParent_self, bucketCount_withParent hb] at hf
      exact .inr ⟨hg, hf, by rw [lcmBlocks_withParent_self]⟩
    · exact .inl ⟨id', hne, (partial_withParent_ne hb hne).mp ht, by rw [lcmBlocks_withParent_ne hne]⟩
  · rintro (⟨id', hne, ht, rfl⟩ | ⟨hg, hf, rfl⟩)
    · exact ⟨id', (partial_withParent_ne hb hne).mpr ht, by rw [lcmBlocks_withParent_ne hne]⟩
    · refine ⟨id, ⟨boundGroup_withParent_self.trans hg, ?_⟩, by rw [lcmBlocks_withParent_self]⟩
      rw [lcmBlocks_withParent_self, bucketCount_withParent hb]
      exact hf

/-- What holds of the new parent and of all others holds of every parent. -/
theorem forall_lcmBlocks_withParent {P : Nat → LcmBlock → Prop} (hself : P id parent)
    (hne : ∀ id' ≠ id, P id' (p.lcmBlocks id')) (id') :
    P id' ((p.withParent g id parent group free).lcmBlocks id') := by
  by_cases heq : id' = id
  · rw [heq, lcmBlocks_withParent_self]
    exact hself
  · rw [lcmBlocks_withParent_ne heq]
    exact hne id' heq

theorem RepOk.mem_free_withParent (h : RepOk p) (hid : 1 ≤ id ∧ id ≤ p.numLcmBlocks)
    (hf : ∀ id', id' ∈ free ↔ (id' ≠ id ∧ id' ∈ p.freeParentIds) ∨ id' = id ∧ parent.boundGroup = none) (id') :
    id' ∈ free ↔ (1 ≤ id' ∧ id' ≤ p.numLcmBlocks) ∧ (p.withParent g id parent group free).boundGroup id' = none := by
  refine forall_lcmBlocks_withParent
    (P := fun id' block => id' ∈ free ↔ (1 ≤ id' ∧ id' ≤ p.numLcmBlocks) ∧ block.boundGroup = none) ?_ ?_ id'
  · rw [hf, or_iff_right fun hn => hn.1 rfl, and_iff_right rfl, and_iff_right hid]
  · intro id' hne
    rw [hf, or_iff_left fun hq => hne hq.1, and_iff_right hne]
    exact h.mem_free id'

section

variable (h : RepOk p)
  -- the parent belongs to group `g` before and after, if to any
  (hold : ∀ g' ≠ g, p.boundGroup id ≠ some g') (hnew : ∀ g', parent.boundGroup = some g' → g' = g)

include h hold hnew

theorem RepOk.holes_withParent (hid : id ∈ Finset.Icc 1 p.numLcmBlocks)
    (hh : ∀ b < p.bucketCount g, group.freeSlotsByBucket.getD b 0 =
      ∑ id' ∈ (Finset.Icc 1 p.numLcmBlocks).erase id, p.freeSlotsOf g b id' +
        if parent.boundGroup = some g then (freeIn parent.occupancy (p.bucketCount g) b).card else 0)
    (hg' : g' < p.numGroups) {b} (hb : b < p.bucketCount g') :
    ((p.withParent g id parent group free).groups g').freeSlotsByBucket.getD b 0 =
      ∑ id' ∈ (Finset.Icc 1 p.numLcmBlocks).erase id, p.freeSlotsOf g' b id' +
        if parent.boundGroup = some g' then (freeIn parent.occupancy (p.bucketCount g') b).card else 0 := by
  by_cases heq : g' = g
  · subst heq
    rw [groups_withParent_self]
    exact hh b hb
  · have hzero : p.freeSlotsOf g' b id = 0 := if_neg (hold g' heq)
    rw [groups_withParent_ne heq, h.holes g' hg' b hb, ← Finset.sum_erase_add _ _ hid, hzero, if_neg (mt (hnew g') heq)]

theorem RepOk.index_withParent
    (hd : ∀ b < p.bucketCount g, ∀ x, x ∈ group.parentsByBucket.getD b ∅ ↔
      (∃ id' ≠ id, p.Partial g b id' ∧ x = (p.lcmBlocks id').order id') ∨
        parent.boundGroup = some g ∧ (freeIn parent.occupancy (p.bucketCount g) b).Nonempty ∧ x = parent.order id)
    (hg' : g' < p.numGroups) {b} (hb : b < p.bucketCount g') (x) :
    x ∈ ((p.withParent g id parent group free).groups g').parentsByBucket.getD b ∅ ↔
      (∃ id' ≠ id, p.Partial g' b id' ∧ x = (p.lcmBlocks id').order id') ∨
        parent.boundGroup = some g' ∧ (freeIn parent.occupancy (p.bucketCount g') b).Nonempty ∧
          x = parent.order id := by
  by_cases heq : g' = g
  · subst heq
    rw [groups_withParent_self]
    exact hd b hb x
  · rw [groups_withParent_ne heq, h.index g' hg' b hb, or_iff_left fun hq => heq (hnew g' hq.1)]
    exact exists_partial_ne fun ht => hold g' heq ht.1

end

/-- The pool once a parent of group `g` came back, or left it for the FIFO. -/
theorem RepOk.withParent (h : RepOk p) (hg : g < p.numGroups) (hB : 0 < p.bucketCount g)
    (hid : 1 ≤ id ∧ id ≤ p.numLcmBlocks) (hwa : p.boundGroup id = none ∨ p.boundGroup id = some g)
    (hpa : group.packing = (p.groups g).packing) (hbu : group.buckets = p.bucketCount g)
    (hl : group.freeSlotsByBucket.length = p.bucketCount g)
    (hr : parent = {} ∨ parent.boundGroup = some g ∧
      ParentOk (p.groups g).packing (p.bucketCount g) parent ∧ 0 < parent.occupiedCount) (hnd : free.Nodup)
    (hf : ∀ id', id' ∈ free ↔ (id' ≠ id ∧ id' ∈ p.freeParentIds) ∨ id' = id ∧ parent.boundGroup = none)
    (hh : ∀ b < p.bucketCount g, group.freeSlotsByBucket.getD b 0 =
      ∑ id' ∈ (Finset.Icc 1 p.numLcmBlocks).erase id, p.freeSlotsOf g b id' +
        if parent.boundGroup = some g then (freeIn parent.occupancy (p.bucketCount g) b).card else 0)
    (hd : ∀ b < p.bucketCount g, ∀ x, x ∈ group.parentsByBucket.getD b ∅ ↔
      (∃ id' ≠ id, p.Partial g b id' ∧ x = (p.lcmBlocks id').order id') ∨
        parent.boundGroup = some g ∧ (freeIn parent.occupancy (p.bucketCount g) b).Nonempty ∧
          x = parent.order id) : RepOk (p.withParent g id parent group free) := by
  have hold : ∀ g' ≠ g, p.boundGroup id ≠ some g' := by
    rcases hwa with hw | hw <;> simp +contextual [hw, eq_comm]
  have hnew : ∀ g', parent.boundGroup = some g' → g' = g := by
    rcases hr with rfl | ⟨hw, -⟩
    · exact fun _ hq => by cases hq
    · simp +contextual [hw]
  have hbound : ∀ g', parent.boundGroup = some g' →
      ParentOk (p.groups g').packing (p.bucketCount g') parent ∧ 0 < parent.occupiedCount := by
    intro g' hq
    obtain rfl := hnew g' hq
    rcases hr with rfl | ⟨-, hk⟩
    · cases hq
    · exact hk
  have hempty : parent.boundGroup = none → parent = {} := by
    rcases hr with rfl | ⟨hw, -⟩
    · exact fun _ => rfl
    · simp [hw]
  have hm : id ∈ Finset.Icc 1 p.numLcmBlocks := Finset.mem_Icc.mpr hid
  have hc := fun g' => @bucketCount_withParent parent p g id group free hbu g'
  have hk := fun g' => @packing_withParent parent p g id group free hpa g'
  refine ⟨fun g' => ?_, fun g' => ?_, fun g' => ?_, hnd, h.mem_free_withParent hid hf, fun id' => ?_, fun id' => ?_,
    fun id' => ?_, fun id' => ?_, fun g' hg' b hb => ?_, fun g' hg' b hb x => ?_⟩
  · rw [hk]
    exact h.packing_pos g'
  · rw [hc]
    by_cases heq : g' = g
    · rw [heq, groups_withParent_self]
      exact fun _ => hl
    · rw [groups_withParent_ne heq]
      exact h.lengths g'
  · rw [hc, hk]
    exact h.buckets_dvd g'
  · exact forall_lcmBlocks_withParent (P := fun _ block => block.boundGroup = none → block = {}) hempty
      (fun id' _ => h.unbound id') id'
  · exact forall_lcmBlocks_withParent
      (P := fun id' block => ∀ g', block.boundGroup = some g' → 1 ≤ id' ∧ id' ≤ p.numLcmBlocks)
      (fun _ _ => hid) (fun id' _ => h.bound_mem id') id'
  · simp only [hc]
    exact forall_lcmBlocks_withParent
      (P := fun _ block => ∀ g', block.boundGroup = some g' → g' < p.numGroups ∧ 0 < p.bucketCount g')
      (fun g' hq => hnew g' hq ▸ ⟨hg, hB⟩) (fun id' _ => h.bound_group id') id'
  · simp only [hc, hk]
    exact forall_lcmBlocks_withParent
      (P := fun _ block => ∀ g', block.boundGroup = some g' →
        ParentOk (p.groups g').packing (p.bucketCount g') block ∧ 0 < block.occupiedCount)
      hbound (fun id' _ => h.bound_ok id') id'
  · rw [hc] at hb
    exact (h.holes_withParent hold hnew hm hh hg' hb).trans (sum_freeSlotsOf_withParent hbu hm b).symm
  · rw [hc] at hb
    exact (h.index_withParent hold hnew hd hg' hb x).trans (exists_partial_withParent hbu).symm

/-! ## Occupying a slot -/

/-- A slot `occupy` may take: free, in a parent of the group or in the next empty parent. -/
structure Vacant (p : BlockPool) (g : Nat) (l : CacheBlockLocation) : Prop where
  slot_lt : l.slotIndex < (p.groups g).packing
  free : p.isOccupied l = false
  parent : p.boundGroup l.lcmBlockId = some g ∨ p.freeParentIds.head? = some l.lcmBlockId

/-- What `prepareParent` returns; `opened` parents left the FIFO. -/
structure Prepared (p : BlockPool) (g id : Nat) (parent : LcmBlock) (group : GroupAvailability)
    (free : List Nat) (opened : Nat) : Prop where
  detached : Detached p g id parent group
  slots : ∀ s, parent.occupancy.getD s false = p.isOccupied ⟨id, s⟩
  nodup : free.Nodup
  mem_free : ∀ id', id' ∈ free ↔ id' ≠ id ∧ id' ∈ p.freeParentIds
  was : p.boundGroup id = none ∨ p.boundGroup id = some g
  id_mem : 1 ≤ id ∧ id ≤ p.numLcmBlocks
  opens : p.freeParentIds.length = free.length + opened
  holes : ∀ b < p.bucketCount g, group.freeSlotsByBucket.getD b 0 =
    p.holes g b + opened * ((p.groups g).packing / p.bucketCount g)

theorem getD_map_add (l : List Nat) (w) (hb : b < l.length) : (l.map (· + w)).getD b 0 = l.getD b 0 + w := by
  rw [getD_eq_getElem?_getD, getElem?_map, getD_eq_getElem?_getD, getElem?_eq_getElem hb]
  rfl

theorem RepOk.unbound_slots (h : RepOk p) (hn : p.boundGroup id = none) (s) : p.isOccupied ⟨id, s⟩ = false := by
  unfold isOccupied
  rw [h.unbound id hn]
  rfl

theorem RepOk.openParent (h : RepOk p) (hg : g < p.numGroups) (hB : 0 < p.bucketCount g) {rest}
    (hf : p.freeParentIds = id :: rest) :
    Prepared p g id
      { p.lcmBlocks id with
        boundGroup := some g
        occupancy := replicate (p.groups g).packing false
        firstFreeSlots := if 1 < (p.groups g).packing then range (p.groups g).buckets
          else (p.lcmBlocks id).firstFreeSlots }
      { p.groups g with
        freeSlotsByBucket := (p.groups g).freeSlotsByBucket.map
          (· + (p.groups g).packing / (p.groups g).buckets) }
      rest 1 := by
  have hme : id ∈ p.freeParentIds := hf ▸ mem_cons_self
  obtain ⟨hid, hn⟩ := (h.mem_free id).mp hme
  obtain ⟨ht, hnd⟩ := nodup_cons.mp (hf ▸ h.free_nodup)
  have hem := h.unbound id hn
  have hd := h.buckets_dvd g hg hB
  have hl := h.lengths g hg
  rw [hem]
  refine ⟨⟨rfl, rfl, ?_, ?_, rfl, fun b hb => ?_, fun b hb x => ?_⟩, fun s => ?_, hnd, fun id' => ?_,
    .inl hn, hid, by rw [hf]; rfl, fun b hb => ?_⟩
  · rw [length_map]
    exact hl
  · exact ParentOk.fresh hd g
  · obtain ⟨w, hw⟩ := hd
    have hz : p.freeSlotsOf g b id = 0 := if_neg (by rw [hn]; nofun)
    have hm := Finset.sum_erase_add (Finset.Icc 1 p.numLcmBlocks) (p.freeSlotsOf g b) (Finset.mem_Icc.mpr hid)
    rw [hz, add_zero] at hm
    rw [getD_map_add _ _ (by rw [hl]; exact hb), h.holes g hg b hb, hm]
    show _ + (p.groups g).packing / p.bucketCount g = _
    rw [hw, card_freeIn_replicate hb, Nat.mul_div_cancel_left w hB]
  · rw [h.index g hg b hb]
    exact exists_partial_ne fun hp => by cases hn.symm.trans hp.1
  · rw [h.unbound_slots hn, getD_replicate_self]
  · rw [hf, mem_cons]
    constructor
    · intro hin
      exact ⟨fun hq => ht (hq ▸ hin), .inr hin⟩
    · rintro ⟨hne, hin⟩
      exact hin.resolve_left hne
  · rw [getD_map_add _ _ (by rw [hl]; exact hb), one_mul]
    rfl

theorem RepOk.prepareParent_returns (h : RepOk p) (hg : g < p.numGroups) (hB : 0 < p.bucketCount g)
    (hp : p.boundGroup id = some g ∨ p.freeParentIds.head? = some id) :
    Returns (p.prepareParent (p.groups g) g (p.groups g).packing id) fun out =>
      ∃ opened ≤ 1, Prepared p g id out.1 out.2.1 out.2.2 opened := by
  unfold prepareParent
  dsimp only
  split
  · rename_i hz
    have hn : p.boundGroup id = none := by
      cases hb : p.boundGroup id with
      | none => rfl
      | some g' => exact absurd hz (by have := (h.bound_ok id g' hb).2; omega)
    have hh := hp.resolve_left (by rw [hn]; nofun)
    obtain ⟨rest, hf⟩ := head?_eq_some_iff.mp hh
    refine .fatalCheck (by rw [hh]; exact beq_self_eq_true _) (.fatalCheck ?_ (.pure ?_))
    · rw [h.unbound id hn]
      rfl
    · rw [hf]
      exact ⟨1, le_rfl, h.openParent hg hB hf⟩
  · rename_i hpo
    have hbo : p.boundGroup id = some g := by
      refine hp.resolve_right fun hh => hpo ?_
      have hm : id ∈ p.freeParentIds := mem_of_mem_head? hh
      rw [h.unbound id ((h.mem_free id).mp hm).2]
    refine (h.detach hbo).bind fun group hd => .pure ?_
    refine ⟨0, by omega, hd, fun s => rfl, h.free_nodup, h.mem_free_ne hbo, .inr hbo,
      h.bound_mem id g hbo, rfl, fun b hb => ?_⟩
    rw [hd.holes b hb, zero_mul, add_zero, BlockPool.holes, h.holes g hg b hb,
      ← Finset.sum_erase_add _ _ (Finset.mem_Icc.mpr (h.bound_mem id g hbo))]
    congr 1
    exact (if_pos hbo).symm

variable {l : CacheBlockLocation}

theorem location_ext {l' : CacheBlockLocation} (hd : l'.lcmBlockId = l.lcmBlockId)
    (hs : l'.slotIndex = l.slotIndex) : l' = l := by
  cases l
  cases l'
  cases hd
  cases hs
  rfl

structure SameShape (p p' : BlockPool) : Prop where
  blocks : p'.numLcmBlocks = p.numLcmBlocks
  groups : p'.numGroups = p.numGroups
  packing : ∀ g, (p'.groups g).packing = (p.groups g).packing
  buckets : ∀ g, p'.bucketCount g = p.bucketCount g

theorem sameShape_withParent (hp : group.packing = (p.groups g).packing)
    (hb : group.buckets = p.bucketCount g) : SameShape p (p.withParent g id parent group free) where
  blocks := rfl
  groups := rfl
  packing := packing_withParent hp
  buckets := bucketCount_withParent hb

structure Occupied (p p' : BlockPool) (g : Nat) (l : CacheBlockLocation) : Prop where
  rep : RepOk p'
  same : SameShape p p'
  occupied : ∀ l', p'.isOccupied l' = true ↔ p.isOccupied l' = true ∨ l' = l
  opened : ∃ opened ≤ 1, p.freeParentIds.length = p'.freeParentIds.length + opened ∧
    ∀ b < p.bucketCount g, p'.holes g b + (if l.slotIndex % p.bucketCount g = b then 1 else 0) =
      p.holes g b + opened * ((p.groups g).packing / p.bucketCount g)

/-- And which parent it took it from: only a parent without a group is opened. -/
structure Filled (p p' : BlockPool) (g : Nat) (l : CacheBlockLocation) : Prop extends Occupied p p' g l where
  others : ∀ id ≠ l.lcmBlockId, p'.boundGroup id = p.boundGroup id
  keeps : p.boundGroup l.lcmBlockId = some g → p'.freeParentIds.length = p.freeParentIds.length

theorem Prepared.length_free {op} (h : Prepared p g id parent group free op)
    (hr : RepOk p) (hb : p.boundGroup id = some g) : free.length = p.freeParentIds.length := by
  refine Perm.length_eq ((perm_ext_iff_of_nodup h.nodup hr.free_nodup).mpr fun id' => ?_)
  rw [h.mem_free]
  exact (hr.mem_free_ne hb id').symm

theorem Detached.occupySlot (h : Detached p g id parent group) (hB : 0 < p.bucketCount g)
    (hs : s < (p.groups g).packing) (hf : parent.occupancy.getD s false = false) :
    0 < group.freeSlotsByBucket.getD (s % p.bucketCount g) 0 ∧
      Detached p g id (BlockPool.occupySlot parent (p.bucketCount g) (p.groups g).packing s)
        { group with
          freeSlotsByBucket := group.freeSlotsByBucket.set (s % p.bucketCount g)
            (group.freeSlotsByBucket.getD (s % p.bucketCount g) 0 - 1) } := by
  have hs' : s < parent.occupancy.length := by rw [h.parent_ok.size]; exact hs
  have hm := Nat.mod_lt s hB
  have hd := fun b => card_freeIn_set_true (B := p.bucketCount g) (b := b) hs' hf
  refine ⟨?_, h.packing_eq, h.buckets_eq, ?_, h.parent_ok.occupySlot hB hs hf, h.bound, fun b hb => ?_, h.index⟩
  · have := hd (s % p.bucketCount g)
    rw [if_pos rfl] at this
    rw [h.holes _ hm]
    omega
  · rw [length_set]
    exact h.lengths
  · show (group.freeSlotsByBucket.set _ _).getD b 0 = _ + (freeIn (parent.occupancy.set s true) _ b).card
    rw [getD_set (by rw [h.lengths]; exact hm)]
    have hc := hd b
    split
    · rename_i hq
      subst hq
      rw [if_pos rfl] at hc
      rw [h.holes _ hm]
      omega
    · rename_i hn
      rw [if_neg (Ne.symm hn)] at hc
      rw [h.holes b hb]
      omega

theorem Detached.attach (h : Detached p g id parent group) (hr : RepOk p) (hg : g < p.numGroups)
    (hB : 0 < p.bucketCount g) (hid : 1 ≤ id ∧ id ≤ p.numLcmBlocks)
    (hw : p.boundGroup id = none ∨ p.boundGroup id = some g) (hpo : 0 < parent.occupiedCount) (hn : free.Nodup)
    (hf : ∀ id', id' ∈ free ↔ id' ≠ id ∧ id' ∈ p.freeParentIds) :
    Returns (addAvailability group parent id) fun group' => RepOk (p.withParent g id parent group' free) ∧
        SameShape p (p.withParent g id parent group' free) ∧
        group'.freeSlotsByBucket = group.freeSlotsByBucket := by
  refine (h.attachSets hpo).mono ?_
  rintro group' ⟨hp, hl, hc, hd⟩
  rw [h.packing_eq] at hp
  rw [h.buckets_eq] at hc
  refine ⟨hr.withParent hg hB hid hw hp hc (by rw [hl]; exact h.lengths)
    (.inr ⟨h.bound, h.parent_ok, hpo⟩) hn (fun id' => ?_) (fun b hb => ?_) (fun b hb x => ?_),
    sameShape_withParent hp hc, hl⟩
  · rw [hf, h.bound]
    exact ⟨.inl, fun hin => hin.resolve_right fun hq => nomatch hq.2⟩
  · rw [hl, if_pos h.bound]
    exact h.holes b hb
  · rw [hd b hb]
    exact or_congr_right ⟨fun hx => ⟨h.bound, hx⟩, fun hx => hx.2⟩

theorem RepOk.occupy_returns (h : RepOk p) (hg : g < p.numGroups) (hB : 0 < p.bucketCount g) (hl : Vacant p g l) :
    Returns (p.occupy g (p.groups g).packing l) fun p' => Filled p p' g l := by
  unfold occupy placement
  rw [bind_assoc]
  refine .fatalCheck (decide_eq_true hg) ?_
  rw [pure_bind]
  refine (h.prepareParent_returns hg hB hl.parent).bind ?_
  rintro ⟨parent, group, free⟩ ⟨op, hle, hpr⟩
  have hd := hpr.detached
  have ht : parent.occupancy.getD l.slotIndex false = false := (hpr.slots _).trans hl.free
  have hn : parent.occupancy.length = (p.groups g).packing := hd.parent_ok.size
  obtain ⟨hp, hk⟩ := hd.occupySlot hB hl.slot_lt ht
  rw [← hd.buckets_eq] at hp
  refine .fatalCheck (by rw [hd.bound, hn, beq_self_eq_true, beq_self_eq_true]; rfl) ?_
  refine .fatalCheck (decide_eq_true (by rw [hn]; exact hl.slot_lt)) ?_
  refine .fatalCheck (by rw [ht]; rfl) (.fatalCheck (decide_eq_true hp) ?_)
  rw [hd.buckets_eq]
  refine (hk.attach h hg hB hpr.id_mem hpr.was (Nat.succ_pos _) hpr.nodup hpr.mem_free).bind ?_
  rintro group' ⟨hr, hm, hsl⟩
  refine .pure ⟨⟨hr, hm, fun l' => ?_, op, hle, hpr.opens, fun b hb => ?_⟩, fun id hne => ?_, hpr.length_free h⟩
  · show ((update p.lcmBlocks l.lcmBlockId _) l'.lcmBlockId).occupancy.getD l'.slotIndex false = true ↔ _
    by_cases hid : l'.lcmBlockId = l.lcmBlockId
    · rw [hid, update_self]
      show (parent.occupancy.set l.slotIndex true).getD l'.slotIndex false = true ↔ _
      rw [getD_set (by rw [hn]; exact hl.slot_lt), hpr.slots, ← hid]
      split
      · rename_i hs
        exact iff_of_true rfl (.inr (location_ext hid hs))
      · rename_i hs
        exact ⟨.inl, fun hx => hx.resolve_right fun hq => hs (congrArg _ hq)⟩
    · rw [update_of_ne hid]
      exact ⟨.inl, fun hx => hx.resolve_right fun hq => hid (congrArg _ hq)⟩
  · have hmo := Nat.mod_lt l.slotIndex hB
    show (update p.groups g group' g).freeSlotsByBucket.getD b 0 + _ = _
    rw [update_self, hsl, getD_set (by rw [hd.lengths]; exact hmo),
      ← hpr.holes b hb]
    rw [hd.buckets_eq] at hp
    split
    · rename_i hq
      subst hq
      rw [if_pos rfl]
      omega
    · rename_i hne
      rw [if_neg (Ne.symm hne)]
      rfl
  · exact congrArg LcmBlock.boundGroup (update_of_ne hne ..)

/-! ## Releasing a slot -/

abbrev freed (slots : List Nat) (b : Nat) : List Nat := slots.set b (slots.getD b 0 + 1)

theorem Detached.cleared (h : Detached p g id parent group) (hB : 0 < p.bucketCount g)
    (hs : s < (p.groups g).packing) (hf : parent.occupancy.getD s false = true) (hb : b < p.bucketCount g) :
    (freed group.freeSlotsByBucket (s % p.bucketCount g)).getD b 0 =
      ∑ id' ∈ (Finset.Icc 1 p.numLcmBlocks).erase id, p.freeSlotsOf g b id' +
        (freeIn (parent.occupancy.set s false) (p.bucketCount g) b).card := by
  have hm := Nat.mod_lt s hB
  rw [getD_set (by rw [h.lengths]; exact hm),
    card_freeIn_set_false (by rw [h.parent_ok.size]; exact hs) hf]
  split
  · rename_i hq
    subst hq
    rw [if_pos rfl, h.holes _ hm]
    omega
  · rename_i hn
    rw [if_neg (Ne.symm hn), h.holes b hb]
    omega

theorem RepOk.length_free_lt (h : RepOk p) (hb : p.boundGroup id = some g) :
    p.freeParentIds.length < p.numLcmBlocks := by
  have hsu : p.freeParentIds.toFinset ⊆ (Finset.Icc 1 p.numLcmBlocks).erase id := by
    intro id' hd'
    obtain ⟨hne, hin⟩ := (h.mem_free_ne hb id').mp (mem_toFinset.mp hd')
    exact Finset.mem_erase.mpr ⟨hne, Finset.mem_Icc.mpr ((h.mem_free id').mp hin).1⟩
  have hd := h.bound_mem id g hb
  have hc := Finset.card_le_card hsu
  rw [toFinset_card_of_nodup h.free_nodup, Finset.card_erase_of_mem (Finset.mem_Icc.mpr hd), Nat.card_Icc] at hc
  omega

theorem eq_replicate_of_count {l : List Bool} (h : l.count true = 0) : l = replicate l.length false := by
  refine eq_replicate_of_mem fun x hx => ?_
  cases x with
  | false => rfl
  | true => exact absurd hx (count_eq_zero.mp h)

theorem Detached.unbind (h : Detached p g id parent group) (hp : RepOk p) (hbo : p.boundGroup id = some g)
    (hl : parent.occupiedCount = 1) (hs : s < (p.groups g).packing)
    (hf : parent.occupancy.getD s false = true) (sls : List Nat)
    (hsl : sls = freed group.freeSlotsByBucket (s % p.bucketCount g)) :
    (∀ k ∈ sls, (p.groups g).packing / p.bucketCount g ≤ k) ∧
      RepOk (p.withParent g id {}
        { group with freeSlotsByBucket := sls.map (· - (p.groups g).packing / p.bucketCount g) }
        (p.freeParentIds ++ [id])) := by
  obtain ⟨hg, hB⟩ := hp.bound_group id g hbo
  have hs' : s < parent.occupancy.length := by rw [h.parent_ok.size]; exact hs
  have hn : sls.length = p.bucketCount g := by rw [hsl, length_set]; exact h.lengths
  obtain ⟨w, hw⟩ := hp.buckets_dvd g hg hB
  have hd : (p.groups g).packing / p.bucketCount g = w := by rw [hw, Nat.mul_div_cancel_left w hB]
  have hm : parent.occupancy.set s false = replicate (p.bucketCount g * w) false := by
    have hz : (parent.occupancy.set s false).count true = 0 := by
      rw [count_set_false hs' hf, ← h.parent_ok.count, hl]
    have hr := eq_replicate_of_count hz
    rw [length_set, h.parent_ok.size, hw] at hr
    exact hr
  have hh : ∀ b < p.bucketCount g, sls.getD b 0 =
      ∑ id' ∈ (Finset.Icc 1 p.numLcmBlocks).erase id, p.freeSlotsOf g b id' + w := by
    intro b hb
    rw [hsl, h.cleared hB hs hf hb, hm, card_freeIn_replicate hb]
  rw [hd]
  refine ⟨fun k hk => ?_, ?_⟩
  · obtain ⟨b, hb, rfl⟩ := getElem_of_mem hk
    have := hh b (hn ▸ hb)
    rw [getD_eq_getElem _ _ hb] at this
    omega
  · have ht := hp.notMem_free hbo
    refine hp.withParent hg hB (hp.bound_mem id g hbo) (.inr hbo) h.packing_eq h.buckets_eq
      (by rw [length_map]; exact hn) (.inl rfl) ?_ (fun id' => ?_) (fun b hb => ?_) (fun b hb x => ?_)
    · rw [nodup_append]
      refine ⟨hp.free_nodup, nodup_singleton id, fun a ha b hb hq => ?_⟩
      rw [mem_singleton] at hb
      exact ht (hb ▸ hq ▸ ha)
    · rw [mem_append, mem_singleton]
      by_cases hq : id' = id
      · simp [hq]
      · simp [hq]
    · rw [if_neg (by nofun), getD_eq_getElem?_getD, getElem?_map]
      have := hh b hb
      rw [getD_eq_getElem _ _ (by rw [hn]; exact hb)] at this
      rw [getElem?_eq_getElem (by rw [hn]; exact hb), Option.map_some, Option.getD_some, this]
      omega
    · rw [h.index b hb]
      exact ⟨.inl, fun hx => hx.resolve_right fun hx => nomatch hx.1⟩

theorem Detached.clearSlot (h : Detached p g id parent group) (hB : 0 < p.bucketCount g)
    (hm : 1 < parent.occupiedCount) (hs : s < (p.groups g).packing)
    (hf : parent.occupancy.getD s false = true) :
    Detached p g id
      { BlockPool.clearSlot parent s with
        firstFreeSlots := parent.firstFreeSlots.set (s % p.bucketCount g)
          (min (parent.firstFreeSlots.getD (s % p.bucketCount g) 0) s) }
      { group with
        freeSlotsByBucket := freed group.freeSlotsByBucket (s % p.bucketCount g) } := by
  have hn := lt_of_lt_of_le hm h.parent_ok.count_le
  refine { h with
    lengths := ?_
    parent_ok := h.parent_ok.clearSlot hB hs hn hf
    holes := fun b hb => h.cleared hB hs hf hb }
  rw [length_set]
  exact h.lengths

structure Cleared (p p' : BlockPool) (l : CacheBlockLocation) : Prop where
  rep : RepOk p'
  same : SameShape p p'
  occupied : ∀ l', p'.isOccupied l' = true ↔ p.isOccupied l' = true ∧ l' ≠ l

theorem isOccupied_cleared {occupancy : List Bool}
    (hp : ∀ s, parent.occupancy.getD s false = (occupancy.set l.slotIndex false).getD s false)
    (hold : (p.lcmBlocks l.lcmBlockId).occupancy = occupancy) (ht : l.slotIndex < occupancy.length) (l') :
    (p.withParent g l.lcmBlockId parent group free).isOccupied l' = true ↔ p.isOccupied l' = true ∧ l' ≠ l := by
  unfold isOccupied
  by_cases hd : l'.lcmBlockId = l.lcmBlockId
  · rw [hd, lcmBlocks_withParent_self, hp, getD_set ht, hold]
    split
    · rename_i hs
      exact iff_of_false (by decide) fun hx => hx.2 (location_ext hd hs)
    · rename_i hs
      exact ⟨fun hx => ⟨hx, fun hq => hs (congrArg _ hq)⟩, fun hx => hx.1⟩
  · rw [lcmBlocks_withParent_ne hd]
    exact ⟨fun hx => ⟨hx, fun hq => hd (congrArg _ hq)⟩, fun hx => hx.1⟩

theorem RepOk.occupied_bound (h : RepOk p) (hc : p.isOccupied l = true) :
    ∃ g, p.boundGroup l.lcmBlockId = some g ∧ l.slotIndex < (p.groups g).packing := by
  cases hb : p.boundGroup l.lcmBlockId with
  | none =>
    rw [show l = ⟨l.lcmBlockId, l.slotIndex⟩ from rfl, h.unbound_slots hb] at hc
    cases hc
  | some g =>
    refine ⟨g, rfl, ?_⟩
    rw [← (h.bound_ok _ g hb).1.size]
    by_contra hg
    unfold isOccupied at hc
    rw [getD_eq_getElem?_getD, getElem?_eq_none (by omega)] at hc
    cases hc

theorem RepOk.settleParent_returns (h : RepOk p) (hb : p.boundGroup l.lcmBlockId = some g)
    (hc : p.isOccupied l = true) (hs : l.slotIndex < (p.groups g).packing)
    (hd : Detached p g l.lcmBlockId (p.lcmBlocks l.lcmBlockId) group) :
    Returns (p.settleParent g
      { group with
        freeSlotsByBucket := freed group.freeSlotsByBucket (l.slotIndex % group.buckets) }
      (BlockPool.clearSlot (p.lcmBlocks l.lcmBlockId) l.slotIndex) l) fun p' => Cleared p p' l := by
  obtain ⟨hg, hB⟩ := h.bound_group _ g hb
  obtain ⟨hok, hp⟩ := h.bound_ok _ g hb
  have hs' : l.slotIndex < (p.lcmBlocks l.lcmBlockId).occupancy.length := by rw [hok.size]; exact hs
  unfold settleParent
  rw [hd.buckets_eq]
  have hbu : GroupAvailability.buckets
      { group with
        freeSlotsByBucket := freed group.freeSlotsByBucket (l.slotIndex % p.bucketCount g) } = p.bucketCount g :=
    hd.buckets_eq
  split
  · rename_i hz
    have hl : (p.lcmBlocks l.lcmBlockId).occupiedCount = 1 := by
      have : (p.lcmBlocks l.lcmBlockId).occupiedCount - 1 = 0 := hz
      omega
    have hsi : (BlockPool.clearSlot (p.lcmBlocks l.lcmBlockId) l.slotIndex).occupancy.length =
        (p.groups g).packing := by
      unfold BlockPool.clearSlot
      rw [length_set]
      exact hok.size
    have hn : { BlockPool.clearSlot (p.lcmBlocks l.lcmBlockId) l.slotIndex with
        boundGroup := none, occupancy := [], firstFreeSlots := [] } = ({} : LcmBlock) := by
      unfold BlockPool.clearSlot
      rw [hl]
    obtain ⟨hh, hr⟩ := hd.unbind h hb hl hs hc _ rfl
    rw [hsi, hn]
    refine .fatalCheck (all_eq_true.mpr fun k hk => decide_eq_true ?_)
      (.fatalCheck (decide_eq_true (h.length_free_lt hb)) (.pure ?_))
    · show (p.groups g).packing / group.buckets ≤ k
      rw [hd.buckets_eq]
      exact hh k hk
    · rw [hbu]
      refine ⟨hr, sameShape_withParent hd.packing_eq hd.buckets_eq, fun l' => ?_⟩
      refine isOccupied_cleared (fun s => ?_) rfl hs' l'
      have hz' : ((p.lcmBlocks l.lcmBlockId).occupancy.set l.slotIndex false).count true = 0 := by
        rw [count_set_false hs' hc, ← hok.count, hl]
      rw [eq_replicate_of_count hz', getD_replicate_self]
      rfl
  · rename_i hm
    have hm' : 1 < (p.lcmBlocks l.lcmBlockId).occupiedCount := by
      have : (p.lcmBlocks l.lcmBlockId).occupiedCount - 1 ≠ 0 := hm
      omega
    have hcl := hd.clearSlot hB hm' hs hc
    rw [hbu]
    refine (hcl.attach h hg hB (h.bound_mem _ g hb) (.inr hb) (by show 0 < _ - 1; omega) h.free_nodup
      (h.mem_free_ne hb)).bind ?_
    rintro group' ⟨hr, hsa, -⟩
    exact .pure ⟨hr, hsa, isOccupied_cleared (fun s => rfl) rfl hs'⟩

theorem RepOk.release_returns (h : RepOk p) (hc : p.isOccupied l = true) :
    Returns (p.release l) fun p' => Cleared p p' l := by
  obtain ⟨g, hbo, hs⟩ := h.occupied_bound hc
  obtain ⟨hk, hp⟩ := h.bound_ok _ g hbo
  obtain ⟨hid, hid'⟩ := h.bound_mem _ g hbo
  refine .fatalCheck (by simp; omega) (.fatalCheck (decide_eq_true (by rw [hk.size]; exact hs)) ?_)
  refine .fatalCheck ?_ ?_
  · rw [Bool.and_eq_true]
    exact ⟨hc, decide_eq_true hp⟩
  · have hb : (p.lcmBlocks l.lcmBlockId).boundGroup = some g := hbo
    simp only [hb]
    unfold placement
    rw [bind_assoc]
    refine .fatalCheck (decide_eq_true (h.bound_group _ g hbo).1) ?_
    rw [pure_bind]
    exact (h.detach hbo).bind fun group hd => h.settleParent_returns hbo hc hs hd

/-! ## Registering a group -/

structure Registered (p p' : BlockPool) (g : Nat) : Prop where
  rep : RepOk p'
  blocks : p'.numLcmBlocks = p.numLcmBlocks
  groups : p'.numGroups = p.numGroups
  packing : ∀ g', (p'.groups g').packing = (p.groups g').packing
  occupied : p'.isOccupied = p.isOccupied
  free : p'.freeParentIds = p.freeParentIds
  slots : (p'.groups g).freeSlots = (p.groups g).freeSlots

theorem Registered.refl (h : RepOk p) (g) : Registered p p g := ⟨h, rfl, rfl, fun _ => rfl, rfl, rfl, rfl⟩

theorem RepOk.unregistered (h : RepOk p) (hz : p.bucketCount g = 0) (id) : p.boundGroup id ≠ some g := by
  intro hb
  have := (h.bound_group id g hb).2
  omega

theorem RepOk.register (h : RepOk p) (hg : g < p.numGroups) (hz : p.bucketCount g = 0) {shardCount}
    (hd : shardCount ∣ (p.groups g).packing) :
    Registered p (p.setGroup g
      { p.groups g with
        parentsByBucket := replicate shardCount ∅
        freeSlotsByBucket := replicate shardCount 0 }) g := by
  have hn := h.unregistered hz
  generalize hp' : p.setGroup g _ = p'
  have hc : ∀ g' ≠ g, p'.groups g' = p.groups g' := fun g' hne => hp' ▸ update_of_ne hne ..
  have hs : p'.groups g = { p.groups g with
      parentsByBucket := replicate shardCount ∅
      freeSlotsByBucket := replicate shardCount 0 } := hp' ▸ update_self ..
  have hbl : p'.numLcmBlocks = p.numLcmBlocks := by rw [← hp']; rfl
  have hr : p'.numGroups = p.numGroups := by rw [← hp']; rfl
  have hl : p'.lcmBlocks = p.lcmBlocks := by rw [← hp']; rfl
  have hf : p'.freeParentIds = p.freeParentIds := by rw [← hp']; rfl
  have hbo : p'.boundGroup = p.boundGroup := by unfold boundGroup; rw [hl]
  have hbu : p'.bucketCount g = shardCount := by
    unfold bucketCount
    rw [hs]
    exact length_replicate
  have hbuckets_ne : ∀ g' ≠ g, p'.bucketCount g' = p.bucketCount g' := by
    intro g' hne
    unfold bucketCount
    rw [hc g' hne]
  have hpa : ∀ g', (p'.groups g').packing = (p.groups g').packing := by
    intro g'
    by_cases hgg : g' = g
    · rw [hgg, hs]
    · rw [hc g' hgg]
  refine ⟨⟨?_, ?_, ?_, ?_, ?_, ?_, ?_, ?_, ?_, ?_, ?_⟩, hbl, hr, hpa, ?_, hf, ?_⟩
  · intro g' hg'
    rw [hpa]
    exact h.packing_pos g' (hr ▸ hg')
  · intro g' hg'
    by_cases hgg : g' = g
    · rw [hgg, hbu, hs]
      exact length_replicate
    · rw [hbuckets_ne g' hgg, hc g' hgg]
      exact h.lengths g' (hr ▸ hg')
  · intro g' hg' hpo
    rw [hpa]
    by_cases hgg : g' = g
    · rw [hgg, hbu]
      exact hd
    · rw [hbuckets_ne g' hgg] at hpo ⊢
      exact h.buckets_dvd g' (hr ▸ hg') hpo
  · rw [hf]
    exact h.free_nodup
  · intro id
    rw [hf, hbo, hbl]
    exact h.mem_free id
  · intro id
    rw [hbo, hl]
    exact h.unbound id
  · intro id g'
    rw [hbo, hbl]
    exact h.bound_mem id g'
  · intro id g' hb
    rw [hbo] at hb
    rw [hbuckets_ne g' fun hq => hn id (hq ▸ hb), hr]
    exact h.bound_group id g' hb
  · intro id g' hb
    rw [hbo] at hb
    rw [hbuckets_ne g' fun hq => hn id (hq ▸ hb), hpa, hl]
    exact h.bound_ok id g' hb
  · intro g' hg' b hb
    by_cases hgg : g' = g
    · subst hgg
      rw [hs]
      have hm : ∀ id ∈ Finset.Icc 1 p'.numLcmBlocks, p'.freeSlotsOf g' b id = 0 :=
        fun id _ => if_neg (by rw [hbo]; exact hn id)
      rw [Finset.sum_eq_zero hm]
      exact getD_replicate_self _ _ _
    · rw [hbuckets_ne g' hgg] at hb
      rw [hc g' hgg, h.holes g' (hr ▸ hg') b hb, hbl]
      refine Finset.sum_congr rfl fun id _ => ?_
      unfold freeSlotsOf
      rw [hbo, hbuckets_ne g' hgg, hl]
  · intro g' hg' b hb x
    by_cases hgg : g' = g
    · subst hgg
      rw [hs]
      rw [getD_replicate_self]
      refine iff_of_false (Finset.notMem_empty x) ?_
      rintro ⟨id, hp, -⟩
      exact hn id (hbo ▸ hp.1)
    · rw [hbuckets_ne g' hgg] at hb
      rw [hc g' hgg, h.index g' (hr ▸ hg') b hb]
      unfold BlockPool.Partial
      rw [hbo, hbuckets_ne g' hgg, hl]
  · unfold isOccupied
    rw [hl]
  · have hni : (p.groups g).freeSlotsByBucket = [] := by
      rw [← length_eq_zero_iff, h.lengths g hg, hz]
    unfold GroupAvailability.freeSlots
    rw [hs, hni, sum_replicate]
    rfl

end TokenSpeed.Indexed

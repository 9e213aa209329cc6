import TokenSpeed.Cache.Lemmas.Placement

/-!
# Acquiring blocks

A demand that fits is acquired: no check of the pool fails, the blocks were free and are the caller's
alone, and the rest of the demand still fits.
-/

namespace TokenSpeed.BlockPool

open List

variable {p p' p'' : BlockPool} {g n : Nat} {need : Need}

structure Acquires (p p' : BlockPool) (g : Nat) (ls : List CacheBlockLocation) : Prop where
  parents_eq : p'.numLcmBlocks = p.numLcmBlocks
  packing_eq : p'.packing = p.packing
  shard_eq : p'.shardCount = p.shardCount
  nodup : ls.Nodup
  fresh : ∀ l ∈ ls, p.useCount l = 0
  use_eq : ∀ l, p'.useCount l = p.useCount l + ls.count l
  bound : ∀ l ∈ ls, p'.boundGroup l.lcmBlockId = some g ∧ l.slotIndex < p.packing g ∧
    0 < l.lcmBlockId
  bound_keep : ∀ id h, p.boundGroup id = some h → p'.boundGroup id = some h

theorem Acquires.nil (p : BlockPool) (g) : p.Acquires p g [] where
  parents_eq := rfl
  packing_eq := rfl
  shard_eq := rfl
  nodup := nodup_nil
  fresh := by simp
  use_eq := by simp
  bound := by simp
  bound_keep := fun _ _ h => h

theorem Acquires.append {ls ls'} (h : p.Acquires p' g ls)
    (h' : p'.Acquires p'' g ls') : p.Acquires p'' g (ls ++ ls') where
  parents_eq := h'.parents_eq.trans h.parents_eq
  packing_eq := h'.packing_eq.trans h.packing_eq
  shard_eq := h'.shard_eq.trans h.shard_eq
  nodup := by
    refine nodup_append.mpr ⟨h.nodup, h'.nodup, fun a ha b hb hq => ?_⟩
    subst hq
    have hz := h'.fresh a hb
    have hp := count_pos_iff.mpr ha
    have := h.use_eq a
    omega
  fresh := by
    intro l hl
    rcases mem_append.mp hl with hl | hl
    · exact h.fresh l hl
    · have hz := h'.fresh l hl
      have := h.use_eq l
      omega
  use_eq := by
    intro l
    rw [h'.use_eq, h.use_eq, count_append]
    omega
  bound := by
    intro l hl
    rcases mem_append.mp hl with hl | hl
    · exact ⟨h'.bound_keep _ _ (h.bound l hl).1, (h.bound l hl).2⟩
    · have := h'.bound l hl
      rwa [h.packing_eq] at this
  bound_keep := fun id x hx => h'.bound_keep id x (h.bound_keep id x hx)

theorem Placeable.acquires {l} (hl : p.Placeable g l) (h : p.Ok) :
    p.Acquires (p.setOccupied g l) g [l] where
  parents_eq := rfl
  packing_eq := rfl
  shard_eq := rfl
  nodup := nodup_singleton l
  fresh := by
    intro x hx
    rw [mem_singleton] at hx
    subst hx
    by_contra hn
    have := (h.use_pos x).mp (Nat.pos_of_ne_zero hn)
    rw [hl.not_occupied] at this
    cases this
  use_eq := by
    intro x
    by_cases hx : x = l
    · subst hx
      have : p.useCount x = 0 := by
        by_contra hn
        have := (h.use_pos x).mp (Nat.pos_of_ne_zero hn)
        rw [hl.not_occupied] at this
        cases this
      simp [setOccupied, this]
    · simp [setOccupied, hx, Ne.symm hx]
  bound := by
    intro x hx
    rw [mem_singleton] at hx
    subst hx
    have hm := hl.mem_parentIds h
    rw [parentIds, Finset.mem_Icc] at hm
    exact ⟨by rw [boundGroup_setOccupied, if_pos rfl], hl.slot_lt, hm.1⟩
  bound_keep := by
    intro id x hx
    rw [boundGroup_setOccupied]
    split
    · rename_i hd
      subst hd
      rcases hl.bound_or_next with hb | hh
      · rw [hb] at hx; exact hx
      · rw [(h.head_free hh).2.1] at hx; cases hx
    · exact hx

/-! ## Where the next block goes -/

theorem firstFreeSlot_some {id b s} (h : p.firstFreeSlot g id b = some s) :
    s < p.packing g ∧ (p.lcmBlocks id).occupancy s = false ∧ s % p.shardCount g = b := by
  have hm := mem_of_find?_eq_some h
  have hs := find?_some h
  simp only [Bool.and_eq_true, Bool.not_eq_true', beq_iff_eq] at hs
  exact ⟨mem_range.mp hm, hs.1, hs.2⟩

theorem freeSlotsIn_of_firstFreeSlot_none {id b} (h : p.firstFreeSlot g id b = none) : p.freeSlotsIn g id b = ∅ := by
  rw [firstFreeSlot, find?_eq_none] at h
  refine Finset.filter_eq_empty_iff.mpr fun s hs => ?_
  have := h s (mem_range.mpr (Finset.mem_range.mp hs))
  simpa using this

theorem bucketHead_some {b} {l : CacheBlockLocation} (h : p.bucketHead g b = some l) :
    p.Placeable g l ∧ p.boundGroup l.lcmBlockId = some g ∧ p.bucketOf g l = b := by
  unfold bucketHead at h
  dsimp only at h
  split at h
  · cases h
  · rename_i id hid
    obtain ⟨s, hs, rfl⟩ := Option.map_eq_some_iff.mp h
    have hm := argmax_mem hid
    simp only [mem_filter, Bool.and_eq_true, beq_iff_eq] at hm
    obtain ⟨hl, hf, hd⟩ := firstFreeSlot_some hs
    exact ⟨⟨hl, hf, .inl hm.2.1⟩, hm.2.1, hd⟩

theorem freeSlots_of_bucketHead_none {b} (h : p.bucketHead g b = none) : p.freeSlotsByBucket g b = 0 := by
  refine Finset.sum_eq_zero fun id hd => ?_
  split
  · rename_i hb
    rw [Finset.card_eq_zero]
    refine freeSlotsIn_of_firstFreeSlot_none ?_
    by_contra hs
    rw [← ne_eq, Option.ne_none_iff_isSome] at hs
    have hm : id ∈ (range' 1 p.numLcmBlocks).filter fun id =>
        p.boundGroup id == some g && (p.firstFreeSlot g id b).isSome := by
      rw [parentIds, Finset.mem_Icc] at hd
      simp only [mem_filter, mem_range'_1, Bool.and_eq_true, beq_iff_eq]
      exact ⟨⟨hd.1, by omega⟩, hb, hs⟩
    unfold bucketHead at h
    dsimp only at h
    split at h
    · rename_i hn
      rw [argmax_eq_none.mp hn] at hm
      cases hm
    · rename_i q hq
      have hq := argmax_mem hq
      simp only [mem_filter, Bool.and_eq_true] at hq
      rw [Option.map_eq_none_iff] at h
      rw [h] at hq
      simp at hq
  · rfl

theorem Ok.nextLocationInBucket_spec (h : p.Ok) {b} (hb : b < p.shardCount g)
    (hc : p.freeSlotsByBucket g b = 0 → p.freeParentIds ≠ []) :
    ∃ l, p.nextLocationInBucket g b = .ok l ∧ p.Placeable g l ∧ p.bucketOf g l = b ∧
      (p.boundGroup l.lcmBlockId = some g ∨
        p.freeParentIds.head? = some l.lcmBlockId ∧ p.freeSlotsByBucket g b = 0) := by
  unfold nextLocationInBucket
  cases hh : p.bucketHead g b with
  | some l =>
    obtain ⟨hl, hbo, hk⟩ := bucketHead_some hh
    exact ⟨l, rfl, hl, hk, .inl hbo⟩
  | none =>
    have hz := freeSlots_of_bucketHead_none hh
    cases hf : p.freeParentIds with
    | nil => exact absurd hf (hc hz)
    | cons id rest =>
      have ht : b < p.packing g := hb.trans_le (Nat.le_of_dvd (h.packing_pos g) (h.shard_dvd g))
      have hd : p.freeParentIds.head? = some id := by rw [hf]; rfl
      exact ⟨⟨id, b⟩, rfl, ⟨ht, (h.head_free hd).2.2.1 b, .inr hd⟩, Nat.mod_eq_of_lt hb, .inr ⟨rfl, hz⟩⟩

end TokenSpeed.BlockPool

namespace TokenSpeed

/-- The need after blocks of the buckets `buckets` are placed for group `g`. -/
def Need.takeBuckets (need : Need) (g : Nat) (buckets : List Nat) : Need :=
  { need with
    shape := Function.update need.shape g fun b => need.shape g b - buckets.count b }

section

variable (need : Need)

theorem Need.takeBuckets_nil (g) : need.takeBuckets g [] = need := by
  simp [takeBuckets]

theorem Need.takeBuckets_cons (g b bs) : (need.takeExact g b).takeBuckets g bs = need.takeBuckets g (b :: bs) := by
  unfold takeBuckets takeExact
  simp only [Function.update_self, Function.update_idem]
  congr 2
  funext x
  by_cases hx : x = b
  · subst hx; simp only [Function.update_self, List.count_cons_self]; omega
  · simp [hx, Ne.symm hx]

end

namespace BlockPool

variable {p : BlockPool} {g n : Nat} {need : Need}

theorem Fit.free_ne_nil_of_bucket (hf : p.Fit n need) (h : p.Ok) (hg : g < n) {b} (hb : b < p.shardCount g)
    (hn : 0 < need.shape g b) (hz : p.freeSlotsByBucket g b = 0) : p.freeParentIds ≠ [] := by
  have hp : 0 < p.parentsFor need g := by
    unfold parentsFor
    rw [h.packing_eq g]
    exact parentsNeeded_pos (h.shard_pos g) (h.perBucket_pos g) hb (by omega)
  exact List.ne_nil_of_length_pos (hp.trans_le ((le_sum_of_lt hg).trans hf))

/-- The outcome of an acquisition for group `g`: fresh blocks, a pool in order, the rest of the
need still fitting. -/
structure Acquired (p : BlockPool) (g n : Nat) (need : Need) (ls : List CacheBlockLocation)
    (p' : BlockPool) : Prop where
  ok : p'.Ok
  acquires : p.Acquires p' g ls
  fit : p'.Fit n need

theorem acquireInBuckets_spec (hg : g < n) : ∀ bcs {p need},
    p.Ok → p.Fit n need → (∀ b ∈ bcs, b < p.shardCount g) →
      (∀ b, bcs.count b ≤ need.shape g b) →
      ∃ ls p', acquireInBuckets g bcs p = .ok (ls, p') ∧
        p.Acquired g n (need.takeBuckets g bcs) ls p' ∧ ls.map (p.bucketOf g) = bcs
  | [], p, need, h, hf, _, _ =>
    ⟨[], p, rfl, ⟨h, .nil p g, by rwa [Need.takeBuckets_nil]⟩, rfl⟩
  | b :: bs, p, need, h, hf, hlt, hc => by
    have hb := hlt b List.mem_cons_self
    have hn : 0 < need.shape g b :=
      Nat.lt_of_lt_of_le (by rw [List.count_cons_self]; omega) (hc b)
    obtain ⟨l, hl, hp, hk, hbe⟩ := h.nextLocationInBucket_spec hb
      (hf.free_ne_nil_of_bucket h hg hb hn)
    have hok := hp.setOccupied_ok h
    subst hk
    have hf' := hp.fit_exact h hf hg hn hbe
    obtain ⟨ls, p', hq, ht, hm⟩ := acquireInBuckets_spec hg bs hok hf'
      (fun x hx => hlt x (List.mem_cons_of_mem _ hx)) fun x => by
        have := hc x
        simp only [Need.takeExact, Function.update_self]
        by_cases hx : x = p.bucketOf g l
        · subst hx; simp at this ⊢; omega
        · simp [Ne.symm hx] at this; simpa [hx] using this
    refine ⟨l :: ls, p', ?_, ⟨ht.ok, ?_, ?_⟩, ?_⟩
    · rw [acquireInBuckets, hl]
      simp only [bind, Except.bind, hp.createBlockRef_eq h, hq]
      rfl
    · exact (hp.acquires h).append ht.acquires
    · rw [← Need.takeBuckets_cons]; exact ht.fit
    · rw [List.map_cons]
      exact congrArg _ hm

end BlockPool

end TokenSpeed

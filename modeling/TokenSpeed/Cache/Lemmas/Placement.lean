import TokenSpeed.Cache.Lemmas.Pool

/-!
# Placing and releasing blocks

What one placement and one release do to a pool in order: the use counts, the holes of the group and
the empty parents.
-/

namespace TokenSpeed.BlockPool

open Function

variable {p p' : BlockPool}

/-! ## A change at one parent -/

variable {g id b : Nat}

theorem freeSlotsByBucket_change (p' : BlockPool) {q} (hq : q ∈ p.parentIds) (hn : p'.parentIds = p.parentIds)
    (hp : p'.packing = p.packing) (hs : p'.shardCount = p.shardCount) (hm : ∀ id ≠ q, p'.lcmBlocks id = p.lcmBlocks id)
    (g b) : p'.freeSlotsByBucket g b + p.parentFree g b q = p.freeSlotsByBucket g b + p'.parentFree g b q := by
  rw [freeSlotsByBucket_eq, freeSlotsByBucket_eq, hn]
  refine sum_change hq fun id hd => ?_
  unfold parentFree boundGroup freeSlotsIn slots
  rw [hm id hd, hp, hs]

theorem parentFree_of_ne (h : p.boundGroup id ≠ some g) : p.parentFree g b id = 0 :=
  if_neg h

variable {s : Nat}

theorem card_filter_mark {K B} (occ : Nat → Bool) (hs : s < K) (hf : occ s = false) :
    ((Finset.range K).filter fun x => !(update occ s true x) && x % B == b).card +
        (if s % B = b then 1 else 0) = ((Finset.range K).filter fun x => !(occ x) && x % B == b).card := by
  have hr : ((Finset.range K).filter fun x => !(update occ s true x) && x % B == b) =
      ((Finset.range K).filter fun x => !(occ x) && x % B == b).erase s := by
    ext x
    by_cases hx : x = s
    · subst hx; simp
    · simp [hx]
  rw [hr]
  split
  · rename_i hb
    refine Finset.card_erase_add_one ?_
    simp [hs, hf, hb]
  · rename_i hb
    rw [Finset.erase_eq_of_notMem]
    · rfl
    · simp [hb]

theorem lcmBlocks_setOccupied_self (g) (l : CacheBlockLocation) :
    (p.setOccupied g l).lcmBlocks l.lcmBlockId =
      { boundGroup := some g
        occupancy := update (p.lcmBlocks l.lcmBlockId).occupancy l.slotIndex true } := by
  simp [setOccupied]

variable {l : CacheBlockLocation}

theorem lcmBlocks_setOccupied_ne (h : id ≠ l.lcmBlockId) : (p.setOccupied g l).lcmBlocks id = p.lcmBlocks id := by
  simp [setOccupied, h]

section

variable (g : Nat) (l : CacheBlockLocation)

@[simp] theorem packing_setOccupied :
    (p.setOccupied g l).packing = p.packing := rfl

@[simp] theorem shardCount_setOccupied :
    (p.setOccupied g l).shardCount = p.shardCount := rfl

@[simp] theorem parentIds_setOccupied :
    (p.setOccupied g l).parentIds = p.parentIds := rfl

end

theorem boundGroup_setOccupied :
    (p.setOccupied g l).boundGroup id = if id = l.lcmBlockId then some g else p.boundGroup id := by
  unfold boundGroup
  split
  · rename_i h; subst h; rw [lcmBlocks_setOccupied_self]
  · rename_i h; rw [lcmBlocks_setOccupied_ne h]

theorem isOccupied_setOccupied {x} : (p.setOccupied g l).isOccupied x = if x = l then true else p.isOccupied x := by
  unfold isOccupied
  by_cases hd : x.lcmBlockId = l.lcmBlockId
  · rw [hd, lcmBlocks_setOccupied_self]
    by_cases hs : x.slotIndex = l.slotIndex
    · have : x = l := by cases x; cases l; simp_all
      simp [this]
    · have : x ≠ l := fun h => hs (by rw [h])
      simp [this, hs]
  · have : x ≠ l := fun h => hd (by rw [h])
    rw [lcmBlocks_setOccupied_ne hd, if_neg this]

structure Placeable (p : BlockPool) (g : Nat) (l : CacheBlockLocation) : Prop where
  slot_lt : l.slotIndex < p.packing g
  not_occupied : p.isOccupied l = false
  bound_or_next : p.boundGroup l.lcmBlockId = some g ∨
    p.freeParentIds.head? = some l.lcmBlockId

theorem Ok.head_free (h : p.Ok) (hh : p.freeParentIds.head? = some id) :
    id ∈ p.parentIds ∧ p.boundGroup id = none ∧ (∀ s, (p.lcmBlocks id).occupancy s = false) ∧
      p.freeParentIds = id :: p.freeParentIds.tail := by
  have hm := List.mem_of_mem_head? hh
  obtain ⟨h1, h2⟩ := (h.mem_free id).mp hm
  refine ⟨h1, h2, fun s => ?_, (List.cons_head?_tail hh).symm⟩
  by_contra hc
  rw [Bool.not_eq_false] at hc
  obtain ⟨g, hg, -⟩ := h.occupied_bound ⟨id, s⟩ hc
  rw [h2] at hg
  cases hg

theorem Placeable.mem_parentIds (hl : p.Placeable g l) (h : p.Ok) : l.lcmBlockId ∈ p.parentIds := by
  rcases hl.bound_or_next with hb | hh
  · exact h.bound_mem _ _ hb
  · exact (h.head_free hh).1

theorem freeParentIds_setOccupied :
    (p.setOccupied g l).freeParentIds =
      if (p.boundGroup l.lcmBlockId).isNone then p.freeParentIds.tail else p.freeParentIds := rfl

theorem eq_update_pred {f k : Nat → Nat} {x} (h : f b + (if x = b then 1 else 0) = k b) :
    f b = update k x (k x - 1) b := by
  by_cases hb : b = x
  · subst hb; rw [update_self]; rw [if_pos rfl] at h; omega
  · rw [update_of_ne hb]; rw [if_neg (Ne.symm hb)] at h; omega

section

variable (hl : p.Placeable g l)
include hl

theorem Placeable.setOccupied_ok (h : p.Ok) : (p.setOccupied g l).Ok where
  packing_pos := h.packing_pos
  shard_pos := h.shard_pos
  shard_dvd := h.shard_dvd
  free_nodup := by
    rw [freeParentIds_setOccupied]
    split
    · exact h.free_nodup.tail
    · exact h.free_nodup
  mem_free := by
    intro id
    rw [freeParentIds_setOccupied, boundGroup_setOccupied, parentIds_setOccupied]
    rcases hl.bound_or_next with hb | hh
    · rw [hb]
      by_cases hd : id = l.lcmBlockId
      · subst hd; simp [h.mem_free, hb]
      · simp [h.mem_free, hd]
    · obtain ⟨-, hn, -, hc⟩ := h.head_free hh
      rw [hn, Option.isNone_none, if_pos rfl]
      by_cases hd : id = l.lcmBlockId
      · subst hd
        have := h.free_nodup
        rw [hc, List.nodup_cons] at this
        simp [this.1]
      · rw [if_neg hd, ← h.mem_free, hc]
        simp [hd]
  bound_mem := by
    intro id g' hb
    rw [boundGroup_setOccupied] at hb
    rw [parentIds_setOccupied]
    split at hb
    · rename_i hd; subst hd; exact hl.mem_parentIds h
    · exact h.bound_mem id g' hb
  bound_occupied := by
    intro id g' hb
    rw [boundGroup_setOccupied] at hb
    split at hb
    · rename_i hd
      subst hd
      obtain rfl := Option.some.inj hb
      exact ⟨l.slotIndex, hl.slot_lt, by rw [lcmBlocks_setOccupied_self]; simp⟩
    · rename_i hd
      rw [lcmBlocks_setOccupied_ne hd]
      exact h.bound_occupied id g' hb
  occupied_bound := by
    intro x hx
    rw [isOccupied_setOccupied] at hx
    rw [boundGroup_setOccupied]
    split at hx
    · rename_i hq; subst hq; exact ⟨g, if_pos rfl, hl.slot_lt⟩
    · obtain ⟨g', hg', ht⟩ := h.occupied_bound x hx
      by_cases hd : x.lcmBlockId = l.lcmBlockId
      · -- An occupied parent is bound, so the placement went into a hole of its own group.
        rw [hd] at hg'
        rcases hl.bound_or_next with hb | hh
        · rw [hb] at hg'
          obtain rfl := Option.some.inj hg'
          exact ⟨g, if_pos hd, ht⟩
        · rw [(h.head_free hh).2.1] at hg'
          cases hg'
      · exact ⟨g', by rw [if_neg hd, hg'], ht⟩
  use_pos := by
    intro x
    rw [isOccupied_setOccupied]
    by_cases hx : x = l
    · subst hx; simp [setOccupied]
    · rw [if_neg hx, ← h.use_pos x]
      simp [setOccupied, hx]

theorem Placeable.createBlockRef_eq (h : p.Ok) : p.createBlockRef g l = .ok (p.setOccupied g l) := by
  have hs : decide (l.slotIndex < p.packing g) = true := decide_eq_true hl.slot_lt
  unfold createBlockRef
  rcases hl.bound_or_next with hb | hh
  · simp [hb, fatalCheck, hl.slot_lt, hl.not_occupied]
    rfl
  · simp [(h.head_free hh).2.1, hh, fatalCheck, hl.slot_lt, hl.not_occupied]
    rfl

/-! ## The need after a placement -/

theorem Placeable.freeSlots_other (h : p.Ok) {g'} (hn : g' ≠ g)
    (b) : (p.setOccupied g l).freeSlotsByBucket g' b = p.freeSlotsByBucket g' b := by
  have hc := freeSlotsByBucket_change (p.setOccupied g l) (hl.mem_parentIds h) rfl rfl rfl
    (fun id hd => lcmBlocks_setOccupied_ne hd) g' b
  have ht : (p.setOccupied g l).parentFree g' b l.lcmBlockId = 0 := by
    refine parentFree_of_ne ?_
    rw [boundGroup_setOccupied, if_pos rfl]
    exact fun hq => hn (Option.some.inj hq).symm
  have hf : p.parentFree g' b l.lcmBlockId = 0 := by
    refine parentFree_of_ne fun hq => ?_
    rcases hl.bound_or_next with hb | hh
    · rw [hb] at hq; exact hn (Option.some.inj hq).symm
    · rw [(h.head_free hh).2.1] at hq; cases hq
  omega

theorem Placeable.parentFree_after (b) :
    (p.setOccupied g l).parentFree g b l.lcmBlockId + (if p.bucketOf g l = b then 1 else 0) =
      (p.freeSlotsIn g l.lcmBlockId b).card := by
  rw [parentFree, boundGroup_setOccupied, if_pos rfl, if_pos rfl]
  unfold freeSlotsIn slots
  rw [lcmBlocks_setOccupied_self]
  exact card_filter_mark _ hl.slot_lt hl.not_occupied

theorem Placeable.freeSlots_hole (h : p.Ok) (hb : p.boundGroup l.lcmBlockId = some g) (b) :
    (p.setOccupied g l).freeSlotsByBucket g b + (if p.bucketOf g l = b then 1 else 0) =
      p.freeSlotsByBucket g b := by
  have hc := freeSlotsByBucket_change (p.setOccupied g l) (hl.mem_parentIds h) rfl rfl rfl
    (fun id hd => lcmBlocks_setOccupied_ne hd) g b
  have ht := hl.parentFree_after b
  have hf : p.parentFree g b l.lcmBlockId = (p.freeSlotsIn g l.lcmBlockId b).card := if_pos hb
  omega

theorem Placeable.freeSlots_next (h : p.Ok)
    (hh : p.freeParentIds.head? = some l.lcmBlockId) (hb : b < p.shardCount g) :
    (p.setOccupied g l).freeSlotsByBucket g b + (if p.bucketOf g l = b then 1 else 0) =
      p.freeSlotsByBucket g b + p.perBucket g := by
  obtain ⟨-, hn, hp, -⟩ := h.head_free hh
  have hch := freeSlotsByBucket_change (p.setOccupied g l) (hl.mem_parentIds h) rfl rfl rfl
    (fun id hd => lcmBlocks_setOccupied_ne hd) g b
  have ht := hl.parentFree_after b
  have hf : p.parentFree g b l.lcmBlockId = 0 :=
    parentFree_of_ne (by rw [hn]; exact fun hq => by cases hq)
  have hal : (p.freeSlotsIn g l.lcmBlockId b).card = p.perBucket g := by
    have hc := card_bucket (w := p.perBucket g) hb
    rw [← h.packing_eq g] at hc
    rw [← hc]
    congr 1
    refine Finset.filter_congr fun s _ => ?_
    rw [hp s]
    simp
  omega

theorem Placeable.freeSlots_hole_eq (h : p.Ok) (hb : p.boundGroup l.lcmBlockId = some g) (b) :
    (p.setOccupied g l).freeSlotsByBucket g b = update (p.freeSlotsByBucket g) (p.bucketOf g l)
        (p.freeSlotsByBucket g (p.bucketOf g l) - 1) b :=
  eq_update_pred (hl.freeSlots_hole h hb b)

theorem Placeable.freeSlots_next_eq (h : p.Ok)
    (hh : p.freeParentIds.head? = some l.lcmBlockId) (hb : b < p.shardCount g) :
    (p.setOccupied g l).freeSlotsByBucket g b =
      update (fun b => p.freeSlotsByBucket g b + p.perBucket g) (p.bucketOf g l)
        (p.freeSlotsByBucket g (p.bucketOf g l) + p.perBucket g - 1) b :=
  eq_update_pred (hl.freeSlots_next h hh hb)

end

end TokenSpeed.BlockPool

namespace TokenSpeed

open Function

/-- The need after one block of bucket `b` is placed for group `g`. -/
def Need.takeExact (need : Need) (g b : Nat) : Need :=
  { need with
    shape := update need.shape g (update (need.shape g) b (need.shape g b - 1)) }

namespace BlockPool

variable {p : BlockPool} {need : Need} {g n : Nat} {l : CacheBlockLocation}

variable {need' : Need}

theorem Placeable.parentsFor_other (hl : p.Placeable g l) (h : p.Ok) {i}
    (hn : i ≠ g) (hs : need'.shape i = need.shape i) (hd : need'.dense i = need.dense i) :
    (p.setOccupied g l).parentsFor need' i = p.parentsFor need i := by
  have : (p.setOccupied g l).freeSlotsByBucket i = p.freeSlotsByBucket i :=
    funext fun b => hl.freeSlots_other h hn b
  simp only [parentsFor, shardCount_setOccupied, packing_setOccupied, hs, hd, this]

theorem Placeable.fit_of_parentsFor (hl : p.Placeable g l) (h : p.Ok) (hf : p.Fit n need)
    (hg : g < n) (hs : ∀ i ≠ g, need'.shape i = need.shape i) (hd : ∀ i ≠ g, need'.dense i = need.dense i)
    (hw : (p.setOccupied g l).parentsFor need' g +
      (if (p.boundGroup l.lcmBlockId).isNone then 1 else 0) ≤ p.parentsFor need g) :
    (p.setOccupied g l).Fit n need' := by
  have hm := sum_change
    (k := (p.setOccupied g l).parentsFor need') (Finset.mem_range.mpr hg)
    fun i hi => hl.parentsFor_other h hi (hs i hi) (hd i hi)
  have hle := le_sum_of_lt (f := p.parentsFor need) hg
  unfold Fit at hf ⊢
  rw [freeParentIds_setOccupied]
  split
  · rename_i hn
    rw [if_pos hn] at hw
    rw [List.length_tail]
    omega
  · rename_i hn
    rw [if_neg hn] at hw
    omega

theorem Placeable.fit_exact (hl : p.Placeable g l) (h : p.Ok) (hf : p.Fit n need) (hg : g < n)
    (hn : 0 < need.shape g (p.bucketOf g l)) (hbe : p.boundGroup l.lcmBlockId = some g ∨
      p.freeParentIds.head? = some l.lcmBlockId ∧ p.freeSlotsByBucket g (p.bucketOf g l) = 0) :
    (p.setOccupied g l).Fit n (need.takeExact g (p.bucketOf g l)) := by
  have hk := h.bucketOf_lt g l
  have hB := h.shard_pos g
  have hw := h.perBucket_pos g
  refine hl.fit_of_parentsFor h hf hg (fun i hi => by simp [Need.takeExact, hi]) (fun _ _ => rfl) ?_
  simp only [parentsFor, Need.takeExact, update_self, shardCount_setOccupied,
    packing_setOccupied, h.packing_eq g]
  rcases hbe with hb | ⟨hh, hz⟩
  · have hon := hl.freeSlots_hole h hb (p.bucketOf g l)
    rw [if_pos rfl] at hon
    rw [hb, Option.isNone_some, if_neg (by simp), Nat.add_zero,
      ← parentsNeeded_place hB (need.shape g) (p.freeSlotsByBucket g) _ hk hn (by omega)]
    exact (parentsNeeded_congr hB (fun _ _ => rfl) fun b _ => hl.freeSlots_hole_eq h hb b).le
  · rw [(h.head_free hh).2.1, Option.isNone_none, if_pos rfl]
    have hs : 0 < parentsNeededForBuckets (p.shardCount g) (need.shape g) (p.freeSlotsByBucket g)
        (need.dense g) (p.shardCount g * p.perBucket g) :=
      parentsNeeded_pos hB hw hk (by omega)
    have hop := parentsNeeded_open hB hw (need.shape g) (p.freeSlotsByBucket g) (need.dense g)
    have hp := parentsNeeded_place (w := p.perBucket g) hB (need.shape g)
      (fun b => p.freeSlotsByBucket g b + p.perBucket g) (need.dense g) hk hn (by omega)
    rw [parentsNeeded_congr hB (fun _ _ => rfl) fun b hb => hl.freeSlots_next_eq h hh hb, hp]
    omega

end BlockPool

end TokenSpeed

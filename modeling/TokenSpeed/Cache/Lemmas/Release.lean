import TokenSpeed.Cache.Lemmas.Pool

/-!
# Retaining and dropping references

A reference more or less on a live block keeps the pool in order; the last one dropped frees the
slot, and the parent with it when nothing else is in it.
-/

namespace TokenSpeed.BlockPool

open Function Finset

variable {p : BlockPool} {l : CacheBlockLocation}

def setUse (p : BlockPool) (l : CacheBlockLocation) (k : Nat) : BlockPool :=
  { p with useCount := update p.useCount l k }

theorem Ok.setUse_ok (h : p.Ok) (hl : p.isOccupied l = true) {k} (hk : 0 < k) : (p.setUse l k).Ok :=
  { h with
    use_pos := by
      intro x
      by_cases hx : x = l
      · subst hx
        simp only [setUse, update_self]
        exact ⟨fun _ => hl, fun _ => hk⟩
      · simp only [setUse, update_of_ne hx]
        exact h.use_pos x }

theorem setUse_shrinks (p : BlockPool) (l) (k) :
    p.Shrinks (p.setUse l k) := { Shrinks.refl p with }

theorem Ok.retain_spec (h : p.Ok) (hl : 0 < p.useCount l) :
    p.retain l = .ok (p.setUse l (p.useCount l + 1)) ∧ (p.setUse l (p.useCount l + 1)).Ok := by
  refine ⟨?_, h.setUse_ok ((h.use_pos l).mp hl) (Nat.succ_pos _)⟩
  have : (p.useCount l != 0) = true := by simp; omega
  unfold retain
  rw [this]
  rfl

/-! ## Freeing a slot -/

def discard (p : BlockPool) (g : Nat) (l : CacheBlockLocation) : BlockPool :=
  (p.setUse l 0).setFree g l

theorem occupiedCount_setUse (g id k) :
    (p.setUse l k).occupiedCount g id = p.occupiedCount g id := rfl

theorem boundGroup_discard {g id} : (p.discard g l).boundGroup id =
      if id = l.lcmBlockId ∧ p.occupiedCount g l.lcmBlockId = 1 then none else p.boundGroup id := by
  unfold discard setFree boundGroup
  rw [occupiedCount_setUse]
  by_cases hd : id = l.lcmBlockId
  · split <;> simp_all [setUse]
  · split <;> simp_all [setUse]

theorem freeParentIds_discard {g} : (p.discard g l).freeParentIds =
      if p.occupiedCount g l.lcmBlockId = 1 then p.freeParentIds ++ [l.lcmBlockId] else p.freeParentIds := by
  unfold discard setFree
  rw [occupiedCount_setUse]
  split <;> rfl

theorem useCount_discard {g} (x) : (p.discard g l).useCount x = if x = l then 0 else p.useCount x := by
  unfold discard setFree
  by_cases hx : x = l
  · subst hx; split <;> simp [setUse]
  · split <;> simp [setUse, hx]

section

variable {g : Nat} (h : p.Ok) (hl : p.isOccupied l = true) (hb : p.boundGroup l.lcmBlockId = some g)
include h hl hb

theorem Ok.occupiedCount_pos : 0 < p.occupiedCount g l.lcmBlockId := by
  obtain ⟨g', hg', ht⟩ := h.occupied_bound l hl
  rw [hb] at hg'
  obtain rfl := Option.some.inj hg'
  refine card_pos.mpr ⟨l.slotIndex, ?_⟩
  exact mem_filter.mpr ⟨mem_range.mpr ht, hl⟩

theorem Ok.only_occupant (hn : p.occupiedCount g l.lcmBlockId = 1)
    {s} (hs : (p.lcmBlocks l.lcmBlockId).occupancy s = true) : s = l.slotIndex := by
  have hm : ∀ s, (p.lcmBlocks l.lcmBlockId).occupancy s = true →
      s ∈ (p.slots g).filter fun s => (p.lcmBlocks l.lcmBlockId).occupancy s := by
    intro s hs
    obtain ⟨g', hg', ht⟩ := h.occupied_bound ⟨l.lcmBlockId, s⟩ hs
    rw [hb] at hg'
    obtain rfl := Option.some.inj hg'
    exact mem_filter.mpr ⟨mem_range.mpr ht, hs⟩
  obtain ⟨x, hx⟩ := card_eq_one.mp hn
  have h1 := hm s hs
  have h2 := hm l.slotIndex hl
  rw [hx, mem_singleton] at h1 h2
  rw [h1, h2]

theorem Ok.other_occupant (hm : p.occupiedCount g l.lcmBlockId ≠ 1) :
    ∃ s < p.packing g, s ≠ l.slotIndex ∧ (p.lcmBlocks l.lcmBlockId).occupancy s = true := by
  have hp := h.occupiedCount_pos hl hb
  have ht : 1 < p.occupiedCount g l.lcmBlockId := by omega
  obtain ⟨a, ha, b, hb', hab⟩ := one_lt_card.mp ht
  rw [mem_filter] at ha hb'
  by_cases hal : a = l.slotIndex
  · exact ⟨b, mem_range.mp hb'.1, fun hbl => hab (hal.trans hbl.symm), hb'.2⟩
  · exact ⟨a, mem_range.mp ha.1, hal, ha.2⟩

theorem Ok.isOccupied_discard (x) : (p.discard g l).isOccupied x = if x = l then false else p.isOccupied x := by
  unfold discard setFree isOccupied
  rw [occupiedCount_setUse]
  by_cases hd : x.lcmBlockId = l.lcmBlockId
  · by_cases hn : p.occupiedCount g l.lcmBlockId = 1
    · rw [if_pos hn]
      simp only [setUse, hd, update_self]
      by_cases hx : x = l
      · rw [if_pos hx]
      · rw [if_neg hx]
        by_contra hoc
        have hoc : (p.lcmBlocks l.lcmBlockId).occupancy x.slotIndex = true := by
          cases hc : (p.lcmBlocks l.lcmBlockId).occupancy x.slotIndex with
          | true => rfl
          | false => exact absurd hc.symm hoc
        have hs := h.only_occupant hl hb hn hoc
        exact hx (by cases x; cases l; simp_all)
    · rw [if_neg hn]
      simp only [setUse, hd, update_self]
      by_cases hs : x.slotIndex = l.slotIndex
      · have hx : x = l := by cases x; cases l; simp_all
        rw [hs, update_self, if_pos hx]
      · have hx : x ≠ l := fun h => hs (by rw [h])
        rw [update_of_ne hs, if_neg hx]
  · have hx : x ≠ l := fun h => hd (by rw [h])
    rw [if_neg hx]
    split <;> simp [setUse, hd]

theorem Ok.discard_shrinks : p.Shrinks (p.discard g l) where
  parents_eq := by unfold discard setFree; split <;> rfl
  packing_eq := by unfold discard setFree; split <;> rfl
  shard_eq := by unfold discard setFree; split <;> rfl
  occupied_of := by
    intro x hx
    rw [h.isOccupied_discard hl hb] at hx
    split at hx
    · cases hx
    · exact hx
  bound_of := by
    intro id x hx
    rw [boundGroup_discard] at hx
    split at hx
    · cases hx
    · exact hx

theorem Ok.discard_ok : (p.discard g l).Ok := by
  have hs := h.discard_shrinks hl hb
  have his := hs.parentIds_eq
  exact
    { packing_pos := by rw [hs.packing_eq]; exact h.packing_pos
      shard_pos := by rw [hs.shard_eq]; exact h.shard_pos
      shard_dvd := by rw [hs.packing_eq, hs.shard_eq]; exact h.shard_dvd
      free_nodup := by
        rw [freeParentIds_discard]
        split
        · refine List.nodup_append.mpr ⟨h.free_nodup, List.nodup_singleton _, fun a ha b hb' hq => ?_⟩
          rw [List.mem_singleton] at hb'
          subst hq hb'
          rw [h.mem_free, hb] at ha
          cases ha.2
        · exact h.free_nodup
      mem_free := by
        intro id
        rw [freeParentIds_discard, boundGroup_discard, his]
        by_cases hn : p.occupiedCount g l.lcmBlockId = 1
        · rw [if_pos hn]
          by_cases hd : id = l.lcmBlockId
          · subst hd; simp [hn, h.bound_mem _ _ hb]
          · simp [hd, h.mem_free]
        · simp [hn, h.mem_free]
      bound_mem := by
        intro id x hx
        rw [his]
        exact h.bound_mem id x (hs.bound_of id x hx)
      bound_occupied := by
        intro id x hx
        have hbo := hs.bound_of id x hx
        have hoc : ∀ s, (p.discard g l).isOccupied ⟨id, s⟩ =
            if (⟨id, s⟩ : CacheBlockLocation) = l then false else p.isOccupied ⟨id, s⟩ :=
          fun s => h.isOccupied_discard hl hb _
        rw [boundGroup_discard] at hx
        rw [hs.packing_eq]
        by_cases hd : id = l.lcmBlockId
        · subst hd
          have hn : p.occupiedCount g l.lcmBlockId ≠ 1 := by
            intro hn
            rw [if_pos ⟨rfl, hn⟩] at hx
            cases hx
          rw [hb] at hbo
          obtain rfl := Option.some.inj hbo
          obtain ⟨s, ht, hne, hc⟩ := h.other_occupant hl hb hn
          refine ⟨s, ht, ?_⟩
          have := hoc s
          rw [if_neg (fun hq => hne (by rw [← hq]))] at this
          exact this.trans hc
        · obtain ⟨s, ht, hc⟩ := h.bound_occupied id x hbo
          refine ⟨s, ht, ?_⟩
          have := hoc s
          rw [if_neg (fun hq => hd (by rw [← hq]))] at this
          exact this.trans hc
      occupied_bound := by
        intro x hx
        rw [h.isOccupied_discard hl hb] at hx
        split at hx
        · cases hx
        · rename_i hne
          obtain ⟨y, hy, ht⟩ := h.occupied_bound x hx
          refine ⟨y, ?_, by rw [hs.packing_eq]; exact ht⟩
          rw [boundGroup_discard, if_neg, hy]
          rintro ⟨hd, hn⟩
          have hc : (p.lcmBlocks l.lcmBlockId).occupancy x.slotIndex = true := by rw [← hd]; exact hx
          have := h.only_occupant hl hb hn hc
          exact hne (by cases x; cases l; simp_all)
      use_pos := by
        intro x
        rw [useCount_discard, h.isOccupied_discard hl hb]
        split
        · simp
        · exact h.use_pos x }

end

theorem Ok.drop_spec (h : p.Ok) (hl : 0 < p.useCount l) : ∃ p', p.drop l = .ok p' ∧ p'.Ok ∧ p.Shrinks p' ∧
      ∀ x, p'.useCount x = p.useCount x - if x = l then 1 else 0 := by
  have hc := (h.use_pos l).mp hl
  have hne : (p.useCount l != 0) = true := by simp; omega
  unfold drop
  rw [hne]
  by_cases hn : p.useCount l = 1
  · obtain ⟨g, hb, ht⟩ := h.occupied_bound l hc
    have hm := h.bound_mem _ _ hb
    rw [parentIds, mem_Icc] at hm
    refine ⟨p.discard g l, ?_, h.discard_ok hc hb, h.discard_shrinks hc hb, fun x => ?_⟩
    · have hd : (decide (0 < l.lcmBlockId) && decide (l.lcmBlockId ≤ p.numLcmBlocks)) = true := by
        simp; omega
      have hs : decide (l.slotIndex < p.packing g) = true := decide_eq_true ht
      have hbo : (p.setUse l 0).boundGroup l.lcmBlockId = some g := hb
      have hoc : (p.setUse l 0).isOccupied l = true := hc
      have hr : (p.setUse l 0).release l = .ok (p.discard g l) := by
        unfold release
        rw [hbo]
        simp only [hoc]
        show (do fatalCheck (decide (0 < l.lcmBlockId) && decide (l.lcmBlockId ≤ p.numLcmBlocks)) _
                 fatalCheck (decide (l.slotIndex < p.packing g)) _
                 fatalCheck true _
                 pure ((p.setUse l 0).setFree g l)) = _
        rw [hd, hs]
        rfl
      simp only [hn]
      exact (if_pos (update_self _ _ _)).trans hr
    · rw [useCount_discard]
      split
      · rename_i hx; subst hx; omega
      · rfl
  · refine ⟨p.setUse l (p.useCount l - 1), ?_, h.setUse_ok hc (by omega),
      setUse_shrinks p l _, fun x => ?_⟩
    · refine if_neg ?_
      simp only [update_self]
      omega
    · by_cases hx : x = l
      · subst hx; simp [setUse]
      · simp [setUse, hx]

end TokenSpeed.BlockPool

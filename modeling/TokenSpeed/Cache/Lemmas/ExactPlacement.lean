import TokenSpeed.Cache.Lemmas.IndexedAcquire

/-!
# Bucket-exact placement

A placement of a list takes no more slots of a bucket than the group's holes and the empty parents have,
so the closed form refuses only what cannot be placed; and the calls of a list open what it counts.
-/

namespace TokenSpeed.Indexed

open List

variable {p : BlockPool} {g b : Nat}

/-! ## Counting a placement -/

/-- The slots of bucket `b` a placement may take in parent `id`. -/
def BlockPool.openSlots (p : BlockPool) (g b id : Nat) : Finset Nat :=
  if p.boundGroup id = some g then freeIn (p.lcmBlocks id).occupancy (p.bucketCount g) b
  else if id ∈ p.freeParentIds then (Finset.range (p.groups g).packing).filter fun s => s % p.bucketCount g == b
  else ∅

theorem RepOk.card_openSlots (h : RepOk p) (hg : g < p.numGroups) (hb : b < p.bucketCount g) (id) :
    (p.openSlots g b id).card = p.freeSlotsOf g b id +
      if id ∈ p.freeParentIds then (p.groups g).packing / p.bucketCount g else 0 := by
  unfold BlockPool.openSlots BlockPool.freeSlotsOf
  by_cases hbo : p.boundGroup id = some g
  · have hn : id ∉ p.freeParentIds := fun hin => by
      rw [h.mem_free, hbo] at hin
      cases hin.2
    rw [if_pos hbo, if_pos hbo, if_neg hn, add_zero]
  · rw [if_neg hbo, if_neg hbo, Nat.zero_add]
    split
    · obtain ⟨w, hw⟩ := h.buckets_dvd g hg (by omega)
      rw [hw, BlockPool.card_bucket hb, Nat.mul_div_cancel_left w (by omega)]
    · rfl

variable {buckets : List Nat} {bls : List CacheBlockLocation}

theorem Places.mem_openSlots (hp : Places p g buckets bls)
    (h : RepOk p) {l : CacheBlockLocation} (hl : l ∈ bls) (hs : l.slotIndex % p.bucketCount g = b) :
    l.lcmBlockId ∈ Finset.Icc 1 p.numLcmBlocks ∧ l.slotIndex ∈ p.openSlots g b l.lcmBlockId := by
  obtain ⟨ht, hf⟩ := hp.free l hl
  unfold BlockPool.openSlots
  rw [Finset.mem_Icc]
  by_cases hb : p.boundGroup l.lcmBlockId = some g
  · rw [if_pos hb, mem_freeIn]
    exact ⟨h.bound_mem _ g hb, by rw [(h.bound_ok _ g hb).1.size]; exact ht, hf, hs⟩
  · have hm := (hp.parents l hl).resolve_left hb
    rw [if_neg hb, if_pos hm, Finset.mem_filter, Finset.mem_range, beq_iff_eq]
    exact ⟨((h.mem_free _).mp hm).1, ht, hs⟩

theorem Places.count_le (hp : Places p g buckets bls) (h : RepOk p) (hg : g < p.numGroups) (hb : b < p.bucketCount g) :
    buckets.count b ≤ p.holes g b + p.freeParentIds.length * ((p.groups g).packing / p.bucketCount g) := by
  have hsu : (bls.filter fun l => l.slotIndex % p.bucketCount g == b).toFinset ⊆
      (Finset.Icc 1 p.numLcmBlocks).biUnion fun id => (p.openSlots g b id).image (CacheBlockLocation.mk id) := by
    intro l hl
    rw [mem_toFinset, mem_filter, beq_iff_eq] at hl
    obtain ⟨hd, hs⟩ := hp.mem_openSlots h hl.1 hl.2
    exact Finset.mem_biUnion.mpr ⟨_, hd, Finset.mem_image.mpr ⟨_, hs, rfl⟩⟩
  have hm : ((Finset.Icc 1 p.numLcmBlocks).filter (· ∈ p.freeParentIds)).card ≤ p.freeParentIds.length := by
    refine (Finset.card_le_card fun id hd => ?_).trans (toFinset_card_le _)
    exact mem_toFinset.mpr (Finset.mem_filter.mp hd).2
  calc buckets.count b
      = (bls.filter fun l => l.slotIndex % p.bucketCount g == b).toFinset.card := by
        rw [toFinset_card_of_nodup (hp.nodup.filter _), ← hp.buckets, count, countP_map, countP_eq_length_filter]
        rfl
    _ ≤ ∑ id ∈ Finset.Icc 1 p.numLcmBlocks, (p.openSlots g b id).card :=
        (Finset.card_le_card hsu).trans
        (Finset.card_biUnion_le.trans (Finset.sum_le_sum fun _ _ => Finset.card_image_le))
    _ = p.holes g b + ((Finset.Icc 1 p.numLcmBlocks).filter (· ∈ p.freeParentIds)).card *
          ((p.groups g).packing / p.bucketCount g) := by
        rw [Finset.sum_congr rfl fun id _ => h.card_openSlots hg hb id, Finset.sum_add_distrib, ← Finset.sum_filter,
          Finset.sum_const_nat fun _ _ => rfl, BlockPool.holes, h.holes g hg b hb]
    _ ≤ _ := Nat.add_le_add_left (Nat.mul_le_mul_right _ hm) _

/-! ## The call -/

variable {q : BlockPool}

theorem Registered.acquireBlocksInBuckets_eq (hr : Registered p q g) (hg : g < p.numGroups)
    (hq : p.prepareAvailability g (p.groups g).packing = .ok q) (hn : buckets ≠ [])
    (ht : ∀ b ∈ buckets, b < q.bucketCount g) :
    p.acquireBlocksInBuckets g (buckets.map Nat.cast) =
      if q.parentsToOpen g (fun b => buckets.count b) 0 > q.freeParentIds.length then .ok ([], q)
      else BlockPool.acquireInBuckets g (q.groups g).packing buckets q := by
  have hw : (buckets.map (Nat.cast : Nat → Int)).map Int.toNat = buckets := by
    rw [map_map]
    exact map_id'' (fun _ => Int.toNat_natCast _) _
  have hl : ((buckets.map (Nat.cast : Nat → Int)).all fun b => 0 ≤ b && b.toNat < (q.groups g).buckets) = true := by
    rw [all_map, all_eq_true]
    intro b hb
    simpa using show b < (q.groups g).buckets from ht b hb
  unfold BlockPool.acquireBlocksInBuckets
  rw [placement_bind hg, if_neg (by simpa using hn), hq]
  show q.acquirePrepared g _ = _
  unfold BlockPool.acquirePrepared
  rw [placement_bind (hr.groups ▸ hg), hl, hw]
  rfl

theorem Registered.acquireBlocksInBuckets_exact (hr : Registered p q g) (hg : g < p.numGroups)
    (hq : p.prepareAvailability g (p.groups g).packing = .ok q) (hB : 0 < q.bucketCount g)
    (hlt : ∀ b ∈ buckets, b < q.bucketCount g) :
    ∃ bls p', p.acquireBlocksInBuckets g (buckets.map Nat.cast) = .ok (bls, p') ∧
      (Places q g buckets bls ∧ (∀ l, p'.isOccupied l = true ↔ p.isOccupied l = true ∨ l ∈ bls) ∨
        bls = [] ∧ p' = q ∧ ¬∃ bls', Places q g buckets bls') := by
  by_cases hn : buckets = []
  · subst hn
    refine ⟨[], p, ?_, .inl ⟨.nil q g, fun l => ⟨.inl, fun hl => hl.resolve_right nofun⟩⟩⟩
    unfold BlockPool.acquireBlocksInBuckets
    rw [placement_bind hg]
    rfl
  have hg' : g < q.numGroups := hr.groups ▸ hg
  rw [hr.acquireBlocksInBuckets_eq hg hq hn hlt]
  split
  · rename_i hs
    refine ⟨[], q, rfl, .inr ⟨rfl, rfl, fun ⟨_, hp⟩ => not_le.mpr hs ?_⟩⟩
    obtain ⟨w, hw⟩ := hr.rep.buckets_dvd g hg' hB
    have hw' : 0 < w := Nat.pos_of_mul_pos_left (hw ▸ hr.rep.packing_pos g hg')
    unfold BlockPool.parentsToOpen
    rw [hw]
    refine parentsNeeded_le hB hw' fun b hb => ?_
    have ht := hp.count_le hr.rep hg' hb
    rwa [hw, Nat.mul_div_cancel_left w hB] at ht
  · rename_i hf
    obtain ⟨⟨bls, p'⟩, hc, hac, hp, -⟩ := (acquireInBuckets_returns buckets q _ hr.rep hg' hB rfl hlt
      (fun _ => le_rfl) (not_lt.mp hf)).exists
    exact ⟨bls, p', hc, .inl ⟨hp, (hr.acquired hac).occupied⟩⟩

/-! ## Sequences of calls -/

theorem exactCalls_returns {dense} : ∀ (exact : List (List Nat)) (p : BlockPool) (need : Nat → Nat), RepOk p →
    g < p.numGroups → 0 < p.bucketCount g → (∀ b ∈ exact.flatten, b < p.bucketCount g) →
    (∀ b, exact.flatten.count b ≤ need b) → p.parentsToOpen g need dense ≤ p.freeParentIds.length →
    Returns (calls (exact.map fun buckets => .acquireInBuckets g (buckets.map Nat.cast)) p) fun out =>
      out.1.map length = exact.map length ∧
        Opened p out.2 g need (fun b => need b - exact.flatten.count b) dense dense
  | [], p, need, h, _, _, _, _, _ => .pure ⟨rfl, .refl h ..⟩
  | buckets :: exact, p, need, h, hg, hB, hlt, ht, hf => by
    have ht' : ∀ b, buckets.count b + exact.flatten.count b ≤ need b := fun b => by
      have := ht b
      rwa [flatten_cons, count_append] at this
    have hc : Returns (call p (.acquireInBuckets g (buckets.map Nat.cast))) fun out =>
        out.1.length = buckets.length ∧ Opened p out.2 g need (fun b => need b - buckets.count b) dense dense := by
      by_cases hne : buckets = []
      · subst hne
        unfold call BlockPool.acquireBlocksInBuckets
        dsimp only
        rw [placement_bind hg]
        exact .pure ⟨rfl, .refl h ..⟩
      obtain ⟨q, hq, hre, -, hs, -⟩ := (h.prepareAvailability_returns hg).exists
      obtain rfl := hs hB
      have hlt' : ∀ b ∈ buckets, b < q.bucketCount g := fun b hb => hlt b (mem_append_left _ hb)
      unfold call
      dsimp only
      rw [hre.acquireBlocksInBuckets_eq hg hq hne hlt', if_neg]
      · refine (acquireInBuckets_returns buckets q need h hg hB rfl hlt' (fun b => ?_) hf).mono fun out hou =>
          ⟨?_, hou.2.2⟩
        · exact (Nat.le_add_right _ _).trans (ht' b)
        · rw [← hou.2.1.buckets, length_map]
      · obtain ⟨w, hw⟩ := h.buckets_dvd g hg hB
        unfold BlockPool.parentsToOpen at hf ⊢
        rw [hw] at hf ⊢
        refine Nat.not_lt.mpr (le_trans (parentsNeeded_mono hB (fun b _ => ?_) (fun _ _ => le_rfl) (Nat.zero_le _)) hf)
        exact (Nat.le_add_right _ _).trans (ht' b)
    refine hc.bind ?_
    rintro ⟨bls, p₁⟩ ⟨hn, hp⟩
    have hop := hp.opens
    dsimp only at hop
    refine (exactCalls_returns exact p₁ _ hp.rep (by rw [hp.same.groups]; exact hg)
      (by rw [hp.same.buckets]; exact hB) (fun b hb => ?_) (fun b => ?_)
      (by omega : p₁.parentsToOpen g (fun b => need b - buckets.count b) dense ≤ _)).bind ?_
    · rw [hp.same.buckets]
      exact hlt b (mem_append_right _ hb)
    · have := ht' b
      omega
    · rintro ⟨rest, p₂⟩ ⟨hl, hr⟩
      refine .pure ⟨congrArg₂ cons hn hl, ?_⟩
      convert hp.trans hr using 1
      funext b
      rw [flatten_cons, count_append, Nat.sub_sub]

theorem RepOk.le_capacity (h : RepOk p) (hg : g < p.numGroups) (hB : 0 < p.bucketCount g) {n}
    (hf : p.parentsToOpen g (fun _ => 0) n ≤ p.freeParentIds.length) : n ≤ p.capacity g := by
  have hp := h.packing_pos g hg
  obtain ⟨w, hw⟩ := h.buckets_dvd g hg hB
  rw [hw] at hp
  unfold BlockPool.parentsToOpen at hf
  rw [hw, parentsNeeded_dense hB (Nat.pos_of_mul_pos_left hp)] at hf
  have := (Nat.div_lt_iff_lt_mul hp).mp (Nat.lt_succ_of_le hf)
  rw [Nat.succ_mul] at this
  unfold BlockPool.capacity
  rw [hw]
  omega

theorem RepOk.parentsToOpen_none (h : RepOk p) (hg : g < p.numGroups) (hB : 0 < p.bucketCount g) :
    p.parentsToOpen g (fun _ => 0) 0 = 0 := by
  have hp := h.packing_pos g hg
  obtain ⟨w, hw⟩ := h.buckets_dvd g hg hB
  rw [hw] at hp
  unfold BlockPool.parentsToOpen
  rw [hw, parentsNeeded_dense hB (Nat.pos_of_mul_pos_left hp), Nat.zero_sub, Nat.zero_add]
  exact Nat.div_eq_of_lt (Nat.sub_lt hp Nat.one_pos)

theorem denseCalls_returns : ∀ (dn : List (Int × List Int)) (p : BlockPool), RepOk p → g < p.numGroups →
    0 < p.bucketCount g → (∀ c ∈ dn, BlockPool.checkLoads (p.groups g) c.2 = .ok ()) →
    p.parentsToOpen g (fun _ => 0) (dn.map fun c => c.1.toNat).sum ≤ p.freeParentIds.length →
    Returns (calls (dn.map fun c => .acquire g c.1 c.2) p) fun out =>
      out.1.map length = dn.map (fun c => c.1.toNat) ∧
        Opened p out.2 g (fun _ => 0) (fun _ => 0) (dn.map fun c => c.1.toNat).sum 0
  | [], p, h, _, _, _, _ => .pure ⟨rfl, .refl h ..⟩
  | (num, loads) :: dn, p, h, hg, hB, hlo, hf => by
    have hs : (((num, loads) :: dn).map fun c => c.1.toNat).sum = (dn.map fun c => c.1.toNat).sum + num.toNat := by
      rw [map_cons, sum_cons, add_comm]
    rw [hs] at hf ⊢
    have hca : Returns (call p (.acquire g num loads)) fun out => out.1.length = num.toNat ∧
        Opened p out.2 g (fun _ => 0) (fun _ => 0) ((dn.map fun c => c.1.toNat).sum + num.toNat)
          (dn.map fun c => c.1.toNat).sum := by
      have hl := hlo _ mem_cons_self
      have hr : num.toNat ≤ p.capacity g := (Nat.le_add_left _ _).trans (h.le_capacity hg hB hf)
      unfold call BlockPool.acquireBlocks BlockPool.availableBlocks
      dsimp only
      rw [placement_bind hg]
      split
      · rename_i hn
        rw [Int.toNat_eq_zero.mpr hn]
        exact .pure ⟨rfl, .refl h ..⟩
      · rw [hl, placement_bind hg, bind_assoc]
        refine .assert (beq_self_eq_true _) ?_
        rw [pure_bind, if_neg (by rw [← h.capacity_eq hg]; omega)]
        refine (h.acquireAvailableBlocks_returns hg ((p.checkLoads_safe g loads).of_ok hl) hr _).mono
          fun out ht => ht.2 hB
    refine hca.bind ?_
    rintro ⟨bls, p₁⟩ ⟨hle, hp⟩
    have hop := hp.opens
    dsimp only at hop
    refine (denseCalls_returns dn p₁ hp.rep (by rw [hp.same.groups]; exact hg)
      (by rw [hp.same.buckets]; exact hB) (fun c hc => ?_) (by omega)).bind ?_
    · have hb : (p₁.groups g).buckets = (p.groups g).buckets := hp.same.buckets g
      unfold BlockPool.checkLoads
      rw [hb]
      exact hlo c (mem_cons_of_mem _ hc)
    · rintro ⟨rest, p₂⟩ ⟨hln, hre⟩
      exact .pure ⟨congrArg₂ cons hle hln, hp.trans hre⟩

end TokenSpeed.Indexed

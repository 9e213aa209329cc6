import TokenSpeed.Cache.Lemmas.IndexedPool

/-!
# Placement and acquisition on the indexes

While the capacity lasts a bucket's set has a head or a parent is empty, so the loops take free slots only,
each once.
-/

namespace TokenSpeed.Indexed

open Function List Indexed.BlockPool

variable {p : BlockPool} {g b : Nat}

/-! ## Placement -/

theorem min_eq_top_or {s : Finset ParentOrder} : s.min = ⊤ ∧ s = ∅ ∨ ∃ x ∈ s, s.min = (x : WithTop ParentOrder) := by
  rcases s.eq_empty_or_nonempty with rfl | hn
  · exact .inl ⟨Finset.min_empty, rfl⟩
  · obtain ⟨x, hx⟩ := Finset.min_of_nonempty hn
    exact .inr ⟨x, Finset.mem_of_min hx, hx⟩

theorem RepOk.vacant_of_partial (h : RepOk p) {id} (hb : b < p.bucketCount g) (hp : p.Partial g b id) :
    Vacant p g ⟨id, (p.lcmBlocks id).firstFreeSlots.getD b 0⟩ ∧
      (p.lcmBlocks id).firstFreeSlots.getD b 0 % p.bucketCount g = b := by
  obtain ⟨hk, hs⟩ := h.bound_ok id g hp.1
  have hn : 1 < (p.groups g).packing := by
    by_contra hle
    -- A parent of one slot that is occupied has none free.
    have hle' := hk.count_le
    have hsi := hk.size
    exact hk.freeIn_full (by omega) hp.2
  have hl := (hk.first hn).2 b hb
  have hf := hl.free (hl.lt_iff.mpr hp.2)
  exact ⟨⟨by rw [← hk.size]; exact hf.1, hf.2.1, .inl hp.1⟩, hf.2.2⟩

theorem RepOk.bucketHead_cases (h : RepOk p) (hg : g < p.numGroups) (hb : b < p.bucketCount g) :
    (p.bucketHead (p.groups g) b = none ∧ p.holes g b = 0) ∨
      ∃ x v, p.bucketHead (p.groups g) b = some (x, v) ∧ Vacant p g ⟨(ofLex x).2, v⟩ ∧ v % p.bucketCount g = b ∧
        p.boundGroup (ofLex x).2 = some g := by
  unfold bucketHead
  rcases min_eq_top_or (s := (p.groups g).parentsByBucket.getD b ∅) with ⟨ht, hem⟩ | ⟨x, hx, hn⟩
  · rw [ht]
    refine .inl ⟨rfl, ?_⟩
    rw [BlockPool.holes, h.holes g hg b hb]
    refine Finset.sum_eq_zero fun id _ => ?_
    unfold freeSlotsOf
    split
    · rename_i hbo
      rw [Finset.card_eq_zero]
      by_contra hne
      have hm := (h.index g hg b hb _).mpr ⟨id, ⟨hbo, Finset.nonempty_iff_ne_empty.mpr hne⟩, rfl⟩
      rw [hem] at hm
      exact Finset.notMem_empty _ hm
    · rfl
  · rw [hn]
    obtain ⟨id, hp, rfl⟩ := (h.index g hg b hb x).mp hx
    obtain ⟨hv, hr⟩ := h.vacant_of_partial hb hp
    exact .inr ⟨_, _, rfl, hv, hr, hp.1⟩

theorem RepOk.nextEmpty_returns (h : RepOk p) (hb : b < (p.groups g).packing) (hf : p.freeParentIds ≠ [])
    (ms) : Returns (p.nextEmpty b ms) fun l => Vacant p g l ∧ l.slotIndex = b := by
  unfold nextEmpty
  cases hs : p.freeParentIds with
  | nil => exact absurd hs hf
  | cons id rest =>
    have hn := ((h.mem_free id).mp (hs ▸ mem_cons_self)).2
    exact .pure ⟨⟨hb, h.unbound_slots hn b, .inr (by rw [hs]; rfl)⟩, rfl⟩

theorem RepOk.bucket_lt (h : RepOk p) (hg : g < p.numGroups) (hb : b < p.bucketCount g) : b < (p.groups g).packing :=
  lt_of_lt_of_le hb (Nat.le_of_dvd (h.packing_pos g hg) (h.buckets_dvd g hg (by omega)))

theorem RepOk.nextLocationInBucket_returns (h : RepOk p) (hg : g < p.numGroups) (hb : b < p.bucketCount g)
    (hr : 0 < p.holes g b ∨ p.freeParentIds ≠ []) :
    Returns (p.nextLocationInBucket (p.groups g) b) fun l => Vacant p g l ∧ l.slotIndex % p.bucketCount g = b ∧
      (p.boundGroup l.lcmBlockId = some g ∨ p.holes g b = 0) := by
  unfold nextLocationInBucket
  rcases h.bucketHead_cases hg hb with ⟨hn, hz⟩ | ⟨x, v, hs, hv, hre, hbo⟩
  · rw [hn]
    refine (h.nextEmpty_returns (h.bucket_lt hg hb) (hr.resolve_left (by omega)) _).mono ?_
    rintro l ⟨hv, ht⟩
    exact ⟨hv, by rw [ht]; exact Nat.mod_eq_of_lt hb, .inr hz⟩
  · rw [hs]
    exact .pure ⟨hv, hre, .inl hbo⟩

def BlockPool.capacity (p : BlockPool) (g : Nat) : Nat :=
  ∑ b ∈ Finset.range (p.bucketCount g), p.holes g b + p.freeParentIds.length * (p.groups g).packing

theorem sum_getD (l : List Nat) : ∑ b ∈ Finset.range l.length, l.getD b 0 = l.sum := by
  induction l with
  | nil => rfl
  | cons a l ih =>
    rw [length_cons, Finset.sum_range_succ', sum_cons, ← ih, add_comm]
    rfl

theorem RepOk.capacity_eq (h : RepOk p) (hg : g < p.numGroups) :
    p.capacity g = (p.groups g).freeSlots + p.freeParentIds.length * (p.groups g).packing := by
  unfold capacity GroupAvailability.freeSlots BlockPool.holes
  rw [← h.lengths g hg, sum_getD]

theorem leastLoaded_lt {loads : List Int} (hn : loads ≠ []) : leastLoaded loads < loads.length := by
  unfold leastLoaded
  cases hm : loads.min? with
  | none =>
    exact absurd (min?_eq_none_iff.mp hm) hn
  | some ld =>
    exact idxOf_lt_length_of_mem (min?_mem hm)

theorem RepOk.nextLocation_returns (h : RepOk p) (hg : g < p.numGroups) {loads : List Int}
    (hlo : loads = [] ∨ loads.length = p.bucketCount g) (hr : 0 < p.capacity g) :
    Returns (p.nextLocation (p.groups g) loads) fun l => Vacant p g l ∧
      (p.boundGroup l.lcmBlockId = some g ∨ ∀ b ∈ Finset.range (p.bucketCount g), p.holes g b = 0) := by
  unfold nextLocation
  dsimp only
  split
  · rename_i entry harg
    obtain ⟨b, hb, hh⟩ := mem_filterMap.mp (argmin_mem harg)
    obtain ⟨head, hh, rfl⟩ := Option.map_eq_some_iff.mp hh
    rcases h.bucketHead_cases hg (mem_range.mp hb) with ⟨hn, -⟩ | ⟨x, v, hs, hv, -, hbo⟩
    · rw [hn] at hh
      cases hh
    · rw [hs] at hh
      cases hh
      exact .pure ⟨hv, .inl hbo⟩
  · rename_i harg
    have hd := argmin_eq_none.mp harg
    have hz : ∀ b ∈ Finset.range (p.bucketCount g), p.holes g b = 0 := by
      intro b hb
      rw [Finset.mem_range] at hb
      rcases h.bucketHead_cases hg hb with ⟨-, hz⟩ | ⟨x, v, hs, -⟩
      · exact hz
      · have := filterMap_eq_nil_iff.mp hd b (mem_range.mpr hb)
        rw [hs] at this
        cases this
    have hf : p.freeParentIds ≠ [] := by
      intro hni
      unfold capacity at hr
      rw [Finset.sum_eq_zero hz, hni, length_nil, zero_mul] at hr
      omega
    refine (h.nextEmpty_returns ?_ hf _).mono fun l hl => ⟨hl.1, .inr hz⟩
    split
    · exact h.packing_pos g hg
    · rename_i hne
      have hne' : loads ≠ [] := fun hni => hne (by rw [hni]; rfl)
      have ht := leastLoaded_lt hne'
      rw [hlo.resolve_left hne'] at ht
      exact h.bucket_lt hg ht

/-! ## Acquisition -/

structure Acquired (p p' : BlockPool) (blocks : List CacheBlockLocation) : Prop where
  rep : RepOk p'
  groups : p'.numGroups = p.numGroups
  nodup : blocks.Nodup
  fresh : ∀ l ∈ blocks, p.isOccupied l = false
  occupied : ∀ l, p'.isOccupied l = true ↔ p.isOccupied l = true ∨ l ∈ blocks

theorem Acquired.nil (h : RepOk p) : Acquired p p [] :=
  ⟨h, rfl, nodup_nil, nofun, fun _ => ⟨.inl, fun hl => hl.resolve_right nofun⟩⟩

variable {p₁ p₂ : BlockPool} {l : CacheBlockLocation}

theorem Acquired.cons {rest}
    (hl : Vacant p g l) (h : Occupied p p₁ g l) (hr : Acquired p₁ p₂ rest) : Acquired p p₂ (l :: rest) where
  rep := hr.rep
  groups := hr.groups.trans h.same.groups
  nodup := by
    refine nodup_cons.mpr ⟨fun hm => ?_, hr.nodup⟩
    have hf := hr.fresh l hm
    rw [(h.occupied l).mpr (.inr rfl)] at hf
    cases hf
  fresh := by
    intro l' hl'
    rcases mem_cons.mp hl' with rfl | hm
    · exact hl.free
    · have hf := hr.fresh l' hm
      rw [Bool.eq_false_iff] at hf ⊢
      exact fun hc => hf ((h.occupied l').mpr (.inl hc))
  occupied := by
    intro l'
    rw [hr.occupied, h.occupied, mem_cons, or_assoc]

theorem SameShape.trans (h : SameShape p p₁) (h' : SameShape p₁ p₂) : SameShape p p₂ :=
  ⟨h'.blocks.trans h.blocks, h'.groups.trans h.groups, fun g => (h'.packing g).trans (h.packing g),
    fun g => (h'.buckets g).trans (h.buckets g)⟩

theorem Places.nil (p g) : Places p g [] [] := ⟨rfl, nodup_nil, nofun, nofun⟩

theorem Places.cons {buckets rest}
    (h : RepOk p) (hl : Vacant p g l) (hf : Filled p p₁ g l) (hs : l.slotIndex % p.bucketCount g = b)
    (hq : Acquired p p₂ (l :: rest)) (hr : Places p₁ g buckets rest) : Places p g (b :: buckets) (l :: rest) where
  buckets := by
    rw [map_cons, hs, ← hr.buckets, hf.same.buckets]
  nodup := hq.nodup
  free := by
    refine fun l' hl' => ⟨?_, hq.fresh l' hl'⟩
    rcases mem_cons.mp hl' with rfl | hm
    · exact hl.slot_lt
    · rw [← hf.same.packing]
      exact (hr.free l' hm).1
  parents := by
    intro l' hl'
    by_cases hd : l'.lcmBlockId = l.lcmBlockId
    · rw [hd]
      exact hl.parent.imp_right mem_of_mem_head?
    · rcases mem_cons.mp hl' with rfl | hm
      · exact absurd rfl hd
      · have hp := hr.parents l' hm
        rw [hf.rep.mem_free, hf.others _ hd, hf.same.blocks, ← h.mem_free] at hp
        exact hp

theorem Registered.acquired {bls} (h : Registered p p₁ g)
    (hb : Acquired p₁ p₂ bls) : Acquired p p₂ bls where
  rep := hb.rep
  groups := hb.groups.trans h.groups
  nodup := hb.nodup
  fresh := fun l hl => h.occupied ▸ hb.fresh l hl
  occupied := fun l => h.occupied ▸ hb.occupied l

variable {p' : BlockPool}

theorem Occupied.sum_holes (h : Occupied p p' g l)
    (hB : 0 < p.bucketCount g) (hd : p.bucketCount g ∣ (p.groups g).packing) :
    ∃ o ≤ 1, p.freeParentIds.length = p'.freeParentIds.length + o ∧
      ∑ b ∈ Finset.range (p.bucketCount g), p'.holes g b + 1 =
        ∑ b ∈ Finset.range (p.bucketCount g), p.holes g b + o * (p.groups g).packing := by
  obtain ⟨o, hle, hf, hh⟩ := h.opened
  have hn : ∑ b ∈ Finset.range (p.bucketCount g), (if l.slotIndex % p.bucketCount g = b then 1 else 0) = 1 := by
    rw [Finset.sum_ite_eq, if_pos (Finset.mem_range.mpr (Nat.mod_lt _ hB))]
  have hp : ∑ _b ∈ Finset.range (p.bucketCount g), o * ((p.groups g).packing / p.bucketCount g) =
      o * (p.groups g).packing := by
    rw [Finset.sum_const_nat fun _ _ => rfl, Finset.card_range, Nat.mul_left_comm, Nat.mul_div_cancel' hd]
  have hl := Finset.sum_congr (Eq.refl (Finset.range (p.bucketCount g)))
    fun b hb => hh b (Finset.mem_range.mp hb)
  rw [Finset.sum_add_distrib, Finset.sum_add_distrib, hn, hp] at hl
  exact ⟨o, hle, hf, hl⟩

theorem Occupied.capacity (h : Occupied p p' g l) (hB : 0 < p.bucketCount g)
    (hd : p.bucketCount g ∣ (p.groups g).packing) : p'.capacity g + 1 = p.capacity g := by
  obtain ⟨o, -, hf, hs⟩ := h.sum_holes hB hd
  unfold BlockPool.capacity
  rw [h.same.buckets, h.same.packing, hf, add_mul]
  omega

/-- The pool after acquisitions that brought the demand down and opened as many parents as it needs fewer. -/
structure Opened (p p' : BlockPool) (g : Nat) (need need' : Nat → Nat) (dense dense' : Nat) : Prop where
  rep : RepOk p'
  same : SameShape p p'
  opens : p'.parentsToOpen g need' dense' + p.freeParentIds.length =
    p.parentsToOpen g need dense + p'.freeParentIds.length

theorem Opened.refl (h : RepOk p) (g) (nd : Nat → Nat) (dense) : Opened p p g nd nd dense dense :=
  ⟨h, ⟨rfl, rfl, fun _ => rfl, fun _ => rfl⟩, rfl⟩

theorem Opened.trans {nd n1 n2 : Nat → Nat} {d d1 d2}
    (h : Opened p p₁ g nd n1 d d1) (h' : Opened p₁ p₂ g n1 n2 d1 d2) : Opened p p₂ g nd n2 d d2 := by
  refine ⟨h'.rep, h.same.trans h'.same, ?_⟩
  have := h.opens
  have := h'.opens
  omega

theorem placement_bind (hg : g < p.numGroups) {β : Type} (f : GroupAvailability → Result β) :
    p.placement g >>= f = f (p.groups g) := by
  unfold placement
  rw [decide_eq_true hg]
  rfl

theorem Filled.parentsToOpen_dense (h : Filled p p' g l)
    (hB : 0 < p.bucketCount g) (hp : 0 < (p.groups g).packing) (hd : p.bucketCount g ∣ (p.groups g).packing)
    (hbe : p.boundGroup l.lcmBlockId = some g ∨ ∀ b ∈ Finset.range (p.bucketCount g), p.holes g b = 0) (d) :
    Opened p p' g (fun _ => 0) (fun _ => 0) (d + 1) d := by
  refine ⟨h.rep, h.same, ?_⟩
  obtain ⟨o, hl, hf, hs⟩ := h.sum_holes hB hd
  obtain ⟨w, hw⟩ := hd
  have hw' : 0 < w := Nat.pos_of_mul_pos_left (hw ▸ hp)
  unfold parentsToOpen
  rw [h.same.buckets, h.same.packing, hw, parentsNeeded_dense hB hw', parentsNeeded_dense hB hw']
  rcases Nat.le_one_iff_eq_zero_or_eq_one.mp hl with rfl | rfl
  · rw [hf, add_zero]
    congr 4
    omega
  · have hz := hbe.resolve_left fun hb => by
      have := h.keeps hb
      omega
    rw [Finset.sum_eq_zero hz] at hs ⊢
    have hc := ceilDiv_sub (Nat.mul_pos hB hw') (d + 1)
    have hn := ceilDiv_pos (Nat.mul_pos hB hw') (show 0 < d + 1 by omega)
    rw [show d + 1 - p.bucketCount g * w = d - ∑ b ∈ Finset.range (p.bucketCount g), p'.holes g b by omega] at hc
    rw [hc, Nat.sub_zero]
    omega

theorem acquireLoop_returns {pc} : ∀ n d p loads, RepOk p →
    g < p.numGroups → 0 < p.bucketCount g → pc = (p.groups g).packing →
    (loads = [] ∨ loads.length = p.bucketCount g) → n ≤ p.capacity g →
    Returns (acquireLoop g pc n p loads) fun out => Acquired p out.2 out.1 ∧
      out.1.length = n ∧ Opened p out.2 g (fun _ => 0) (fun _ => 0) (d + n) d
  | 0, _, p, _, h, _, _, _, _, _ => .pure ⟨.nil h, rfl, .refl h ..⟩
  | n + 1, d, p, loads, h, hg, hB, hp, hlo, hr => by
    unfold acquireLoop
    rw [placement_bind hg]
    refine ((h.nextLocation_returns hg hlo (by omega)).bind ?_)
    rintro l ⟨hl, hb⟩
    rw [hp]
    refine (h.occupy_returns hg hB hl).bind fun p₁ hf => ?_
    have hd := h.buckets_dvd g hg hB
    have hc := hf.capacity hB hd
    have hn := hf.parentsToOpen_dense hB (h.packing_pos g hg) hd hb (d + n)
    refine (acquireLoop_returns n d p₁ _ hf.rep (by rw [hf.same.groups]; exact hg)
      (by rw [hf.same.buckets]; exact hB) (hf.same.packing g).symm ?_ (by omega)).bind ?_
    · rw [hf.same.buckets, length_set]
      exact hlo.imp_left fun hni => by rw [hni]; rfl
    · rintro ⟨rest, p₂⟩ ⟨ht, hle, hn'⟩
      exact .pure ⟨.cons hl hf.toOccupied ht, congrArg (· + 1) hle, hn.trans hn'⟩

theorem Filled.parentsToOpen {nd : Nat → Nat} (h : Filled p p' g l)
    (hB : 0 < p.bucketCount g) (hp : 0 < (p.groups g).packing) (hd : p.bucketCount g ∣ (p.groups g).packing)
    (hb : b < p.bucketCount g) (hs : l.slotIndex % p.bucketCount g = b) (hn : 0 < nd b)
    (hbe : p.boundGroup l.lcmBlockId = some g ∨ p.holes g b = 0) (dense) :
    Opened p p' g nd (update nd b (nd b - 1)) dense dense := by
  refine ⟨h.rep, h.same, ?_⟩
  obtain ⟨o, hl, hf, hh⟩ := h.opened
  obtain ⟨w, hw⟩ := hd
  have hw' : 0 < w := Nat.pos_of_mul_pos_left (hw ▸ hp)
  rw [hw, Nat.mul_div_cancel_left w hB] at hh
  unfold BlockPool.parentsToOpen
  rw [h.same.buckets, h.same.packing, hw]
  -- The demand with the parent opened, before the block is placed.
  have ht : parentsNeededForBuckets (p.bucketCount g) nd (fun x => p.holes g x + o * w) dense
      (p.bucketCount g * w) + o =
        parentsNeededForBuckets (p.bucketCount g) nd (p.holes g) dense (p.bucketCount g * w) := by
    rcases Nat.le_one_iff_eq_zero_or_eq_one.mp hl with rfl | rfl
    · simp only [zero_mul, add_zero]
    · have hz := hbe.resolve_left fun hbo => by
        have := h.keeps hbo
        omega
      simp only [one_mul]
      rw [parentsNeeded_open hB hw', Nat.sub_add_cancel]
      exact parentsNeeded_pos hB hw' hb (by omega)
  have hho : 0 < p.holes g b + o * w := by
    have := hh b hb
    rw [if_pos hs] at this
    omega
  have hc := parentsNeeded_place hB (w := w) nd (fun x => p.holes g x + o * w) dense hb hn hho
  have hh' : ∀ x < p.bucketCount g, p'.holes g x =
      update (fun x => p.holes g x + o * w) b (p.holes g b + o * w - 1) x := by
    intro x hx
    have := hh x hx
    rw [hs] at this
    by_cases hxb : x = b
    · subst hxb
      rw [if_pos rfl] at this
      rw [update_self]
      omega
    · rw [if_neg (Ne.symm hxb)] at this
      rw [update_of_ne hxb]
      exact this
  rw [parentsNeeded_congr hB (fun _ _ => rfl) hh', hc]
  omega

theorem acquireInBuckets_returns {pc dense} : ∀ (bcs : List Nat) (p : BlockPool) (nd : Nat → Nat),
    RepOk p → g < p.numGroups → 0 < p.bucketCount g → pc = (p.groups g).packing →
    (∀ b ∈ bcs, b < p.bucketCount g) → (∀ b, bcs.count b ≤ nd b) →
    p.parentsToOpen g nd dense ≤ p.freeParentIds.length →
    Returns (acquireInBuckets g pc bcs p) fun out => Acquired p out.2 out.1 ∧
      Places p g bcs out.1 ∧ Opened p out.2 g nd (fun b => nd b - bcs.count b) dense dense
  | [], p, nd, h, _, _, _, _, _, _ => .pure ⟨.nil h, .nil p g, .refl h ..⟩
  | b :: bcs, p, nd, h, hg, hB, hpa, hin, hc, hf => by
    unfold acquireInBuckets
    have hb := hin b mem_cons_self
    have hpo := h.packing_pos g hg
    have hd := h.buckets_dvd g hg hB
    have hn : 0 < nd b := Nat.lt_of_lt_of_le (count_pos_iff.mpr mem_cons_self) (hc b)
    have hr : 0 < p.holes g b ∨ p.freeParentIds ≠ [] := by
      by_contra hno
      rw [not_or, not_lt, Nat.le_zero, not_not] at hno
      obtain ⟨w, hw⟩ := hd
      have hop : 0 < p.parentsToOpen g nd dense := by
        unfold parentsToOpen
        rw [hw]
        exact parentsNeeded_pos hB (Nat.pos_of_mul_pos_left (hw ▸ hpo)) hb (hno.1 ▸ hn)
      rw [hno.2, length_nil] at hf
      omega
    rw [placement_bind hg]
    refine ((h.nextLocationInBucket_returns hg hb hr).bind ?_)
    rintro l ⟨hl, hs, hbe⟩
    rw [hpa]
    refine (h.occupy_returns hg hB hl).bind fun p₁ hfi => ?_
    have hon := hfi.parentsToOpen hB hpo hd hb hs hn hbe dense
    have hf' := hon.opens
    refine (acquireInBuckets_returns bcs p₁ _ hfi.rep (by rw [hfi.same.groups]; exact hg)
      (by rw [hfi.same.buckets]; exact hB) (hfi.same.packing g).symm
      (fun x hx => by rw [hfi.same.buckets]; exact hin x (mem_cons_of_mem _ hx)) (fun x => ?_)
      (by omega : p₁.parentsToOpen g (update nd b (nd b - 1)) dense ≤ _)).bind ?_
    · have := hc x
      by_cases hx : x = b
      · subst hx
        rw [count_cons_self] at this
        rw [update_self]
        omega
      · rwa [update_of_ne hx, ← count_cons_of_ne (Ne.symm hx)]
    · rintro ⟨rest, p₂⟩ ⟨ht, hp, hon'⟩
      have hq := Acquired.cons hl hfi.toOccupied ht
      refine .pure ⟨hq, .cons h hl hfi hs hq hp, ?_⟩
      convert hon.trans hon' using 1
      funext x
      by_cases hx : x = b
      · subst hx
        rw [update_self, count_cons_self]
        omega
      · rw [update_of_ne hx, count_cons_of_ne (Ne.symm hx)]

/-! ## The calls -/

theorem RepOk.registerGroup_safe (h : RepOk p) (hg : g < p.numGroups) (pc sc) :
    Safe (p.registerGroup g pc sc) fun p' => Registered p p' g := by
  unfold registerGroup
  rw [placement_bind hg]
  refine .assert fun hge => .assert fun hp => ?_
  rw [Bool.and_eq_true, beq_iff_eq] at hge
  rw [beq_iff_eq] at hp
  have hd : sc ∣ (p.groups g).packing := by
    rw [hp]
    exact Nat.dvd_of_mod_eq_zero hge.2
  split
  · rename_i hz
    exact .pure (h.register hg hz hd)
  · exact .assert fun _ => .pure (.refl h g)

theorem RepOk.prepareAvailability_returns (h : RepOk p) (hg : g < p.numGroups) :
    Returns (p.prepareAvailability g (p.groups g).packing) fun q => Registered p q g ∧ 0 < q.bucketCount g ∧
      (0 < p.bucketCount g → q = p) ∧ (p.bucketCount g = 0 → q.bucketCount g = 1) := by
  unfold prepareAvailability availableBlocks
  rw [placement_bind hg, placement_bind hg, bind_assoc]
  refine .assert (beq_self_eq_true _) ?_
  rw [pure_bind]
  split
  · rename_i hz
    unfold registerGroup
    rw [placement_bind hg]
    refine .assert ?_ (.assert (beq_self_eq_true _) ?_)
    · simp [h.packing_pos g hg, Nat.mod_one]
    · rw [if_pos hz]
      have hn : (p.setGroup g { p.groups g with
          parentsByBucket := replicate 1 ∅
          freeSlotsByBucket := replicate 1 0 }).bucketCount g = 1 := by
        unfold bucketCount setGroup GroupAvailability.buckets
        dsimp only
        rw [update_self, length_replicate]
      exact .pure ⟨h.register hg hz (one_dvd _), lt_of_lt_of_eq one_pos hn.symm,
        fun hp => absurd hz (ne_of_gt hp), fun _ => hn⟩
  · rename_i hp
    exact .pure ⟨.refl h g, pos_of_ne_zero hp, fun _ => rfl, fun hz => absurd hz hp⟩

theorem Registered.capacity (h : Registered p p' g) (hr : RepOk p) (hg : g < p.numGroups) :
    p'.capacity g = p.capacity g := by
  rw [h.rep.capacity_eq (by rw [h.groups]; exact hg), hr.capacity_eq hg, h.slots, h.free, h.packing]

def BlockPool.LoadsFit (p : BlockPool) (g : Nat) (bucketLoads : List Int) : Prop :=
  1 < bucketLoads.length → bucketLoads.length = p.bucketCount g

theorem RepOk.acquireAvailableBlocks_returns (h : RepOk p) (hg : g < p.numGroups) {count loads}
    (hl : p.LoadsFit g loads) (hr : count ≤ p.capacity g) (d) :
    Returns (p.acquireAvailableBlocks g (p.groups g).packing count loads) fun out => Acquired p out.2 out.1 ∧
      (0 < p.bucketCount g → out.1.length = count ∧ Opened p out.2 g (fun _ => 0) (fun _ => 0) (d + count) d) := by
  refine (h.prepareAvailability_returns hg).bind ?_
  rintro q ⟨hre, hB, hs, -⟩
  refine (acquireLoop_returns count d q _ hre.rep (by rw [hre.groups]; exact hg) hB (hre.packing g).symm ?_
    (by rw [hre.capacity h hg]; exact hr)).mono fun out ht => ⟨hre.acquired ht.1, fun hB' => ?_⟩
  · split
    · rename_i hm
      have hn := hl hm
      rw [hs (by omega)]
      exact .inr hn
    · exact .inl rfl
  · rw [hs hB'] at ht
    exact ht.2

theorem BlockPool.checkLoads_safe (p : BlockPool) (g) (bucketLoads) :
    Safe (checkLoads (p.groups g) bucketLoads) fun _ => p.LoadsFit g bucketLoads := by
  unfold checkLoads
  split
  · refine .assert fun hq => ?_
    rw [beq_iff_eq] at hq
    unfold assert
    split
    · exact fun _ => hq.symm
    · exact safe_assertion
  · rename_i hf
    exact fun hm => absurd hm hf

section

variable (h : RepOk p) (hg : g < p.numGroups)
include h hg

theorem RepOk.acquireBlocks_safe (num loads) :
    Safe (p.acquireBlocks g num loads) fun out => Acquired p out.2 out.1 := by
  unfold acquireBlocks availableBlocks
  rw [placement_bind hg]
  split
  · exact .pure (.nil h)
  · refine (p.checkLoads_safe g loads).bind fun _ hl => ?_
    rw [placement_bind hg, bind_assoc]
    refine .assert fun _ => ?_
    rw [pure_bind]
    split
    · exact .pure (.nil h)
    · exact (h.acquireAvailableBlocks_returns hg hl (by rw [h.capacity_eq hg]; omega) 0).safe.mono fun _ ht => ht.1

theorem RepOk.acquireUpToBlocks_safe (mn) : Safe (p.acquireUpToBlocks g mn) fun out => Acquired p out.2 out.1 := by
  unfold acquireUpToBlocks availableBlocks
  rw [placement_bind hg]
  split
  · exact .pure (.nil h)
  · rw [placement_bind hg, bind_assoc]
    refine .assert fun _ => ?_
    rw [pure_bind]
    dsimp only
    split
    · refine (h.acquireAvailableBlocks_returns hg (show p.LoadsFit g [] from nofun) ?_ 0).safe.mono fun _ ht => ht.1
      rw [h.capacity_eq hg]
      exact min_le_right ..
    · exact .pure (.nil h)

theorem RepOk.acquirePrepared_safe (hB : 0 < p.bucketCount g)
    (bcs) : Safe (p.acquirePrepared g bcs) fun out => Acquired p out.2 out.1 := by
  unfold acquirePrepared
  rw [placement_bind hg]
  refine .assert fun hc => ?_
  dsimp only
  split
  · exact .pure (.nil h)
  · rename_i hf
    refine (acquireInBuckets_returns _ p _ h hg hB rfl (fun b hb => ?_) (fun _ => le_rfl) (not_lt.mp hf)).safe.mono
      fun _ ht => ht.1
    obtain ⟨x, hx, rfl⟩ := mem_map.mp hb
    have := all_eq_true.mp hc x hx
    rw [Bool.and_eq_true, decide_eq_true_iff, decide_eq_true_iff] at this
    exact this.2

theorem RepOk.acquireBlocksInBuckets_safe (bcs) :
    Safe (p.acquireBlocksInBuckets g bcs) fun out => Acquired p out.2 out.1 := by
  unfold acquireBlocksInBuckets
  rw [placement_bind hg]
  split
  · exact .pure (.nil h)
  · refine (h.prepareAvailability_returns hg).safe.bind ?_
    rintro q ⟨hr, hB, -⟩
    exact (hr.rep.acquirePrepared_safe (by rw [hr.groups]; exact hg) hB bcs).mono fun out ht =>
      hr.acquired ht

end

/-! ## Runs -/

theorem make_repOk {nlb slotsPerGroup}
    (hm : make nlb slotsPerGroup = .ok p) : RepOk p ∧ ∀ l, p.isOccupied l = false := by
  obtain ⟨_, hp, hm⟩ := bind_ok.mp hm
  obtain ⟨_, -, hm⟩ := bind_ok.mp hm
  rw [assert_ok] at hp
  cases hm
  refine ⟨⟨fun g hg => ?_, fun g _ => rfl, fun g _ hB => absurd hB (lt_irrefl 0), nodup_range', fun id => ?_,
    fun _ _ => rfl, nofun, nofun, nofun, fun g _ b hb => absurd hb (Nat.not_lt_zero b),
    fun g _ b hb => absurd hb (Nat.not_lt_zero b)⟩, fun _ => rfl⟩
  · have hme : slotsPerGroup.getD g 0 ∈ slotsPerGroup := by
      rw [getD_eq_getElem _ _ hg]
      exact getElem_mem hg
    exact of_decide_eq_true (all_eq_true.mp hp _ hme)
  · rw [mem_range'_1]
    dsimp only
    constructor
    · exact fun hd => ⟨⟨hd.1, by omega⟩, rfl⟩
    · exact fun hd => ⟨hd.1.1, by omega⟩

structure StateOk (s : PoolState) : Prop where
  rep : RepOk s.pool
  nodup : s.live.Nodup
  live : ∀ l, s.pool.isOccupied l = true ↔ l ∈ s.live

variable {s : PoolState} {op : Op}

theorem StateOk.acquired (h : StateOk s) {bls}
    (hb : Acquired s.pool p' bls) : StateOk { pool := p', live := s.live ++ bls } where
  rep := hb.rep
  nodup := by
    refine nodup_append.mpr ⟨h.nodup, hb.nodup, fun l hl l' hl' hq => ?_⟩
    have hf := hb.fresh l' hl'
    rw [← hq, (h.live l).mpr hl] at hf
    cases hf
  live := by
    intro l
    rw [hb.occupied, h.live, mem_append]

theorem StateOk.cleared (h : StateOk s)
    (hc : Cleared s.pool p' l) : StateOk { pool := p', live := s.live.erase l } where
  rep := hc.rep
  nodup := h.nodup.erase l
  live := by
    intro l'
    rw [hc.occupied, h.live, h.nodup.mem_erase_iff, and_comm]

theorem StateOk.call_safe (h : StateOk s) (hal : Allowed s op) : Safe (call s.pool op) fun out =>
    (out.1.Nodup ∧ ∀ l ∈ out.1, l ∉ s.live) ∧ StateOk { pool := out.2, live := liveAfter op out.1 s.live } := by
  have hq : ∀ out : List CacheBlockLocation × BlockPool, Acquired s.pool out.2 out.1 →
      (out.1.Nodup ∧ ∀ l ∈ out.1, l ∉ s.live) ∧ StateOk { pool := out.2, live := s.live ++ out.1 } := by
    intro out ht
    refine ⟨⟨ht.nodup, fun l hl hv => ?_⟩, h.acquired ht⟩
    have hf := ht.fresh l hl
    rw [(h.live l).mpr hv] at hf
    cases hf
  cases op with
  | register g pc sc =>
    refine (h.rep.registerGroup_safe hal pc sc).bind fun p' hp' => .pure ?_
    exact hq ([], p') (hp'.acquired (.nil hp'.rep))
  | acquire g num loads => exact (h.rep.acquireBlocks_safe hal num loads).mono hq
  | acquireUpTo g mn => exact (h.rep.acquireUpToBlocks_safe hal mn).mono hq
  | acquireInBuckets g bcs => exact (h.rep.acquireBlocksInBuckets_safe hal bcs).mono hq
  | release l =>
    refine (h.rep.release_returns ((h.live l).mpr hal)).safe.bind fun p' hp' => .pure ?_
    exact ⟨⟨nodup_nil, nofun⟩, h.cleared hp'⟩

theorem StateOk.thrown (h : StateOk s) (hl : Allowed s op) : StateOk { s with pool := thrown s.pool op } := by
  cases op with
  | acquireInBuckets g bcs =>
    unfold thrown
    dsimp only
    split
    · exact h
    · have hpr := (h.rep.prepareAvailability_returns hl).safe
      split
      · rename_i p' hp'
        obtain ⟨hr, -⟩ := hpr.of_ok hp'
        exact ⟨hr.rep, h.nodup, fun l => by rw [hr.occupied]; exact h.live l⟩
      · exact h
  | _ => exact h

theorem StateOk.step_safe (h : StateOk s) (hal : Allowed s op) : Safe (step s op) StateOk := by
  have hl := h.call_safe hal
  unfold step
  cases hc : call s.pool op with
  | ok out =>
    rw [hc] at hl
    exact hl.2
  | error fl =>
    rw [hc] at hl
    cases fl with
    | assertion ms => exact h.thrown hal
    | fatal ms => exact absurd hl safe_fatal

theorem Reachable.stateOk {nlb spg} (hm : make nlb spg = .ok p) (h : Reachable p s) : StateOk s := by
  induction h with
  | init =>
    obtain ⟨hr, hp⟩ := make_repOk hm
    exact ⟨hr, nodup_nil, fun l => iff_of_false (by rw [hp]; decide) nofun⟩
  | step op _ hl hn ih => exact (ih.step_safe hl).of_ok hn

end TokenSpeed.Indexed

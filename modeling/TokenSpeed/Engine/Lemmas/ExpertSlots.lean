import TokenSpeed.Engine.Lemmas.ExpertPlacement
import TokenSpeed.Logic.Ensures
import TokenSpeed.Logic.Runs

/-!
# The places of the experts

A packing gives each item a place of its own, so each step renumbers what the one before placed.
-/

namespace TokenSpeed.Engine

open Function List

/-! ## Renumbering -/

section Numbers

variable {n d q r m : Nat} {f : Nat → Nat}

theorem tile_div (hr : r < d) : (q * d + r) / d = q := by
  rw [Nat.mul_comm, Nat.mul_add_div (Nat.zero_lt_of_lt hr), Nat.div_eq_of_lt hr, Nat.add_zero]

theorem tile_lt (hq : q < m) (hr : r < d) : q * d + r < m * d := by
  calc q * d + r < (q + 1) * d := by rw [Nat.succ_mul]; omega
    _ ≤ m * d := Nat.mul_le_mul_right _ hq

/-- A numbering of `n` items. -/
structure Numbers (n : Nat) (f : Nat → Nat) : Prop where
  lt : ∀ i < n, f i < n
  inj : ∀ i < n, ∀ j < n, f i = f j → i = j

theorem Numbers.inverse_left (h : Numbers n f) {i} (hi : i < n) : inverse n f (f i) = i := by
  have hk : ∀ k ≤ n, ∀ i < k, inverse k f (f i) = i := by
    intro k
    induction k with
    | zero => exact fun _ i hi => absurd hi (Nat.not_lt_zero i)
    | succ k ih =>
      intro hk i hi
      rw [inverse, range_succ, foldl_append, foldl_cons, foldl_nil]
      by_cases hik : i = k
      · rw [hik, update_self]
      · rw [update_of_ne fun heq => hik (h.inj i (by omega) k (by omega) heq)]
        exact ih (by omega) i (by omega)
  exact hk n le_rfl i hi

theorem Numbers.perm (h : Numbers n f) : ((range n).map f).Perm (range n) := by
  refine (Subperm.perm_of_length_le (subperm_of_subset ?_ fun v hv => ?_) (by simp))
  · exact nodup_range.map_on fun i hi j hj => h.inj i (mem_range.mp hi) j (mem_range.mp hj)
  · obtain ⟨i, hi, rfl⟩ := mem_map.mp hv
    exact mem_range.mpr (h.lt i (mem_range.mp hi))

theorem Numbers.inverse_right (h : Numbers n f) {v} (hv : v < n) : inverse n f v < n ∧ f (inverse n f v) = v := by
  obtain ⟨i, hi, rfl⟩ := mem_map.mp (h.perm.mem_iff.mpr (mem_range.mpr hv))
  rw [h.inverse_left (mem_range.mp hi)]
  exact ⟨mem_range.mp hi, rfl⟩

theorem Numbers.inverse (h : Numbers n f) : Numbers n (inverse n f) :=
  ⟨fun _ hv => (h.inverse_right hv).1,
    fun v hv w hw heq => by rw [← (h.inverse_right hv).2, heq, (h.inverse_right hw).2]⟩

end Numbers

/-! ## Packing -/

section Packing

variable {α : Type} [Zero α] {n N K : Nat} {p p' : Packing α} {done : List Nat}

/-- Each of the items done has a place of its own, below what its pack holds. -/
structure Stowed (N K : Nat) (done : List Nat) (p : Packing α) : Prop where
  lt : ∀ g ∈ done, p.packIndex g < N ∧ p.rankInPack g < p.items (p.packIndex g)
  room : ∀ pack, p.items pack ≤ K
  inj : ∀ g ∈ done, ∀ g' ∈ done, p.packIndex g = p.packIndex g' → p.rankInPack g = p.rankInPack g' → g = g'

theorem packs_of_inj (hn : n = N * K) (hlt : ∀ i < n, p.packIndex i < N ∧ p.rankInPack i < K)
    (hi : ∀ i < n, ∀ j < n, p.packIndex i = p.packIndex j → p.rankInPack i = p.rankInPack j → i = j) :
    Packs n N K p := by
  have hj : Set.InjOn (fun i => (p.packIndex i, p.rankInPack i)) (Set.Iio n) := fun i h j h' heq =>
    hi i h j h' (congrArg Prod.fst heq) (congrArg Prod.snd heq)
  refine ⟨hlt, hj, ?_⟩
  have := @Finset.surjOn_of_injOn_of_card_le _ _ (Finset.range n) (Finset.range N ×ˢ Finset.range K)
    (fun i => (p.packIndex i, p.rankInPack i)) (fun i h => by simpa using hlt i (by simpa using h)) (by simpa using hj)
    (by simp [hn])
  simpa using this

/-- A pack holds as many items as it has ranks. -/
theorem Packs.card (h : Packs n N K p) {k} (hk : k < N) :
    ((Finset.range n).filter fun i => p.packIndex i = k).card = K := by
  rw [← Finset.card_range K]
  refine Finset.card_nbij p.rankInPack (fun i hi => ?_) (fun i hi j hj heq => ?_) fun r hr => ?_
  · exact Finset.mem_coe.mpr (Finset.mem_range.mpr (h.mapsTo (Finset.mem_range.mp (Finset.mem_filter.mp hi).1)).2)
  · obtain ⟨hi, hp⟩ := Finset.mem_filter.mp hi
    obtain ⟨hj, hq⟩ := Finset.mem_filter.mp hj
    exact h.injOn (Finset.mem_range.mp hi) (Finset.mem_range.mp hj) (Prod.ext (hp.trans hq.symm) heq)
  · obtain ⟨i, hi, heq⟩ := h.surjOn (show (k, r) ∈ _ from ⟨hk, by simpa using hr⟩)
    cases heq
    exact ⟨i, by simpa using hi, rfl⟩

theorem Packs.numbers (h : Packs (N * K) N K p) : Numbers (N * K) fun i => p.packIndex i * K + p.rankInPack i := by
  refine ⟨fun i hi => tile_lt (h.mapsTo hi).1 (h.mapsTo hi).2, fun i hi j hj heq => ?_⟩
  have hp : p.packIndex i = p.packIndex j := by
    rw [← @tile_div K (p.packIndex i) _ (h.mapsTo hi).2, heq, tile_div (h.mapsTo hj).2]
  rw [hp] at heq
  exact h.injOn hi hj (Prod.ext hp (add_left_cancel heq))

variable [LT α] [DecidableLT α] {row : List α}

theorem Packing.foldl_lighter : ∀ (l : List Nat) {best}, (∀ b ∈ best, b < N ∧ p.items b < K) →
    (∀ x ∈ l, x < N) → ∀ b ∈ l.foldl (p.lighter K) best, b < N ∧ p.items b < K
  | [], _, hb, _ => hb
  | x :: l, best, hb, hl => by
    refine foldl_lighter l (fun b h => ?_) fun y hy => hl y (mem_cons_of_mem _ hy)
    unfold lighter at h
    split at h
    next hr => exact Option.some.inj h ▸ ⟨hl x mem_cons_self, hr.1⟩
    next => exact hb b h

variable [Add α]

theorem Stowed.put {group} (h : Stowed N K done p) (hn : group ∉ done)
    (hp : p.put N K row group = .ok p') : Stowed N K (group :: done) p' := by
  unfold Packing.put at hp
  split at hp
  next => cases hp
  next pc hk =>
    cases hp
    obtain ⟨hlt, hr⟩ := Packing.foldl_lighter _ (fun _ h => by cases h) (fun _ => mem_range.mp) pc hk
    have hne : ∀ g ∈ done, g ≠ group := fun g hg heq => hn (heq ▸ hg)
    -- The new rank is what the pack held, above all ranks in it.
    refine ⟨fun g hg => ?_, fun k => ?_, fun g hg g' hg' => ?_⟩
    · have := h.lt g
      grind [update_apply]
    · have := h.room k
      grind [update_apply]
    · have := h.lt g
      have := h.lt g'
      have := h.inj g
      grind [update_apply]

theorem Stowed.foldlM : ∀ {l done : List Nat} {p}, Stowed N K done p → (l ++ done).Nodup →
    Ensures (l.foldlM (Packing.put N K row) p) (Stowed N K (l.reverse ++ done))
  | [], _, _, h, _ => .pure h
  | g :: l, done, p, h, hd => by
    rw [foldlM_cons, reverse_cons, append_assoc]
    have hn : g ∉ done := fun hm => (nodup_cons.mp hd).1 (mem_append_right _ hm)
    exact .skip fun q hq => (h.put hn hq).foldlM (perm_middle.nodup_iff.mpr hd)

variable [Ord α]

theorem packRow_packs (hn : row.length = N * K) : Ensures (packRow N K row) (Packs row.length N K) := by
  refine .ite (fun h1 => ?_) fun _ => ?_
  · subst h1
    rw [mul_one] at hn
    exact ensures_ok.mpr (packs_of_inj (by omega) (fun i hi => ⟨hn ▸ hi, one_pos⟩) fun _ _ _ _ h _ => h)
  · have hs : (sortedDescending row).Perm (range row.length) := perm_insertionSort ..
    have h0 : Stowed N K [] ({} : Packing α) := ⟨by simp, fun _ => Nat.zero_le _, by simp⟩
    refine (h0.foldlM (by rw [append_nil]; exact hs.nodup_iff.mpr nodup_range)).mono fun p h => ?_
    have hm : ∀ i < row.length, i ∈ (sortedDescending row).reverse ++ [] := fun i hi => by
      simpa using hs.mem_iff.mpr (mem_range.mpr hi)
    exact packs_of_inj hn (fun i hi => ⟨(h.lt i (hm i hi)).1, (h.lt i (hm i hi)).2.trans_le (h.room _)⟩)
      fun i hi j hj => h.inj i (hm i hi) j (hm j hj)

theorem balancedPacking_packs {weight : List (List α)} (hr : ∀ row ∈ weight, row.length = n) :
    Ensures (balancedPacking weight N) fun out => out.length = weight.length ∧ ∀ p ∈ out, Packs n N (n / N) p := by
  refine .assert fun ha => ?_
  have hd : N ≠ 0 ∧ width weight % N = 0 := by simpa using ha
  refine Ensures.mapM weight fun row hm => ?_
  rw [width_eq hr (ne_nil_of_mem hm)] at hd ⊢
  have hn := hr row hm
  subst hn
  exact packRow_packs (Nat.mul_div_cancel' (Nat.dvd_of_mod_eq_zero hd.2)).symm

end Packing

/-! ## Replication -/

/-- `P` slots for `L` experts, each expert in as many as it has replicas. -/
structure Replicated (L P : Nat) (state : Replicas) : Prop where
  counts : Counts L P state.count
  length : state.phy2log.length = P
  count : ∀ m, state.phy2log.count m = state.count.getD m 0

section Replicated

variable {α : Type} [Div α] [NatCast α] [LT α] [DecidableLT α] {L P m : Nat} {state : Replicas} {row : List α}

theorem Replicated.lt_of_mem (h : Replicated L P state) (hm : m ∈ state.phy2log) : m < L := by
  have hp := count_pos_iff.mpr hm
  rw [h.count] at hp
  by_contra hge
  simp [h.counts.length, hge] at hp

theorem Replicated.one_le (h : Replicated L P state) (hm : m < L) : 1 ≤ state.count.getD m 0 := by
  rw [← h.counts.length] at hm
  simpa [hm] using h.counts.pos _ (getElem_mem hm)

theorem Replicated.giveSlot (h : Replicated L P state) : Ensures (state.giveSlot row) (Replicated L (P + 1)) := by
  unfold Replicas.giveSlot
  dsimp only
  split
  next => exact ensures_error
  next replicas hb =>
    refine ensures_ok.mpr ⟨h.counts.set hb, by simp [h.length], fun m => ?_⟩
    rw [count_append, h.count, getD_set_of_getElem? hb, count_singleton]
    by_cases hm : heaviest 0 0 none (perReplica row state.count) = m
    · subst hm
      simp [getD_eq_getElem?_getD, hb]
    · simp [hm]

theorem Replicated.giveSlots : ∀ (slots : Nat) {P state}, Replicated L P state →
    Ensures (giveSlots row slots state) (Replicated L (P + slots))
  | 0, _, _, h => .pure h
  | slots + 1, P, state, h => by
    rw [← add_assoc, add_right_comm]
    exact h.giveSlot.bind fun next hn => Replicated.giveSlots slots hn

theorem replicateExperts_replicated {weight : List (List α)} (hr : ∀ row ∈ weight, row.length = L) :
    Ensures (replicateExperts weight P) fun out => out.length = weight.length ∧
      ∀ state ∈ out, Replicated L P state := by
  refine .assert fun ha => Ensures.mapM weight fun row hm => ?_
  rw [width_eq hr (ne_nil_of_mem hm)] at ha ⊢
  have h0 : Replicated L L ⟨range L, replicate L 0, replicate L 1⟩ := by
    refine ⟨counts_replicate L, length_range, fun m => ?_⟩
    rw [count_range, getD_eq_getElem?_getD, getElem?_replicate]
    split <;> rfl
  have h := @Replicated.giveSlots _ _ _ _ _ _ row (P - L) _ _ h0
  rwa [Nat.add_sub_cancel' (of_decide_eq_true ha)] at h

end Replicated

/-! ## One layer

Of `N` nodes with `G` groups of `S` experts and `U` GPUs of `P` slots each. -/

section Layer

variable {α : Type} [Zero α] {N G S U P k e : Nat} {groups : Packing α} {replicas : Nat → Replicas}
  {gpus : Nat → Packing α} {slots : Nat → List Nat}

/-- In the order by nodes an expert is with its group. -/
theorem log2mlog_numbers (h : Packs (N * G) N G groups) : Numbers (N * G * S) (log2mlog S G groups) ∧
    ∀ e < N * G * S, log2mlog S G groups e / (G * S) = groups.packIndex (e / S) ∧ groups.packIndex (e / S) < N := by
  have hg : ∀ e < N * G * S, e / S < N * G := fun e he => Nat.div_lt_of_lt_mul (by rwa [Nat.mul_comm])
  have hp : ∀ e < N * G * S, e % S < S := fun e he => Nat.mod_lt _ (Nat.pos_of_mul_pos_left (Nat.zero_lt_of_lt he))
  have hd : ∀ e < N * G * S, log2mlog S G groups e / S = groups.packIndex (e / S) * G + groups.rankInPack (e / S) :=
    fun e he => tile_div (hp e he)
  refine ⟨⟨fun e he => tile_lt (h.numbers.lt _ (hg e he)) (hp e he), fun e he e' he' heq => ?_⟩,
    fun e he => ⟨?_, (h.mapsTo (hg e he)).1⟩⟩
  · have hs : e / S = e' / S := h.numbers.inj _ (hg e he) _ (hg e' he') (by rw [← hd e he, ← hd e' he', heq])
    have hm : e % S = e' % S := by
      have := congrArg (· % S) heq
      simpa [log2mlog, Nat.mul_comm _ S, Nat.mul_add_mod] using this
    rw [← Nat.div_add_mod e S, hs, hm, Nat.div_add_mod]
  · rw [Nat.mul_comm G, ← Nat.div_div_eq_div_mul, hd e he, tile_div (h.mapsTo (hg e he)).2]

theorem getD_mem {β : Type} {l : List β} {i d} (hi : i < l.length) : l.getD i d ∈ l := by
  simp [hi]

theorem map_getD_range {l : List Nat} {n} (hl : l.length = n) : (range n).map (l.getD · 0) = l :=
  ext_getElem (by simp [hl]) fun i _ hi => by simp [hi]

theorem nodeSlots_perm {first} {m2l : Nat → Nat} {replicas : Replicas} {gpus : Packing α}
    (h : Packs (U * P) U P gpus) (hl : replicas.phy2log.length = U * P) :
    (nodeSlots P (U * P) first m2l replicas gpus).Perm (replicas.phy2log.map fun m => m2l (m + first)) := by
  have := (h.numbers.inverse.perm.map fun i => replicas.phy2log.getD i 0).map fun m => m2l (m + first)
  rwa [map_getD_range hl, map_map, map_map] at this

/-- What the steps give a layer. -/
structure Steps (N G S U P : Nat) (groups : Packing α) (replicas : Nat → Replicas) (gpus : Nat → Packing α)
    (slots : Nat → List Nat) : Prop where
  slots : ∀ k, slots k = nodeSlots P (U * P) (k * (G * S)) (inverse (N * G * S) (log2mlog S G groups)) (replicas k)
    (gpus k)
  groups : Packs (N * G) N G groups
  replicas : ∀ k < N, Replicated (G * S) (U * P) (replicas k)
  gpus : ∀ k < N, Packs (U * P) U P (gpus k)

theorem Steps.mem_slots (h : Steps N G S U P groups replicas gpus slots) (hk : k < N) (he : e ∈ slots k) :
    e < N * G * S ∧ groups.packIndex (e / S) = k := by
  obtain ⟨hn, hp⟩ := @log2mlog_numbers _ _ _ _ S _ h.groups
  rw [h.slots] at he
  obtain ⟨m, hm, rfl⟩ := mem_map.mp ((nodeSlots_perm (h.gpus k hk) (h.replicas k hk).length).mem_iff.mp he)
  have hm := (h.replicas k hk).lt_of_mem hm
  rw [add_comm]
  obtain ⟨he, hb⟩ := hn.inverse_right (by rw [mul_assoc]; exact tile_lt hk hm)
  exact ⟨he, by rw [← (hp _ he).1, hb, tile_div hm]⟩

theorem Steps.count_slots (h : Steps N G S U P groups replicas gpus slots) (he : e < N * G * S)
    (hk : groups.packIndex (e / S) = k) :
    (slots k).count e = (replicas k).count.getD (log2mlog S G groups e % (G * S)) 0 := by
  obtain ⟨hn, hp⟩ := @log2mlog_numbers _ _ _ _ S _ h.groups
  have hlt : k < N := hk ▸ (hp e he).2
  rw [h.slots, (nodeSlots_perm (h.gpus k hlt) (h.replicas k hlt).length).count_eq, ← (h.replicas k hlt).count,
    count_eq_countP, countP_map, count_eq_countP]
  refine countP_congr fun m hm => ?_
  have hm := (h.replicas k hlt).lt_of_mem hm
  simp only [comp_apply, beq_iff_eq]
  constructor
  · rintro rfl
    rw [(hn.inverse_right (by rw [add_comm, mul_assoc]; exact tile_lt hlt hm)).2,
      Nat.add_mul_mod_self_right, Nat.mod_eq_of_lt hm]
  · rintro rfl
    rw [← hk, ← (hp e he).1, Nat.mul_comm _ (G * S), Nat.mod_add_div]
    exact hn.inverse_left he

/-- Of parts of one length, each slot is in the part its number divides to. -/
theorem getElem?_flatMap_range {f : Nat → List Nat} {w m s x} (hl : ∀ k, (f k).length = w)
    (h : ((range m).flatMap f)[s]? = some x) : s / w < m ∧ x ∈ f (s / w) := by
  have hf : f = fun k => (range w).map ((f k).getD · 0) := funext fun k => (map_getD_range (hl k)).symm
  rcases eq_zero_or_pos w with rfl | hw
  · rw [hf] at h
    simp at h
  · rw [hf, flatMap_range_rows (fun k => ((f k).getD · 0)) hw, getElem?_map, Option.map_eq_some_iff] at h
    obtain ⟨j, hj, rfl⟩ := h
    obtain ⟨hs, rfl⟩ := List.getElem?_eq_some_iff.mp hj
    rw [length_range] at hs
    rw [getElem_range]
    exact ⟨Nat.div_lt_of_lt_mul (by rwa [Nat.mul_comm]), getD_mem (by rw [hl]; exact Nat.mod_lt _ hw)⟩

theorem count_flatMap_range {f : Nat → List Nat} {m x} (hk : k < m) (ho : ∀ j < m, x ∈ f j → j = k) :
    ((range m).flatMap f).count x = (f k).count x := by
  rw [count_flatMap, sum_map_eq_nsmul_single k (count x ∘ f) fun j hj hm => count_eq_zero.mpr fun hx =>
    hj (ho j (mem_range.mp hm) hx), count_range, if_pos hk, one_nsmul, comp_apply]

theorem Steps.placed (h : Steps N G S U P groups replicas gpus slots) (hp : 0 < N * G * S) :
    Placed (N * G * S) (N * (U * P)) (N * G) N groups.packIndex
      (fun e => (replicas (groups.packIndex (e / S))).count.getD (log2mlog S G groups e % (G * S)) 0)
      ((range N).flatMap slots) := by
  have hg := Nat.pos_of_mul_pos_right hp
  have hn := Nat.pos_of_mul_pos_right hg
  have hl : ∀ k, (slots k).length = U * P := fun k => by simp [h.slots, nodeSlots]
  refine ⟨by simp [length_flatMap, hl], fun e he => ?_, fun s e hs => ?_, fun k hk => ?_, fun e he => ?_⟩
  · obtain ⟨k, hk, he⟩ := mem_flatMap.mp he
    exact (h.mem_slots (mem_range.mp hk) he).1
  · rw [Nat.mul_div_cancel_left _ hn, Nat.mul_div_cancel_left _ hg]
    obtain ⟨hk, he⟩ := getElem?_flatMap_range hl hs
    exact (h.mem_slots hk he).2.symm
  · rw [h.groups.card hk, Nat.mul_div_cancel_left _ hn]
  · have hk := ((log2mlog_numbers h.groups).2 e he).2
    refine ⟨?_, (h.replicas _ hk).one_le (Nat.mod_lt _ (Nat.pos_of_mul_pos_left (by rwa [← mul_assoc])))⟩
    rw [count_flatMap_range hk fun j hj hm => (h.mem_slots hj hm).2.symm]
    exact h.count_slots he rfl

end Layer

/-! ## The rows of the steps -/

section Rows

variable {α : Type} [Zero α] {weight tokens : List (List α)} {replicas : List Replicas}

theorem chunkSums_length [Add α] {size} {row : List α} :
    Ensures (chunkSums size row) fun ss => 0 < size ∧ ss.length = (row.length + size - 1) / size :=
  .ite (fun _ => ensures_error) fun hs => .pure ⟨pos_of_ne_zero hs, by simp⟩

theorem tokensPerMlog_rows (N L) {m2l : List (Nat → Nat)} (hl : m2l.length = weight.length) :
    (tokensPerMlog weight m2l N L).length = weight.length * N ∧ ∀ row ∈ tokensPerMlog weight m2l N L,
    row.length = L := by
  refine ⟨by simp [tokensPerMlog, length_flatMap, hl], fun row hr => ?_⟩
  simp only [tokensPerMlog, mem_flatMap, mem_map] at hr
  obtain ⟨_, -, _, -, rfl⟩ := hr
  simp

theorem tokensPerPhy_rows [Div α] [NatCast α] {L P} (hl : replicas.length = tokens.length)
    (h : ∀ state ∈ replicas, Replicated L P state) :
    (tokensPerPhy tokens replicas).length = tokens.length ∧ ∀ row ∈ tokensPerPhy tokens replicas, row.length = P := by
  refine ⟨by simp [tokensPerPhy, hl], fun row hr => ?_⟩
  obtain ⟨pr, hp, rfl⟩ := mem_map.mp hr
  rw [length_map, (h _ (of_mem_zip hp).2).length]

end Rows

end TokenSpeed.Engine

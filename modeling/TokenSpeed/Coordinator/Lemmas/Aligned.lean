import TokenSpeed.Coordinator.Resumable
import TokenSpeed.Logic.Runs

/-!
# The aligned walk

The closed groups are swept once, each bounded by the groups before it. The bound the sweep ends
with is the longest run of full pages that every closed group covers.
-/

namespace TokenSpeed.CacheCoordinator

open List

variable {c : CacheCoordinator} {hit : CacheKey → Bool} {hashes : List ContentHash}

/-- The key of block `j` of a history group, counted over full pages. -/
def pageKey (c : CacheCoordinator) (hashes : List ContentHash) (i j : Nat) : CacheKey :=
  { groupId := i
    contentHash := hashes.getD (j / (c.prefixGranularity / c.granularity i)) []
    pageOffset := j % (c.prefixGranularity / c.granularity i) }

/-- The full pages of `[0, T)` are there in group `i`, those below the floor for free. -/
def CoversPages (c : CacheCoordinator) (hit : CacheKey → Bool) (hashes : List ContentHash) (floor i T : Nat) : Prop :=
  ∀ j, (j + 1) * c.granularity i ≤ T →
    (j + 1) * c.granularity i ≤ floor ∨ hit (c.pageKey hashes i j) = true

theorem GroupOk.perPage_pos {i} (hk : c.GroupOk i) (hP : 0 < c.prefixGranularity)
    (hs : c.groupIsState i = false) : 0 < c.prefixGranularity / c.granularity i :=
  Nat.div_pos (Nat.le_of_dvd hP (hk.span_dvd hs)) (hk.span_pos hs)

theorem keysForGroup_eq {i} (hk : c.GroupOk i) (hP : 0 < c.prefixGranularity)
    (hs : c.groupIsState i = false) : c.keysForGroup hashes i =
      (range (hashes.length * (c.prefixGranularity / c.granularity i))).map (c.pageKey hashes i) := by
  have hp : c.blocksPerBoundary i = c.prefixGranularity / c.granularity i := by
    simp [blocksPerBoundary, hs]
  unfold keysForGroup
  rw [hp, flatMap_eq_range _ ([] : ContentHash)]
  exact flatMap_range_rows (fun r o => CacheKey.mk 0 i (hashes.getD r []) o)
    (hk.perPage_pos hP hs) hashes.length

theorem length_fullAttnProbe (hit : CacheKey → Bool) (key : Nat → CacheKey) (N beginBlocks maxBlocks) :
    (fullAttnProbe hit ((range N).map key) beginBlocks maxBlocks).length =
      runLength (fun j => hit (key j)) beginBlocks (min maxBlocks N - beginBlocks) := by
  rw [fullAttnProbe, length_map, ← map_take, ← map_drop, take_range,
    takeWhile_map, length_map, range_eq_range', drop_range', mul_one,
    zero_add]
  rfl

section Extent

variable {floor bound i : Nat}

def alignedExtent (c : CacheCoordinator) (hit : CacheKey → Bool) (keys : List CacheKey) (floor bound i : Nat) : Nat :=
  let extent := floor + (fullAttnProbe hit keys (floor / c.granularity i)
    (bound / c.granularity i)).length * c.granularity i
  extent - extent % c.prefixGranularity

theorem isGreatest_alignedExtent (hit : CacheKey → Bool) (hP : 0 < c.prefixGranularity) (hok : c.GroupOk i)
    (hst : c.groupIsState i = false) (hl : c.prefixGranularity ∣ floor)
    (hbo : bound ≤ hashes.length * c.prefixGranularity) (hle : floor ≤ bound) :
    IsGreatest {T | floor ≤ T ∧ T ≤ bound ∧ c.prefixGranularity ∣ T ∧ c.CoversPages hit hashes floor i T}
      (c.alignedExtent hit (c.keysForGroup hashes i) floor bound i) := by
  have hg := hok.span_pos hst
  have hd := hok.span_dvd hst
  have hn := length_fullAttnProbe hit (c.pageKey hashes i)
    (hashes.length * (c.prefixGranularity / c.granularity i)) (floor / c.granularity i)
    (bound / c.granularity i)
  unfold alignedExtent CoversPages
  rw [keysForGroup_eq hok hP hst, hn]
  -- The bound is inside the keys, so the number of keys does not limit the run.
  have hk : bound / c.granularity i ≤
      hashes.length * (c.prefixGranularity / c.granularity i) := by
    rw [← Nat.mul_div_assoc _ hd]; exact Nat.div_le_div_right hbo
  rw [min_eq_left hk]
  obtain ⟨f, rfl⟩ := hd.trans hl
  rw [Nat.mul_div_cancel_left f hg]
  have hr := runLength_le (fun j => hit (c.pageKey hashes i j)) f (bound / c.granularity i - f)
  have hs := @accept_of_lt_runLength (fun j => hit (c.pageKey hashes i j)) f
    (bound / c.granularity i - f)
  have hm := @le_runLength (fun j => hit (c.pageKey hashes i j)) f (bound / c.granularity i - f)
  generalize runLength (fun j => hit (c.pageKey hashes i j)) f (bound / c.granularity i - f) = L
    at hr hs hm ⊢
  have hf : f ≤ bound / c.granularity i := by
    rw [Nat.le_div_iff_mul_le hg, Nat.mul_comm]; exact hle
  have ht : c.granularity i * f + L * c.granularity i = c.granularity i * (f + L) := by
    rw [mul_add, Nat.mul_comm L]
  have hin : c.granularity i * (f + L) ≤ bound := by
    rw [Nat.mul_comm, ← Nat.le_div_iff_mul_le hg]; omega
  have hl' : c.granularity i * f ≤ c.granularity i * (f + L) := Nat.mul_le_mul_left _ (by omega)
  rw [ht]
  -- A page multiple fits below the extent exactly when it fits below its aligned part.
  have hal : ∀ T, c.prefixGranularity ∣ T → T ≤ c.granularity i * (f + L) →
      T ≤ c.granularity i * (f + L) - c.granularity i * (f + L) % c.prefixGranularity := by
    rintro T ⟨q, rfl⟩ hT
    have hq : q ≤ c.granularity i * (f + L) / c.prefixGranularity := by
      rwa [Nat.le_div_iff_mul_le hP, Nat.mul_comm]
    have hmu := Nat.mul_le_mul_left c.prefixGranularity hq
    have := Nat.div_add_mod (c.granularity i * (f + L)) c.prefixGranularity
    omega
  refine ⟨⟨hal _ hl hl', (Nat.sub_le _ _).trans hin, Nat.dvd_sub_mod _, ?_⟩, ?_⟩
  · intro j hj
    have hj : (j + 1) * c.granularity i ≤ (f + L) * c.granularity i :=
      hj.trans ((Nat.sub_le _ _).trans (Nat.mul_comm _ _).le)
    have hj := Nat.le_of_mul_le_mul_right hj hg
    rcases lt_or_ge j f with hlt | hge
    · left; rw [Nat.mul_comm]; exact Nat.mul_le_mul_left _ hlt
    · right; exact hs hge (by omega)
  · rintro T ⟨hfT, hTb, hPT, hc⟩
    refine hal T hPT ?_
    obtain ⟨t, rfl⟩ := hd.trans hPT
    have hft := Nat.le_of_mul_le_mul_left hfT hg
    have htb : t ≤ bound / c.granularity i := by
      rw [Nat.le_div_iff_mul_le hg, Nat.mul_comm]; exact hTb
    refine Nat.mul_le_mul_left _ ?_
    have := @hm (t - f) (by omega) fun j h1 h2 => by
      have hjt : j + 1 ≤ t := by omega
      have hj : (j + 1) * c.granularity i ≤ c.granularity i * t := by
        rw [Nat.mul_comm]; exact Nat.mul_le_mul_left _ hjt
      rcases hc j hj with hb | hh
      · rw [Nat.mul_comm] at hb
        have := Nat.le_of_mul_le_mul_left hb hg
        omega
      · exact hh
    omega

end Extent

theorem CoversPages.mono {floor i T T'} (h : c.CoversPages hit hashes floor i T)
    (hl : T' ≤ T) : c.CoversPages hit hashes floor i T' :=
  fun j hj => h j (hj.trans hl)

theorem isGreatest_sweep (hit : CacheKey → Bool) (hP : 0 < c.prefixGranularity) {gk : Nat → List CacheKey}
    {floor} (hl : c.prefixGranularity ∣ floor) :
    ∀ (od : List Nat) (bound : Nat) (hits : Nat → List Bool),
      (∀ i ∈ od, c.GroupOk i ∧ c.groupIsState i = false ∧
        gk i = c.keysForGroup hashes i) →
      bound ≤ hashes.length * c.prefixGranularity → floor ≤ bound → c.prefixGranularity ∣ bound →
      IsGreatest {T | floor ≤ T ∧ T ≤ bound ∧ c.prefixGranularity ∣ T ∧
          ∀ i ∈ od, c.CoversPages hit hashes floor i T}
        (c.sweep hit gk floor od bound hits).1
  | [], bound, _, _, _, hle, hd =>
    ⟨⟨hle, le_rfl, hd, by simp⟩, fun _ h => h.2.1⟩
  | i :: od, bound, hits, hg, hb, hle, hd => by
    obtain ⟨hok, hs, hk⟩ := hg i mem_cons_self
    obtain ⟨⟨hf, hEb, hPE, hc⟩, hm⟩ :=
      isGreatest_alignedExtent hit hP hok hs hl hb hle
    rw [sweep, hk]
    change IsGreatest _ (c.sweep hit gk floor od
      (min bound (c.alignedExtent hit (c.keysForGroup hashes i) floor bound i)) _).1
    rw [min_eq_right hEb]
    obtain ⟨⟨h1, h2, h3, h4⟩, hx⟩ := isGreatest_sweep hit hP hl od _
      (Function.update hits i (fullAttnProbe hit (c.keysForGroup hashes i)
        (floor / c.granularity i) (bound / c.granularity i)))
      (fun j hj => hg j (mem_cons_of_mem i hj)) (hEb.trans hb) hf hPE
    refine ⟨⟨h1, h2.trans hEb, h3, ?_⟩, ?_⟩
    · intro j hj
      rcases mem_cons.mp hj with rfl | hj
      · exact hc.mono h2
      · exact h4 j hj
    · rintro T ⟨hT, hTb, hPT, hv⟩
      exact hx ⟨hT, hm ⟨hT, hTb, hPT, hv i mem_cons_self⟩, hPT,
        fun j hj => hv j (mem_cons_of_mem i hj)⟩

end TokenSpeed.CacheCoordinator

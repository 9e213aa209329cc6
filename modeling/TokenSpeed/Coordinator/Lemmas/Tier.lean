import TokenSpeed.Coordinator.Lemmas.Acceptance
import TokenSpeed.Coordinator.Lemmas.Aligned

/-!
# The probe of one tier

The candidate walk starts one page above what the closed groups cover, so no resumable boundary lies
above it; the first candidate every group accepts is the greatest one.
-/

namespace TokenSpeed.CacheCoordinator

open List

variable {c : CacheCoordinator} {hit : CacheKey → Bool} {prompt : PromptPrefix} {order : List Nat}
  {floorTokens : Nat}

/-! ## What the aligned walk covers -/

/-- The page multiple the closed groups of `order` cover; without one, the walk has no such limit. -/
def coveredTokens (c : CacheCoordinator) (hit : CacheKey → Bool) (prompt : PromptPrefix)
    (order : List Nat) (floorTokens : Nat) : Nat :=
  (c.sweep hit (c.buildGroupKeys prompt.prefixHashes) floorTokens (order.filter fun i => c.groupIsClosed i)
    (min prompt.prefixHashes.length (prompt.maxTokens / c.prefixGranularity) * c.prefixGranularity)
    (fun _ => [])).1

def candidateBound (c : CacheCoordinator) (hit : CacheKey → Bool) (prompt : PromptPrefix)
    (order : List Nat) (floorTokens : Nat) : Nat :=
  if (order.filter fun i => c.groupIsClosed i).isEmpty then prompt.maxTokens
  else min (c.coveredTokens hit prompt order floorTokens + c.prefixGranularity - 1) prompt.maxTokens

structure TierOk (c : CacheCoordinator) (prompt : PromptPrefix) (order : List Nat)
    (floorTokens : Nat) : Prop where
  config : c.ConfigOk
  tails : c.TailsOk
  prompt_ok : c.PromptOk prompt
  order_lt : ∀ i ∈ order, i < c.groups.length
  floor_dvd : c.prefixGranularity ∣ floorTokens
  floor_le : floorTokens ≤ prompt.maxTokens

theorem TierOk.floor_le_round (h : c.TierOk prompt order floorTokens) {T} (ht : floorTokens ≤ T) :
    floorTokens ≤ T / c.prefixGranularity * c.prefixGranularity := by
  obtain ⟨k, hk⟩ := h.floor_dvd
  have : k ≤ T / c.prefixGranularity := by
    rw [Nat.le_div_iff_mul_le h.config.granularity_pos, Nat.mul_comm, ← hk]; exact ht
  rw [hk, Nat.mul_comm]
  exact Nat.mul_le_mul_right _ this

theorem groupIsState_of_closed {i} (hi : c.groupIsClosed i = true) : c.groupIsState i = false := by
  simp only [groupIsClosed, beq_iff_eq] at hi
  simp [groupIsState, hi]

theorem TierOk.isGreatest_covered (h : c.TierOk prompt order floorTokens) (hit : CacheKey → Bool) :
    IsGreatest {T | floorTokens ≤ T ∧
        T ≤ prompt.maxTokens / c.prefixGranularity * c.prefixGranularity ∧ c.prefixGranularity ∣ T ∧
        ∀ i ∈ order.filter fun i => c.groupIsClosed i, c.CoversPages hit prompt.prefixHashes floorTokens i T}
      (c.coveredTokens hit prompt order floorTokens) := by
  unfold coveredTokens
  rw [min_eq_right h.prompt_ok.hashes_cover]
  refine isGreatest_sweep hit h.config.granularity_pos h.floor_dvd _ _ _ ?_ ?_ (h.floor_le_round h.floor_le)
    (dvd_mul_left _ _)
  · intro i hi
    obtain ⟨hi, hc⟩ := mem_filter.mp hi
    have hl := h.order_lt i hi
    exact ⟨h.config.group_ok i hl, groupIsState_of_closed hc, by simp [buildGroupKeys, hl]⟩
  · exact Nat.mul_le_mul_right _ h.prompt_ok.hashes_cover

/-- Blocks of the full pages below `T` have the keys the aligned walk asks for. -/
theorem resumeKey_eq_pageKey {i T j} (hP : 0 < c.prefixGranularity) (hg : 0 < c.granularity i)
    (hd : c.granularity i ∣ c.prefixGranularity)
    (hj : (j + 1) * c.granularity i ≤ T / c.prefixGranularity * c.prefixGranularity) :
    c.resumeKey prompt i T j = c.pageKey prompt.prefixHashes i j := by
  have hb : c.AtBoundary ⟨T / c.prefixGranularity * c.prefixGranularity, T % c.prefixGranularity, []⟩
      (T / c.prefixGranularity) := ⟨rfl, Nat.mod_lt _ hP⟩
  have ht : CandidateBoundary.tokens
      ⟨T / c.prefixGranularity * c.prefixGranularity, T % c.prefixGranularity, []⟩ = T := by
    rw [CandidateBoundary.tokens, Nat.mul_comm]; exact Nat.div_add_mod T _
  have hl : j < T / c.prefixGranularity * (c.prefixGranularity / c.granularity i) := by
    rw [← Nat.le_div_iff_mul_le hg, Nat.mul_div_assoc _ hd] at hj; exact hj
  have hk : c.resumeKey prompt i _ j = _ := hb.resumeKey_page hl
  rw [ht] at hk
  exact hk

/-- A closed group that accepts `T` covers the full pages below it. -/
theorem coversPages_of_accepts {i T} (hP : 0 < c.prefixGranularity) (hok : c.GroupOk i)
    (hc : c.groupIsClosed i = true) (hac : c.GroupAccepts hit prompt floorTokens i T) :
    c.CoversPages hit prompt.prefixHashes floorTokens i (T / c.prefixGranularity * c.prefixGranularity) := by
  have hs := groupIsState_of_closed hc
  have hg := hok.span_pos hs
  have hk : (c.spec i).attnKind = .full := by simpa [groupIsClosed] using hc
  intro j hj
  have hl : j * c.granularity i < T := by
    have := Nat.div_mul_le_self T c.prefixGranularity
    rw [Nat.succ_mul] at hj
    omega
  simp only [GroupAccepts, hk] at hac
  have := hac j hl
  rwa [BlockHeld, resumeKey_eq_pageKey hP hg (hok.span_dvd hs) hj] at this

/-! ## The candidates -/

theorem TierOk.le_candidateBound (h : c.TierOk prompt order floorTokens) {T}
    (hf : floorTokens < T) (hm : T ≤ prompt.maxTokens)
    (hac : ∀ i ∈ order, c.groupIsClosed i = true → c.GroupAccepts hit prompt floorTokens i T) :
    T ≤ c.candidateBound hit prompt order floorTokens := by
  have hP := h.config.granularity_pos
  unfold candidateBound
  split
  · exact hm
  · refine le_min ?_ hm
    have hd : T / c.prefixGranularity ≤ prompt.maxTokens / c.prefixGranularity :=
      Nat.div_le_div_right hm
    have hl := (h.isGreatest_covered hit).2 ⟨h.floor_le_round hf.le, Nat.mul_le_mul_right _ hd,
      dvd_mul_left _ _, fun i hi => by
        obtain ⟨hi, hc⟩ := mem_filter.mp hi
        exact coversPages_of_accepts hP (h.config.group_ok i (h.order_lt i hi)) hc
          (hac i hi hc)⟩
    have := Nat.div_add_mod T c.prefixGranularity
    rw [Nat.mul_comm] at this
    have := Nat.mod_lt T hP
    omega

theorem TierOk.mem_candidates (h : c.TierOk prompt order floorTokens) {fromTokens T}
    (hf : fromTokens ≤ prompt.maxTokens) :
    (∃ b ∈ c.candidateBoundaries prompt floorTokens fromTokens (fromTokens / c.prefixGranularity),
        c.candidateMatches prompt b = true ∧ b.tokens = T) ↔
      floorTokens < T ∧ T ≤ fromTokens ∧ c.IsCandidate prompt T := by
  have hP := h.config.granularity_pos
  constructor
  · rintro ⟨b, hb, hma, rfl⟩
    obtain ⟨page, -, -, hb⟩ := mem_candidateBoundaries.mp hb
    obtain ⟨hp, hlt, hfl, hle⟩ :=
      pageCandidates_bounds hP h.tails h.prompt_ok hb
    have hat : c.AtBoundary b page := ⟨hp, hlt⟩
    refine ⟨hfl, hle, hle.trans hf, ?_⟩
    rcases mem_pageCandidates.mp hb with ⟨-, hk, hm, -⟩ | ⟨-, -, rfl⟩
    · right
      have hpo := (pageTails_bounds hP h.tails h.prompt_ok hm).2.1
      have hh : b.hash = c.boundaryHash prompt b.tokens := by
        rw [← hat.candidateHash_eq hpo]
        simp only [candidateMatches, Bool.or_eq_true, beq_iff_eq] at hma
        exact (hma.resolve_left (by omega)).symm
      refine ⟨hk, by rw [hat.tokens_mod]; omega, ?_⟩
      rw [hat.tokens_div, hat.tokens_mod]
      rcases mem_pageTails.mp hm with ⟨r, hr, rfl⟩ | ⟨t, ht, hl, rfl⟩
      · exact .inl ⟨r, hr, rfl, hh⟩
      · refine .inr ⟨t, ht, ?_, hh⟩
        have hq := (h.prompt_ok.tail_at_bound t ht).2.2
        simp only [CandidateBoundary.tokens, hl, hq]
        rw [Nat.mul_comm]; exact Nat.div_add_mod _ _
    · left; exact dvd_mul_left _ _
  · rintro ⟨hfl, hle, hx, hc⟩
    have hs : T / c.prefixGranularity * c.prefixGranularity + T % c.prefixGranularity = T := by
      rw [Nat.mul_comm]; exact Nat.div_add_mod T _
    have hpg : T / c.prefixGranularity ≤ fromTokens / c.prefixGranularity :=
      Nat.div_le_div_right hle
    have hd := Nat.mod_lt T hP
    have hat : ∀ hash, c.AtBoundary ⟨T / c.prefixGranularity * c.prefixGranularity,
        T % c.prefixGranularity, hash⟩ (T / c.prefixGranularity) := fun _ => ⟨rfl, hd⟩
    have hfr : floorTokens ≤ T / c.prefixGranularity * c.prefixGranularity :=
      (hat []).floor_le h.floor_dvd (by rw [CandidateBoundary.tokens, hs]; exact hfl)
    have hm : ∀ b, b ∈ c.pageCandidates prompt floorTokens fromTokens (T / c.prefixGranularity) →
        b ∈ c.candidateBoundaries prompt floorTokens fromTokens (fromTokens / c.prefixGranularity) :=
      fun b hb => mem_candidateBoundaries.mpr ⟨_, hpg, hfr, hb⟩
    rcases hc with hv | ⟨hk, hne, hta⟩
    · have hT : T / c.prefixGranularity * c.prefixGranularity = T := Nat.div_mul_cancel hv
      refine ⟨_, hm ⟨T, 0, []⟩ (mem_pageCandidates.mpr (.inr ?_)), rfl, rfl⟩
      rw [hT]
      exact ⟨hfl, hle, rfl⟩
    · -- A tail's hash is recorded; both kinds of tail give the same candidate.
      have hg : T / c.prefixGranularity ≤ prompt.prefixHashes.length :=
        (Nat.div_le_div_right hx).trans h.prompt_ok.hashes_cover
      have hn : T ≤ prompt.tokens.length :=
        hx.trans (h.prompt_ok.tokens_cover.resolve_left hk)
      refine ⟨⟨T / c.prefixGranularity * c.prefixGranularity, T % c.prefixGranularity,
        c.boundaryHash prompt T⟩, hm _ (mem_pageCandidates.mpr (.inl ?_)), ?_, hs⟩
      · rw [CandidateBoundary.tokens, hs]
        refine ⟨hg, hk, mem_pageTails.mpr ?_, hle, hx, hfl, hn⟩
        rcases hta with ⟨r, hr, hr1, hr2⟩ | ⟨t, ht, rfl, hh⟩
        · exact .inl ⟨r, hr, by rw [hr1, hr2]⟩
        · exact .inr ⟨t, ht, rfl, by rw [hh, (h.prompt_ok.tail_at_bound t ht).2.2]⟩
      · have : c.candidateHash prompt _ = _ :=
          (hat (c.boundaryHash prompt T)).candidateHash_eq (by show 0 < T % _; omega)
        rw [CandidateBoundary.tokens, hs] at this
        simp [candidateMatches, this]

theorem candidateBound_le : c.candidateBound hit prompt order floorTokens ≤ prompt.maxTokens := by
  unfold candidateBound
  split
  · exact le_rfl
  · exact min_le_right _ _

def tierCandidates (c : CacheCoordinator) (hit : CacheKey → Bool) (prompt : PromptPrefix)
    (order : List Nat) (floorTokens : Nat) : List CandidateBoundary :=
  c.candidateBoundaries prompt floorTokens (c.candidateBound hit prompt order floorTokens)
    (c.candidateBound hit prompt order floorTokens / c.prefixGranularity)

section

variable (h : c.TierOk prompt order floorTokens)
include h

theorem TierOk.pageTokens_le_covered {i pg} {b : CandidateBoundary} (ht : c.AtBoundary b pg) (hi : i ∈ order)
    (hc : c.groupIsClosed i = true) (hl : b.tokens ≤ c.candidateBound hit prompt order floorTokens) : b.pageTokens ≤
    c.coveredTokens hit prompt order floorTokens := by
  have hP := h.config.granularity_pos
  have hn : (order.filter c.groupIsClosed).isEmpty = false := by
    rw [isEmpty_eq_false_iff]
    exact ne_nil_of_mem (mem_filter.mpr ⟨hi, hc⟩)
  rw [candidateBound, hn, if_neg (by simp)] at hl
  have hl := hl.trans (min_le_left _ _)
  obtain ⟨A, hA⟩ := (h.isGreatest_covered hit).1.2.2.1
  rw [CandidateBoundary.tokens] at hl
  rw [hA] at hl ⊢
  rw [ht.pageTokens_eq, Nat.mul_comm] at hl ⊢
  refine Nat.mul_le_mul_left _ (Nat.lt_succ_iff.mp ?_)
  refine Nat.lt_of_mul_lt_mul_left (?_ : c.prefixGranularity * pg < c.prefixGranularity * (A + 1))
  rw [Nat.mul_succ]
  omega

theorem TierOk.candidateAccepted_iff {sub} (hs : ∀ i ∈ sub, i ∈ order) {b : CandidateBoundary}
    (hb : b ∈ c.tierCandidates hit prompt order floorTokens) :
    c.candidateAccepted hit prompt floorTokens sub b = true ↔ c.candidateMatches prompt b = true ∧
        ∀ i ∈ sub, c.GroupAccepts hit prompt floorTokens i b.tokens := by
  have hP := h.config.granularity_pos
  obtain ⟨page, -, -, hb⟩ := mem_candidateBoundaries.mp hb
  obtain ⟨hp, hl, hf, hle⟩ := pageCandidates_bounds hP h.tails h.prompt_ok hb
  have ht : c.AtBoundary b page := ⟨hp, hl⟩
  have hf := ht.floor_le h.floor_dvd hf
  simp only [candidateAccepted, Bool.and_eq_true, all_eq_true]
  refine and_congr_right fun _ => forall₂_congr fun i hi => ?_
  have hok := h.config.group_ok i (h.order_lt i (hs i hi))
  cases hk : (c.spec i).attnKind with
  | state => exact ht.accepts_state hk
  | slidingWindow => exact ht.accepts_sliding hk hok hf
  | full =>
    have hc : c.groupIsClosed i = true := by simp [groupIsClosed, hk]
    have hst := groupIsState_of_closed hc
    refine ht.accepts_full hk hok hf fun j hj => ?_
    have hv := (h.isGreatest_covered hit).1.2.2.2 i
      (mem_filter.mpr ⟨hs i hi, hc⟩) j
      (hj.trans (h.pageTokens_le_covered ht (hs i hi) hc hle))
    rwa [BlockHeld, resumeKey_eq_pageKey hP (hok.span_pos hst) (hok.span_dvd hst)
      (by rw [ht.tokens_div, ← hp]; exact hj)]

/-- The first accepted candidate, for the groups `sub` of the match order that include its closed
ones, is the greatest boundary those groups can resume at. -/
theorem TierOk.isGreatest_resumable {sub}
    (hs : ∀ i ∈ sub, i ∈ order) (hl : ∀ i ∈ order, c.groupIsClosed i = true → i ∈ sub) :
    IsGreatest {T | c.Resumable hit prompt floorTokens sub T}
      (firstValue (c.candidateAccepted hit prompt floorTokens sub) CandidateBoundary.tokens
        floorTokens (c.tierCandidates hit prompt order floorTokens)) := by
  have hP := h.config.granularity_pos
  have hf (b) (hb : b ∈ c.tierCandidates hit prompt order floorTokens) : floorTokens ≤ b.tokens := by
    obtain ⟨pg, -, -, hb⟩ := mem_candidateBoundaries.mp hb
    exact (pageCandidates_bounds hP h.tails h.prompt_ok hb).2.2.1.le
  have hg := isGreatest_firstValue (l := c.tierCandidates hit prompt order floorTokens)
    (c.candidateAccepted hit prompt floorTokens sub)
    (candidateBoundaries_pairwise hP h.tails h.prompt_ok floorTokens _ _) hf
  convert hg using 1
  ext T
  refine or_congr Iff.rfl ?_
  constructor
  · rintro ⟨hf, hd, hac⟩
    have hbo : T ≤ c.candidateBound hit prompt order floorTokens :=
      h.le_candidateBound hf hd.1 fun i hi hc => hac i (hl i hi hc)
    obtain ⟨b, hb, hm, rfl⟩ :=
      (h.mem_candidates candidateBound_le).mpr ⟨hf, hbo, hd⟩
    exact ⟨b, hb, (h.candidateAccepted_iff hs hb).mpr ⟨hm, hac⟩, rfl⟩
  · rintro ⟨b, hb, hac, rfl⟩
    obtain ⟨hm, hac⟩ := (h.candidateAccepted_iff hs hb).mp hac
    obtain ⟨hf, -, hd⟩ := (h.mem_candidates candidateBound_le).mp ⟨b, hb, hm, rfl⟩
    exact ⟨hf, hd, hac⟩

end

/-! ## The tier's result -/

section Result

variable {tier : CacheTier} {cp : Bool} {eh : CacheKey → Bool}

/-- The walk of `probeTier` starts at the candidate bound. -/
theorem probeTier_from : (if (order.filter fun i => c.groupIsClosed i).isEmpty then prompt.maxTokens
      else min ((c.probeTierWithKeys hit (c.buildGroupKeys prompt.prefixHashes)
        (order.filter fun i => c.groupIsClosed i)
        (min prompt.prefixHashes.length (prompt.maxTokens / c.prefixGranularity))
        floorTokens).numCommonTokens + c.prefixGranularity - 1) prompt.maxTokens) =
      c.candidateBound hit prompt order floorTokens := by
  unfold candidateBound
  split
  · rfl
  · rename_i hn
    simp [probeTierWithKeys, hn]
    rfl

theorem probeTier_tokens {out}
    (h : c.probeTier tier prompt (c.buildGroupKeys prompt.prefixHashes) order floorTokens cp eh = out) :
    out.numCommonTokens = firstValue (c.candidateAccepted (c.keyIsHit tier eh) prompt floorTokens order)
        CandidateBoundary.tokens floorTokens (c.tierCandidates (c.keyIsHit tier eh) prompt order floorTokens) ∧
      out.fullPageTokens = firstValue (c.candidateAccepted (c.keyIsHit tier eh) prompt floorTokens order)
        CandidateBoundary.pageTokens floorTokens (c.tierCandidates (c.keyIsHit tier eh) prompt order floorTokens) := by
  rw [← h]
  unfold probeTier
  simp only [probeTier_from]
  rw [← tierCandidates]
  split
  all_goals exact visitCandidates_tokens _ _ (by simp [MemoOk])

theorem probeTier_kvTokens :
    (c.probeTier tier prompt (c.buildGroupKeys prompt.prefixHashes) order floorTokens cp
        eh).kvTokens = if c.spannedGroups order = [] then floorTokens else firstValue
        (c.candidateAccepted (c.keyIsHit tier eh) prompt floorTokens (c.spannedGroups order))
        CandidateBoundary.tokens floorTokens
        (c.tierCandidates (c.keyIsHit tier eh) prompt order floorTokens) := by
  have hse : (order.all c.groupIsState) = true ↔ c.spannedGroups order = [] := by
    simp [spannedGroups]
  unfold probeTier
  simp only [probeTier_from]
  rw [← tierCandidates]
  have hk : ∀ out : ProbeTier, (if out.numCommonTokens = floorTokens then
      { out with perGroup := fun _ => [], tail := none } else out).kvTokens = out.kvTokens := by
    intro out; split <;> rfl
  rw [hk]
  split
  · rename_i hn
    exact visitCandidates_kvTokens_of_settled _ _ (by simp [MemoOk]) (hse.mpr hn)
  · rename_i hs
    exact visitCandidates_kvTokens _ _ (by simp [MemoOk])
      (Bool.eq_false_iff.mpr fun hl => hs (hse.mp hl))

theorem TierOk.longestHit_probeTier (h : c.TierOk prompt order floorTokens) (tier)
    (cp) (eh : CacheKey → Bool) :
    c.LongestHit (c.keyIsHit tier eh) prompt floorTokens order
      (c.probeTier tier prompt (c.buildGroupKeys prompt.prefixHashes) order floorTokens cp
        eh).numCommonTokens
      (c.probeTier tier prompt (c.buildGroupKeys prompt.prefixHashes) order floorTokens cp
        eh).kvTokens where
  common_greatest := by
    rw [(probeTier_tokens rfl).1]
    exact h.isGreatest_resumable (fun _ hi => hi) fun _ hi _ => hi
  kv_greatest := by
    intro hne
    rw [probeTier_kvTokens, if_neg hne]
    exact h.isGreatest_resumable (fun _ hi => mem_of_mem_filter hi)
      fun _ hi hc => mem_filter.mpr ⟨hi, by simp [groupIsState_of_closed hc]⟩
  kv_floor := by
    intro hn
    rw [probeTier_kvTokens, if_pos hn]

theorem TierOk.fullPageTokens_probeTier (h : c.TierOk prompt order floorTokens) (tier)
    (cp) (eh : CacheKey → Bool) :
    (c.probeTier tier prompt (c.buildGroupKeys prompt.prefixHashes) order floorTokens cp
        eh).fullPageTokens =
      (c.probeTier tier prompt (c.buildGroupKeys prompt.prefixHashes) order floorTokens cp
        eh).numCommonTokens / c.prefixGranularity * c.prefixGranularity := by
  have hP := h.config.granularity_pos
  rw [(probeTier_tokens rfl).1, (probeTier_tokens rfl).2]
  refine firstValue_map (fun T => T / c.prefixGranularity * c.prefixGranularity)
    (Nat.div_mul_cancel h.floor_dvd).symm fun b hb => ?_
  obtain ⟨page, -, -, hb⟩ := mem_candidateBoundaries.mp hb
  obtain ⟨hp, hl, -⟩ := pageCandidates_bounds hP h.tails h.prompt_ok hb
  have ht : c.AtBoundary b page := ⟨hp, hl⟩
  rw [ht.tokens_div, hp]

end Result

end TokenSpeed.CacheCoordinator

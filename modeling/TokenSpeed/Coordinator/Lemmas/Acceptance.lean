import TokenSpeed.Coordinator.Lemmas.Probe

/-!
# Acceptance of a boundary

A visit decides about one group as the plain definition does.
-/

namespace TokenSpeed.CacheCoordinator

variable {c : CacheCoordinator} {hit : CacheKey → Bool} {pr : PromptPrefix}

/-! ## One group -/

structure AtBoundary (c : CacheCoordinator) (b : CandidateBoundary) (page : Nat) : Prop where
  pageTokens_eq : b.pageTokens = page * c.prefixGranularity
  tail_lt : b.tailTokens < c.prefixGranularity

namespace AtBoundary

variable {b : CandidateBoundary} {page : Nat}

section

variable (h : c.AtBoundary b page)
include h

theorem tokens_div : b.tokens / c.prefixGranularity = page := by
  rw [CandidateBoundary.tokens, h.pageTokens_eq]
  exact Nat.div_eq_of_lt_le (Nat.le_add_right _ _) (by rw [Nat.succ_mul]; have := h.tail_lt; omega)

theorem tokens_mod : b.tokens % c.prefixGranularity = b.tailTokens := by
  rw [CandidateBoundary.tokens, h.pageTokens_eq, Nat.add_comm, Nat.add_mul_mod_self_right]
  exact Nat.mod_eq_of_lt h.tail_lt

theorem candidateHash_eq (ht : 0 < b.tailTokens) : c.candidateHash pr b = c.boundaryHash pr b.tokens := by
  have hP : 0 < c.prefixGranularity := Nat.lt_of_le_of_lt (Nat.zero_le _) h.tail_lt
  rw [boundaryHash, if_neg (by rw [h.tokens_mod]; omega), candidateHash, h.tokens_mod, h.tokens_div,
    h.pageTokens_eq, Nat.mul_div_cancel _ hP]

variable {i : Nat}

theorem fullBlocks_eq (hd : c.granularity i ∣ c.prefixGranularity) :
    b.pageTokens / c.granularity i = page * (c.prefixGranularity / c.granularity i) := by
  rw [h.pageTokens_eq, Nat.mul_div_assoc _ hd]

theorem resumeKey_tail {o} (ht : 0 < b.tailTokens) :
    c.resumeKey pr i b.tokens (page * (c.prefixGranularity / c.granularity i) + o) =
      { groupId := i, contentHash := c.candidateHash pr b, pageOffset := o } := by
  rw [resumeKey, h.tokens_div, h.candidateHash_eq ht]
  simp

variable {j : Nat}

theorem resumeKey_page
    (hj : j < page * (c.prefixGranularity / c.granularity i)) :
    c.resumeKey pr i b.tokens j =
      { groupId := i
        contentHash := pr.prefixHashes.getD (j / (c.prefixGranularity / c.granularity i)) []
        pageOffset := j % (c.prefixGranularity / c.granularity i) } := by
  rw [resumeKey, h.tokens_div]
  simp [hj]

theorem covering_eq (hg : 0 < c.granularity i) (hd : c.granularity i ∣ c.prefixGranularity) :
    blocksCovering (c.granularity i) b.tokens = page * (c.prefixGranularity / c.granularity i) +
        blocksCovering (c.granularity i) b.tailTokens := by
  rw [CandidateBoundary.tokens, blocksCovering_add hg, h.fullBlocks_eq hd]
  rw [h.pageTokens_eq]; exact Dvd.dvd.mul_left hd page

theorem tailKeys_eq (hs : c.groupIsState i = false) (hg : 0 < c.granularity i) :
    c.candidateTailKeys pr b i = (List.range (blocksCovering (c.granularity i) b.tailTokens)).map fun o =>
        c.resumeKey pr i b.tokens (page * (c.prefixGranularity / c.granularity i) + o) := by
  by_cases ht : 0 < b.tailTokens
  · simp only [candidateTailKeys, ht, if_true, tailKeysForGroup, tailBlocksFor, hs]
    exact List.map_congr_left fun o _ => (h.resumeKey_tail ht).symm
  · have h0 : b.tailTokens = 0 := by omega
    have hz : blocksCovering (c.granularity i) 0 = 0 := by
      rw [blocksCovering]; exact Nat.div_eq_of_lt (by omega)
    simp [candidateTailKeys, h0, hz]

variable {ft : Nat}

theorem accepts_state (hk : (c.spec i).attnKind = .state) :
    (c.groupAcceptsBoundary hit i pr.prefixHashes ft b.pageTokens b.tailTokens
        (c.candidateTailKeys pr b i)).isSome = true ↔
      c.GroupAccepts hit pr ft i b.tokens := by
  have hP : 0 < c.prefixGranularity := Nat.lt_of_le_of_lt (Nat.zero_le _) h.tail_lt
  have hs : c.groupIsState i = true := by simp [groupIsState, hk]
  simp only [groupAcceptsBoundary, GroupAccepts, hk]
  by_cases ht : 0 < b.tailTokens
  · simp [ht, candidateTailKeys, tailKeysForGroup, tailBlocksFor, hs, h.candidateHash_eq ht]
  · have h0 : b.tailTokens = 0 := by omega
    have hm := h.tokens_mod
    rw [h0] at hm
    simp only [h0, lt_irrefl, if_false, boundaryHash, hm, if_true, h.tokens_div, h.pageTokens_eq,
      Nat.mul_div_cancel _ hP]
    split <;> simp_all

theorem floor_le (hd : c.prefixGranularity ∣ ft) (hl : ft < b.tokens) : ft ≤ b.pageTokens := by
  have hP : 0 < c.prefixGranularity := Nat.lt_of_le_of_lt (Nat.zero_le _) h.tail_lt
  obtain ⟨k, rfl⟩ := hd
  rw [h.pageTokens_eq, mul_comm]
  refine Nat.mul_le_mul_right _ ?_
  rw [← h.tokens_div, Nat.le_div_iff_mul_le hP, mul_comm]
  exact hl.le

theorem windowBlockHit_iff
    (hs : c.groupIsState i = false) (hk : c.GroupOk i) (hf : ft ≤ b.pageTokens)
    (hj : j < blocksCovering (c.granularity i) b.tokens) :
    c.windowBlockHit hit i pr.prefixHashes ft b.pageTokens
        (c.candidateTailKeys pr b i) j = true ↔ c.BlockHeld hit pr ft i b.tokens j := by
  have hg := hk.span_pos hs
  have hd := hk.span_dvd hs
  have hb : (j + 1) * c.granularity i ≤ ft ↔ j < ft / c.granularity i := by
    rw [Nat.lt_iff_add_one_le, Nat.le_div_iff_mul_le hg]
  have hm : ft / c.granularity i ≤ b.pageTokens / c.granularity i :=
    Nat.div_le_div_right hf
  rw [h.covering_eq hg hd] at hj
  rw [BlockHeld, hb, windowBlockHit]
  rw [h.fullBlocks_eq hd] at hm ⊢
  split
  · rename_i hge
    obtain ⟨o, rfl⟩ := Nat.exists_eq_add_of_le hge
    have ho : o < blocksCovering (c.granularity i) b.tailTokens := by omega
    have hn : ¬ page * (c.prefixGranularity / c.granularity i) + o <
        ft / c.granularity i := by omega
    simp [h.tailKeys_eq hs hg, hn, ho]
  · rename_i ht
    rw [h.resumeKey_page (by omega)]
    split
    · rename_i hl; simp [hl]
    · rename_i hl; simp [hl]

theorem accepts_sliding (hk : (c.spec i).attnKind = .slidingWindow) (hok : c.GroupOk i)
    (hfl : ft ≤ b.pageTokens) :
    (c.groupAcceptsBoundary hit i pr.prefixHashes ft b.pageTokens b.tailTokens
        (c.candidateTailKeys pr b i)).isSome = true ↔
      c.GroupAccepts hit pr ft i b.tokens := by
  have hs : c.groupIsState i = false := by simp [groupIsState, hk]
  have hm := fun j => mem_slidingWindowBlocks (T := b.tokens) (j := j) (hok.span_pos hs)
    (hok.window_pos hk)
  have hp : ∀ j, j < (c.slidingWindowBlocks i b.tokens).pastEnd →
      j < blocksCovering (c.granularity i) b.tokens := by
    intro j hj; unfold slidingWindowBlocks at hj; dsimp only at hj; split at hj <;> exact hj
  simp only [groupAcceptsBoundary, hk, GroupAccepts, ← CandidateBoundary.tokens.eq_1]
  constructor
  · intro hc j row h1 h2 h3 h4
    obtain ⟨hf, hl⟩ := (hm j).mpr ⟨row, h1, h2, h3, h4⟩
    split at hc
    · rename_i hal
      rw [List.all_eq_true] at hal
      exact (h.windowBlockHit_iff hs hok hfl (hp j hl)).mp
        (hal j (List.mem_range'_1.mpr ⟨hf, by omega⟩))
    · simp at hc
  · intro hh
    rw [if_pos]
    · rfl
    · rw [List.all_eq_true]
      intro j hj
      obtain ⟨hf, hl⟩ := List.mem_range'_1.mp hj
      have hl : j < (c.slidingWindowBlocks i b.tokens).pastEnd := by omega
      obtain ⟨row, h1, h2, h3, h4⟩ := (hm j).mp ⟨hf, hl⟩
      exact (h.windowBlockHit_iff hs hok hfl (hp j hl)).mpr (hh j row h1 h2 h3 h4)

theorem accepts_full (hk : (c.spec i).attnKind = .full) (hok : c.GroupOk i) (hf : ft ≤ b.pageTokens)
    (hp : ∀ j, (j + 1) * c.granularity i ≤ b.pageTokens → c.BlockHeld hit pr ft i b.tokens j) :
    (c.groupAcceptsBoundary hit i pr.prefixHashes ft b.pageTokens b.tailTokens
        (c.candidateTailKeys pr b i)).isSome = true ↔
      c.GroupAccepts hit pr ft i b.tokens := by
  have hs : c.groupIsState i = false := by simp [groupIsState, hk]
  have hg := hok.span_pos hs
  have hd := hok.span_dvd hs
  have hc := h.covering_eq hg hd
  have hl : (c.candidateTailKeys pr b i).all hit = true ↔
      ∀ o < blocksCovering (c.granularity i) b.tailTokens,
        hit (c.resumeKey pr i b.tokens
          (page * (c.prefixGranularity / c.granularity i) + o)) = true := by
    simp [h.tailKeys_eq hs hg]
  have hac : (c.groupAcceptsBoundary hit i pr.prefixHashes ft b.pageTokens
      b.tailTokens (c.candidateTailKeys pr b i)).isSome = true ↔
      (c.candidateTailKeys pr b i).all hit = true := by
    simp only [groupAcceptsBoundary, hk]
    split <;> simp_all
  rw [hac, hl, GroupAccepts, hk]
  constructor
  · intro ht j hj
    rw [← lt_blocksCovering hg, hc] at hj
    rcases lt_or_ge j (page * (c.prefixGranularity / c.granularity i)) with hlt | hge
    · refine hp j ?_
      rw [← Nat.le_div_iff_mul_le hg, h.fullBlocks_eq hd]
      exact hlt
    · obtain ⟨o, rfl⟩ := Nat.exists_eq_add_of_le hge
      exact .inr (ht o (by omega))
  · intro hh o ho
    have hj : page * (c.prefixGranularity / c.granularity i) + o <
        blocksCovering (c.granularity i) b.tokens := by omega
    rcases hh _ ((lt_blocksCovering hg).mp hj) with hle | hhi
    · have := hle.trans hf
      rw [← Nat.le_div_iff_mul_le hg, h.fullBlocks_eq hd] at this
      omega
    · exact hhi

end

end AtBoundary

end TokenSpeed.CacheCoordinator

import TokenSpeed.Coordinator.Resumable
import TokenSpeed.Logic.Descending

/-!
# The walk of the probe

The candidate list holds every boundary the prompt may resume at, longest first; a visit accepts a
candidate exactly when every matched group accepts it by the plain definition.
-/

namespace TokenSpeed.CacheCoordinator

open List

variable {c : CacheCoordinator} {prompt : PromptPrefix}

/-! ## Block arithmetic -/

variable {g T j : Nat}

theorem lt_blocksCovering (hg : 0 < g) : j < blocksCovering g T ↔ j * g < T := by
  rw [blocksCovering, Nat.lt_div_iff_mul_lt hg]
  omega

variable {page : Nat}

theorem blocksCovering_add {t} (hg : 0 < g) (hd : g ∣ page) :
    blocksCovering g (page + t) = page / g + blocksCovering g t := by
  obtain ⟨k, rfl⟩ := hd
  rw [blocksCovering, blocksCovering, Nat.mul_div_cancel_left k hg, Nat.add_assoc, Nat.add_sub_assoc
    (by omega), Nat.add_comm (g * k), Nat.add_mul_div_left _ _ hg]
  omega

theorem mem_slidingWindowBlocks {i} (hg : 0 < c.granularity i) (hW : 0 < (c.spec i).slidingWindow) :
    ((c.slidingWindowBlocks i T).first ≤ j ∧ j < (c.slidingWindowBlocks i T).pastEnd) ↔
      ∃ row, j * c.granularity i ≤ row ∧ row < (j + 1) * c.granularity i ∧
        T < row + (c.spec i).slidingWindow ∧ row < T := by
  unfold slidingWindowBlocks
  generalize c.granularity i = g at hg ⊢
  generalize (c.spec i).slidingWindow = W at hW ⊢
  have hm : (j + 1) * g = j * g + g := Nat.succ_mul j g
  dsimp only
  split
  · constructor
    · rintro ⟨h1, h2⟩; dsimp only at h1 h2; omega
    · rintro ⟨row, h1, h2, h3, h4⟩; omega
  · have hf : (T + 1 - W) / g ≤ j ↔ T + 1 - W < (j + 1) * g := by
      rw [← Nat.lt_succ_iff, Nat.div_lt_iff_lt_mul hg]
    rw [hf, lt_blocksCovering hg]
    constructor
    · rintro ⟨h1, h2⟩
      exact ⟨max (j * g) (T + 1 - W), by omega, by omega, by omega, by omega⟩
    · rintro ⟨row, h1, h2, h3, h4⟩
      exact ⟨by omega, by omega⟩

/-! ## The hash memo -/

def candidateHash (c : CacheCoordinator) (prompt : PromptPrefix) (b : CandidateBoundary) : ContentHash :=
  c.hashPage ((prompt.tokens.drop b.pageTokens).take b.tailTokens)
    (priorHash prompt.prefixHashes (b.pageTokens / c.prefixGranularity))

def MemoOk (c : CacheCoordinator) (prompt : PromptPrefix) (memo : Option HashMemo) : Prop :=
  ∀ m ∈ memo, m.hash = c.candidateHash prompt ⟨m.pageTokens, m.tailTokens, []⟩

variable {memo : Option HashMemo}

theorem tailHash_hash (h : MemoOk c prompt memo) (b) : (c.tailHash prompt memo b).hash = c.candidateHash prompt b := by
  unfold tailHash
  cases memo with
  | none => rfl
  | some m =>
    simp only
    split
    · rename_i hm
      rw [h m rfl, candidateHash, candidateHash, hm.1, hm.2]
    · rfl

theorem memoOk_tailHash (h : MemoOk c prompt memo) (b) : MemoOk c prompt (some (c.tailHash prompt memo b)) := by
  rintro m ⟨⟩
  unfold tailHash
  cases memo with
  | none => rfl
  | some m =>
    simp only
    split
    · exact h m rfl
    · rfl

/-! ## The visits -/

def candidateMatches (c : CacheCoordinator) (prompt : PromptPrefix) (b : CandidateBoundary) : Bool :=
  b.tailTokens == 0 || c.candidateHash prompt b == b.hash

def candidateTailKeys (c : CacheCoordinator) (prompt : PromptPrefix) (b : CandidateBoundary)
    (i : Nat) : List CacheKey :=
  if 0 < b.tailTokens then c.tailKeysForGroup i (c.candidateHash prompt b) b.tailTokens else []

/-- Every group of `order` accepts the candidate, as a visit decides it. -/
def candidateAccepted (c : CacheCoordinator) (hit : CacheKey → Bool) (prompt : PromptPrefix)
    (floorTokens : Nat) (order : List Nat) (b : CandidateBoundary) : Bool :=
  c.candidateMatches prompt b &&
    order.all fun i => (c.groupAcceptsBoundary hit i prompt.prefixHashes floorTokens b.pageTokens
      b.tailTokens (c.candidateTailKeys prompt b i)).isSome

theorem all_filter_split (order : List Nat) (p f : Nat → Bool) :
    order.all f = ((order.filter fun i => !p i).all f && (order.filter fun i => p i).all f) := by
  induction order with
  | nil => rfl
  | cons i order ih =>
    cases h : p i <;> simp [h, ih]
    · rw [Bool.and_assoc]
    · rw [← Bool.and_assoc, ← Bool.and_assoc, Bool.and_comm (f i)]

def nextWalk (c : CacheCoordinator) (hit : CacheKey → Bool) (prompt : PromptPrefix)
    (floorTokens : Nat) (order : List Nat) (b : CandidateBoundary) (w : ProbeWalk) : ProbeWalk :=
  let kv := c.candidateAccepted hit prompt floorTokens (c.spannedGroups order) b
  { out := if kv && !w.kvSettled then { w.out with kvTokens := b.tokens } else w.out
    kvSettled := w.kvSettled || kv
    memo := if 0 < b.tailTokens then some (c.tailHash prompt w.memo b) else w.memo }

variable {b : CandidateBoundary} {floorTokens : Nat} {hit : CacheKey → Bool} {order : List Nat} {w : ProbeWalk}

theorem visitCandidates_cons {claimPartial rest}
    (hm : MemoOk c prompt w.memo) :
    c.visitCandidates hit prompt order floorTokens claimPartial (b :: rest) w =
      if c.candidateAccepted hit prompt floorTokens order b then c.settle order floorTokens claimPartial b
          (if 0 < b.tailTokens then c.candidateHash prompt b else []) (c.candidateTailKeys prompt b)
          (fun i => (c.groupAcceptsBoundary hit i prompt.prefixHashes floorTokens b.pageTokens
            b.tailTokens (c.candidateTailKeys prompt b i)).getD ([], []))
          (c.nextWalk hit prompt floorTokens order b w).out else
        c.visitCandidates hit prompt order floorTokens claimPartial rest
          (c.nextWalk hit prompt floorTokens order b w) := by
  have hh := tailHash_hash hm b
  have hl := all_filter_split order (c.groupIsState) fun i =>
    (c.groupAcceptsBoundary hit i prompt.prefixHashes floorTokens b.pageTokens b.tailTokens
      (c.candidateTailKeys prompt b i)).isSome
  rw [visitCandidates]
  by_cases ht : 0 < b.tailTokens
  · have hk : c.candidateTailKeys prompt b =
        fun i => c.tailKeysForGroup i (c.candidateHash prompt b) b.tailTokens := by
      funext i; simp [candidateTailKeys, ht]
    have h0 : (b.tailTokens == 0) = false := by simp; omega
    by_cases hma : c.candidateHash prompt b = b.hash
    · simp only [hk, hma] at hl
      simp only [ht, hh, hk, candidateAccepted, candidateMatches, hl, nextWalk, h0,
        spannedGroups, if_true, hma, ne_eq, not_true, and_false, if_false, Bool.false_or,
        BEq.rfl, Bool.true_and]
    · have hn : (c.candidateHash prompt b == b.hash) = false := by simpa using hma
      simp [ht, hh, hma, candidateAccepted, candidateMatches, nextWalk, hn, h0]
  · have h0 : b.tailTokens = 0 := by omega
    have hk : c.candidateTailKeys prompt b = fun _ => [] := by
      funext i; simp [candidateTailKeys, h0]
    rw [hk] at hl
    simp only [ht, hk, candidateAccepted, candidateMatches, hl, nextWalk, spannedGroups,
      if_false, false_and, Bool.true_and, show (b.tailTokens == 0) = true by simp [h0],
      Bool.true_or]

theorem memoOk_nextWalk (hm : MemoOk c prompt w.memo) :
    MemoOk c prompt (c.nextWalk hit prompt floorTokens order b w).memo := by
  unfold nextWalk
  split
  · exact memoOk_tailHash hm b
  · exact hm

section Walk

variable {hit : CacheKey → Bool} {order : List Nat} {floorTokens : Nat} {cp : Bool}

theorem visitCandidates_tokens :
    ∀ l w, MemoOk c prompt w.memo →
      (c.visitCandidates hit prompt order floorTokens cp l w).numCommonTokens =
        firstValue (c.candidateAccepted hit prompt floorTokens order) CandidateBoundary.tokens w.out.numCommonTokens l ∧
      (c.visitCandidates hit prompt order floorTokens cp l w).fullPageTokens =
        firstValue (c.candidateAccepted hit prompt floorTokens order) CandidateBoundary.pageTokens
          w.out.fullPageTokens l
  | [], w, _ => ⟨rfl, rfl⟩
  | b :: rs, w, hm => by
    rw [visitCandidates_cons hm]
    cases h : c.candidateAccepted hit prompt floorTokens order b with
    | true =>
      rw [if_pos rfl, firstValue_cons_pos h, firstValue_cons_pos h]
      exact ⟨rfl, rfl⟩
    | false =>
      obtain ⟨hc, hp⟩ := visitCandidates_tokens rs _ (memoOk_nextWalk hm)
      rw [if_neg (by simp), firstValue_cons_neg h, firstValue_cons_neg h, hc, hp]
      unfold nextWalk
      dsimp only
      constructor
      all_goals
        congr 1
        split <;> rfl

theorem visitCandidates_kvTokens_of_settled :
    ∀ l w, MemoOk c prompt w.memo → w.kvSettled = true →
      (c.visitCandidates hit prompt order floorTokens cp l w).kvTokens = w.out.kvTokens
  | [], w, _, _ => rfl
  | b :: rs, w, hm, hs => by
    have ht : (c.nextWalk hit prompt floorTokens order b w).out = w.out := by
      simp [nextWalk, hs]
    rw [visitCandidates_cons hm, ht]
    split
    · rfl
    · rw [visitCandidates_kvTokens_of_settled rs _ (memoOk_nextWalk hm) (by simp [nextWalk, hs]),
        ht]

theorem candidateAccepted_spanned {b} (h : c.candidateAccepted hit prompt floorTokens order b = true) :
    c.candidateAccepted hit prompt floorTokens (c.spannedGroups order) b = true := by
  simp only [candidateAccepted, Bool.and_eq_true, all_eq_true] at h ⊢
  exact ⟨h.1, fun i hi => h.2 i (mem_of_mem_filter hi)⟩

theorem visitCandidates_kvTokens :
    ∀ l w, MemoOk c prompt w.memo → w.kvSettled = false →
      (c.visitCandidates hit prompt order floorTokens cp l w).kvTokens =
        firstValue (c.candidateAccepted hit prompt floorTokens (c.spannedGroups order))
          CandidateBoundary.tokens w.out.kvTokens l
  | [], w, _, _ => rfl
  | b :: rs, w, hm, hs => by
    rw [visitCandidates_cons hm]
    cases hk : c.candidateAccepted hit prompt floorTokens (c.spannedGroups order) b with
    | true =>
      have ht : (c.nextWalk hit prompt floorTokens order b w).out.kvTokens = b.tokens := by
        simp [nextWalk, hs, hk]
      rw [firstValue_cons_pos hk, ← ht]
      split
      · rfl
      · exact visitCandidates_kvTokens_of_settled rs _ (memoOk_nextWalk hm)
          (by simp [nextWalk, hk])
    | false =>
      have hl : c.candidateAccepted hit prompt floorTokens order b = false :=
        Bool.eq_false_iff.mpr fun h => by simp [candidateAccepted_spanned h] at hk
      have hn : (c.nextWalk hit prompt floorTokens order b w).out = w.out := by
        simp [nextWalk, hk]
      rw [firstValue_cons_neg hk, if_neg (by simp [hl]),
        visitCandidates_kvTokens rs _ (memoOk_nextWalk hm) (by simp [nextWalk, hk, hs]), hn]

end Walk

/-! ## The candidate list -/

theorem mem_pageTails : b ∈ c.pageTails prompt page ↔
      (∃ r ∈ c.tails.tails (priorHash prompt.prefixHashes page),
        b = ⟨page * c.prefixGranularity, r.tailTokens, r.hash⟩) ∨
      ∃ t, prompt.tail = some t ∧ page = prompt.maxTokens / c.prefixGranularity ∧
        b = ⟨page * c.prefixGranularity, t.tailTokens, t.hash⟩ := by
  unfold pageTails
  simp only [mem_insertionSort]
  cases ht : prompt.tail with
  | none => simp [eq_comm]
  | some t =>
    dsimp only
    split
    · rename_i h
      simp only [Bool.and_eq_true, decide_eq_true_eq] at h
      simp [h.1, eq_comm]
    · rename_i h
      simp only [mem_map, Option.some.injEq, exists_eq_left']
      constructor
      · rintro ⟨r, hr, rfl⟩
        exact .inl ⟨r, hr, rfl⟩
      · rintro (⟨r, hr, rfl⟩ | ⟨hp, rfl⟩)
        · exact ⟨r, hr, rfl⟩
        · -- The hint is not appended because the same tail is published already.
          simp only [hp, decide_true, Bool.true_and, Bool.not_eq_true, all_eq_false,
            mem_map] at h
          obtain ⟨b, ⟨r, hr, rfl⟩, hb⟩ := h
          simp only [Bool.not_eq_false', Bool.and_eq_true, beq_iff_eq] at hb
          exact ⟨r, hp ▸ hr, by rw [hb.1, hb.2, hp]⟩

def HintOk (c : CacheCoordinator) (prompt : PromptPrefix) : Prop :=
  ∀ t, prompt.tail = some t → 0 < t.tailTokens ∧ t.tailTokens < c.prefixGranularity

theorem PromptOk.hintOk (h : c.PromptOk prompt) (hP : 0 < c.prefixGranularity) : c.HintOk prompt := by
  intro t ht
  obtain ⟨-, hp, hq⟩ := h.tail_at_bound t ht
  exact ⟨hp, hq ▸ Nat.mod_lt _ hP⟩

theorem pageTails_inside (hta : c.TailsOk) (hint : c.HintOk prompt) (hb : b ∈ c.pageTails prompt page) :
    b.pageTokens = page * c.prefixGranularity ∧ 0 < b.tailTokens ∧ b.tailTokens < c.prefixGranularity := by
  rcases mem_pageTails.mp hb with ⟨r, hr, rfl⟩ | ⟨t, ht, -, rfl⟩
  · exact ⟨rfl, hta r (mem_of_mem_filter hr)⟩
  · exact ⟨rfl, hint t ht⟩

theorem pageTails_bounds (hP : 0 < c.prefixGranularity) (ht : c.TailsOk) (hp : c.PromptOk prompt)
    (hb : b ∈ c.pageTails prompt page) : b.pageTokens = page * c.prefixGranularity ∧ 0 < b.tailTokens ∧
      b.tailTokens < c.prefixGranularity :=
  pageTails_inside ht (hp.hintOk hP) hb

theorem pageTails_pairwise (hp : ∀ b ∈ c.pageTails prompt page, b.pageTokens = page * c.prefixGranularity) :
    (c.pageTails prompt page).Pairwise fun a b => b.tokens ≤ a.tokens := by
  have hs : (c.pageTails prompt page).Pairwise fun a b => b.tailTokens ≤ a.tailTokens := by
    have : Std.Total fun a b : CandidateBoundary => b.tailTokens ≤ a.tailTokens :=
      ⟨fun a b => le_total b.tailTokens a.tailTokens⟩
    have : IsTrans CandidateBoundary fun a b => b.tailTokens ≤ a.tailTokens :=
      ⟨fun a b d hab hbd => le_trans hbd hab⟩
    exact pairwise_insertionSort _ _
  refine hs.imp_of_mem fun {a b} ha hb h => ?_
  rw [CandidateBoundary.tokens, CandidateBoundary.tokens, hp a ha, hp b hb]
  omega

variable {fromTokens : Nat}

theorem mem_pageCandidates : b ∈ c.pageCandidates prompt floorTokens fromTokens page ↔
      (page ≤ prompt.prefixHashes.length ∧ prompt.tokens ≠ [] ∧ b ∈ c.pageTails prompt page ∧
        b.tokens ≤ fromTokens ∧ b.tokens ≤ prompt.maxTokens ∧ floorTokens < b.tokens ∧
        b.tokens ≤ prompt.tokens.length) ∨
      (floorTokens < page * c.prefixGranularity ∧ page * c.prefixGranularity ≤ fromTokens ∧
        b = ⟨page * c.prefixGranularity, 0, []⟩) := by
  unfold pageCandidates
  simp only [mem_append]
  refine or_congr ?_ ?_
  · split
    · rename_i h
      simp only [Bool.and_eq_true, decide_eq_true_eq, Bool.not_eq_true', isEmpty_eq_false_iff] at h
      simp [h.1, h.2, and_assoc]
    · rename_i h
      simp only [Bool.and_eq_true, decide_eq_true_eq, Bool.not_eq_true', isEmpty_eq_false_iff,
        not_and] at h
      simp only [not_mem_nil, false_iff]
      rintro ⟨h1, h2, -⟩
      exact h h1 h2
  · split
    · rename_i h; simp [h.1, h.2]
    · rename_i h; simp only [not_mem_nil, false_iff]; tauto

theorem mem_candidateBoundaries :
    ∀ {page}, b ∈ c.candidateBoundaries prompt floorTokens fromTokens page ↔
      ∃ p ≤ page, floorTokens ≤ p * c.prefixGranularity ∧
        b ∈ c.pageCandidates prompt floorTokens fromTokens p
  | 0 => by
    unfold candidateBoundaries
    split
    · rename_i h; simp [h]
    · rename_i h; simp [h]
  | page + 1 => by
    unfold candidateBoundaries
    split
    · rename_i h
      rw [mem_append, mem_candidateBoundaries]
      constructor
      · rintro (hb | ⟨p, hp, hf, hb⟩)
        · exact ⟨page + 1, le_rfl, h, hb⟩
        · exact ⟨p, by omega, hf, hb⟩
      · rintro ⟨p, hp, hf, hb⟩
        rcases lt_or_ge p (page + 1) with hl | hg
        · exact .inr ⟨p, by omega, hf, hb⟩
        · obtain rfl : p = page + 1 := by omega
          exact .inl hb
    · rename_i h
      simp only [not_mem_nil, false_iff, not_exists, not_and]
      intro p hp hf
      exact absurd (hf.trans (Nat.mul_le_mul_right _ hp)) h

theorem pageCandidates_bounds (hP : 0 < c.prefixGranularity) (ht : c.TailsOk) (hr : c.PromptOk prompt)
    (hb : b ∈ c.pageCandidates prompt floorTokens fromTokens page) :
    b.pageTokens = page * c.prefixGranularity ∧ b.tailTokens < c.prefixGranularity ∧
      floorTokens < b.tokens ∧ b.tokens ≤ fromTokens := by
  rcases mem_pageCandidates.mp hb with ⟨-, -, hm, hf, -, hl, -⟩ | ⟨hl, hf, rfl⟩
  · obtain ⟨hp, -, hlt⟩ := pageTails_bounds hP ht hr hm
    exact ⟨hp, hlt, hl, hf⟩
  · exact ⟨rfl, hP, hl, hf⟩

theorem pageCandidates_pairwise (hP : 0 < c.prefixGranularity) (ht : c.TailsOk)
    (hr : c.PromptOk prompt) (floorTokens fromTokens page) :
    (c.pageCandidates prompt floorTokens fromTokens page).Pairwise fun a b => b.tokens ≤ a.tokens := by
  have hd (b) (hb : b ∈ c.pageTails prompt page) := pageTails_bounds hP ht hr hb
  have hs : (c.pageTails prompt page).Pairwise _ :=
    pageTails_pairwise fun b hb => (hd b hb).1
  refine pairwise_append.mpr ⟨?_, ?_, ?_⟩
  · split
    · exact hs.filter _
    · exact Pairwise.nil
  · split <;> simp
  · intro a ha b hb
    split at hb
    · rw [mem_singleton] at hb
      subst hb
      split at ha
      · have hp := (hd a (mem_of_mem_filter ha)).1
        simp only [CandidateBoundary.tokens, hp]
        omega
      · simp at ha
    · simp at hb

theorem candidateBoundaries_pairwise (hP : 0 < c.prefixGranularity) (ht : c.TailsOk)
    (hr : c.PromptOk prompt) (floorTokens fromTokens) :
    ∀ page, (c.candidateBoundaries prompt floorTokens fromTokens page).Pairwise
      fun a b => b.tokens ≤ a.tokens
  | 0 => by
    unfold candidateBoundaries
    split
    · exact pageCandidates_pairwise hP ht hr _ _ _
    · exact Pairwise.nil
  | page + 1 => by
    unfold candidateBoundaries
    split
    · refine pairwise_append.mpr ⟨pageCandidates_pairwise hP ht hr _ _ _,
        candidateBoundaries_pairwise hP ht hr _ _ page, fun a ha b hb => ?_⟩
      obtain ⟨p, hp, -, hb⟩ := mem_candidateBoundaries.mp hb
      have ha := pageCandidates_bounds hP ht hr ha
      have hb := pageCandidates_bounds hP ht hr hb
      have hl : (p + 1) * c.prefixGranularity ≤ (page + 1) * c.prefixGranularity :=
        Nat.mul_le_mul_right _ (by omega)
      rw [Nat.succ_mul] at hl
      rw [CandidateBoundary.tokens, CandidateBoundary.tokens, ha.1, hb.1]
      omega
    · exact Pairwise.nil

end TokenSpeed.CacheCoordinator

import TokenSpeed.Engine.GrammarHost
import Mathlib.Algebra.Order.BigOperators.Group.Finset
import TokenSpeed.Logic.Updates

/-!
# Advances follow the forwards

The invariant in four parts: how far the node, the samples and the resolver have come; what was advanced; what the
pinned buffers hold; and who holds the handles.
-/

namespace TokenSpeed.Engine

open Function GrammarBatch List Option

variable {σ : Type} {A : Automaton σ}

theorem getElem?_concat_cases {α : Type} {l : List α} {a b j} (h : (l ++ [a])[j]? = some b) :
    l[j]? = some b ∧ j ≠ l.length ∨ j = l.length ∧ b = a := by
  rcases lt_trichotomy j l.length with hl | rfl | hgt
  · rw [getElem?_append_left hl] at h
    exact .inl ⟨h, hl.ne⟩
  · rw [getElem?_concat_length] at h
    exact .inr ⟨rfl, (some.inj h).symm⟩
  · rw [getElem?_eq_none_iff.mpr (by simp; omega)] at h
    cases h

/-! ## A row -/

theorem Automaton.loop_eq_walk (tokens : List Int) (o) : ∀ (left j : Nat) (s : σ),
    A.loop tokens o left j s = A.walk s ((tokens.drop (o + j)).take left) j
  | 0, j, s => by simp [loop, walk]
  | left + 1, j, s => by
    unfold loop
    cases ht : tokens[o + j]? with
    | none =>
      rw [drop_eq_nil_of_le (getElem?_eq_none_iff.mp ht)]
      simp [walk]
    | some tk =>
      obtain ⟨hl, rfl⟩ := List.getElem?_eq_some_iff.mp ht
      rw [drop_eq_getElem_cons hl, take_succ_cons]
      simp only [walk]
      split
      · rfl
      · split
        · rfl
        · rw [loop_eq_walk tokens o left (j + 1)]
          rfl

variable {b : GrammarBatch} {i handle : Nat}

theorem GrammarBatch.advances_lt (hr : b.advances i = some handle) : i < b.rows.length := by
  obtain ⟨row, hg, _⟩ := bind_eq_some_iff.mp hr
  exact (List.getElem?_eq_some_iff.mp hg).1

theorem GrammarBatch.uses_pos (hr : b.advances i = some handle) : 0 < b.uses handle := by
  obtain ⟨row, hg, hd⟩ := bind_eq_some_iff.mp hr
  split at hd
  · exact length_pos_of_mem (mem_filter.mpr ⟨mem_of_getElem? hg, by simpa using hd⟩)
  · cases hd

theorem ForwardOutput.Covers.read {out : ForwardOutput} (hc : out.Covers b) (hr : b.advances i = some handle) (rest)
    (mr)
    : ((out.tokens ++ rest).drop (b.tokenOffset i)).take ((out.lengths ++ mr).getD i 0) = out.rowTokens b i := by
  have ht := advances_lt hr
  have hf := hc.2 i ht (by rw [hr]; rfl)
  have hl : (out.lengths ++ mr).getD i 0 = out.lengths.getD i 0 := by
    rw [getD_eq_getElem?_getD, getD_eq_getElem?_getD, getElem?_append_left (by have := hc.1; omega)]
  rw [hl, drop_append_of_le_length (by omega), take_append_of_le_length (by rw [length_drop]; omega)]
  rfl

namespace GrammarRun

/-! ## The parts of the invariant -/

def AtTarget (started resolved : Nat) (node : NodePhase) (resolving : ResolvePhase) (k : Nat) : GrammarThread → Prop
  | .node => node = .advance ∧ k + 2 = started
  | .resolver => resolving = .host ∧ k = resolved

structure Frontier (added sampled started resolved : Nat) (node : NodePhase) (resolving : ResolvePhase)
    (status : Nat → BatchStatus) : Prop where
  bounds : resolved ≤ sampled ∧ sampled ≤ started ∧ started ≤ added ∧ started ≤ sampled + 1
  busy : node ≠ .idle → sampled + 1 = started
  previous : node = .advance → 2 ≤ started
  taken : resolving ≠ .idle → resolved < sampled
  claimed : ∀ k who i ends, status k = .advancing who i ends → AtTarget started resolved node resolving k who
  resolvedDone : ∀ k < resolved, status k = .done
  nodeDone : ∀ k, k + 2 < started ∨ k + 2 = started ∧ node ≠ .advance → status k = .done

def rowsDone (b : GrammarBatch) : BatchStatus → Nat
  | .pending => 0
  | .advancing _ i _ => i
  | .done => b.rows.length

structure LogOk (A : Automaton σ) (initial : Nat → σ) (batches : List GrammarBatch) (outputs : List ForwardOutput)
    (status : Nat → BatchStatus) (terminatedAt : Nat → List Int) (matchers : Nat → σ) (log : List (Advance σ)) :
    Prop where
  rows : ∀ e ∈ log, ∃ b out, batches[e.forward]? = some b ∧ outputs[e.forward]? = some out ∧
    b.advances e.row = some e.handle ∧ (e.after, e.ended) = A.advanced e.before (out.rowTokens b e.row)
  order : log.Pairwise fun e e' => e.forward < e'.forward ∨ e.forward = e'.forward ∧ e.row < e'.row
  chain : ∀ earlier e later, log = earlier ++ e :: later → e.before = stateBy initial earlier e.handle
  state : ∀ handle, matchers handle = stateBy initial log handle
  behind : ∀ e ∈ log, (∀ k < e.forward, status k = .done) ∧ ∀ b, batches[e.forward]? = some b →
    e.row < rowsDone b (status e.forward)
  all : ∀ k b, batches[k]? = some b → ∀ i handle, b.advances i = some handle → i < rowsDone b (status k) →
    ∃ e ∈ log, e.forward = k ∧ e.row = i ∧ e.handle = handle
  ends : ∀ k b, batches[k]? = some b → status k = .done →
    terminatedAt k = (List.range b.rows.length).map (endedAt log k)
  ending : ∀ k who i ends, status k = .advancing who i ends → ∃ b, batches[k]? = some b ∧ i ≤ b.rows.length ∧
    ends = (List.range i).map (endedAt log k)

structure Buffers (batches : List GrammarBatch) (outputs : List ForwardOutput) (tokens : List Int)
    (lengths : List Nat) : Prop where
  covers : ∀ (k : Nat) (b : GrammarBatch) (out : ForwardOutput), batches[k]? = some b → outputs[k]? = some out →
    out.Covers b
  last : ∀ out, outputs.getLast? = some out → (∃ rest, tokens = out.tokens ++ rest) ∧
    ∃ more, lengths = out.lengths ++ more

structure Held (batches : List GrammarBatch) (started resolved : Nat) (node : NodePhase) (known live : Nat → Bool)
    (holds : Nat → Nat) (dropped : Nat → Bool) : Prop where
  known : ∀ handle, live handle = true → known handle = true
  count : ∀ handle, holds handle = (if live handle then 1 else 0) +
    ∑ k ∈ Finset.range batches.length, if dropped k then 0 else (batches[k]?).elim 0 (·.uses handle)
  behind : ∀ k, dropped k = true → k < resolved ∧ k + 2 ≤ started ∧ (node ≠ .idle → k + 2 < started)

structure Inv (A : Automaton σ) (initial : Nat → σ) (h : GrammarRun σ) : Prop where
  frontier : Frontier h.batches.length h.outputs.length h.started h.resolved h.node h.resolving h.status
  log : LogOk A initial h.batches h.outputs h.status h.terminatedAt h.matchers h.log
  buffers : Buffers h.batches h.outputs h.bufferTokens h.bufferLengths
  held : Held h.batches h.started h.resolved h.node h.known h.live h.holds h.dropped

variable {initial : Nat → σ} {h h' : GrammarRun σ} {who : GrammarThread} {k i : Nat} {b : GrammarBatch}
  {ends : List Int}

theorem atTarget_of_target (hfr : h.node = .advance → 2 ≤ h.started) (ht : h.target who = some k) :
    AtTarget h.started h.resolved h.node h.resolving k who := by
  cases who with
  | node =>
    simp only [target] at ht
    split at ht
    · next hn =>
      cases ht
      exact ⟨hn, Nat.sub_add_cancel (hfr hn)⟩
    · cases ht
  | resolver =>
    simp only [target] at ht
    split at ht
    · next hr => exact ⟨hr, (some.inj ht).symm⟩
    · cases ht

theorem Frontier.before {added sampled started resolved node resolving} {status : Nat → BatchStatus}
    (hfr : Frontier added sampled started resolved node resolving status)
    (ht : AtTarget started resolved node resolving k who) : (∀ j < k, status j = .done) ∧ k < sampled := by
  cases who with
  | node =>
    obtain ⟨hn, hk⟩ := ht
    have hb := hfr.busy (by rw [hn]; decide)
    exact ⟨fun j hj => hfr.nodeDone j (.inl (by omega)), by omega⟩
  | resolver =>
    obtain ⟨hr, rfl⟩ := ht
    exact ⟨hfr.resolvedDone, hfr.taken (by rw [hr]; decide)⟩

variable {handle : Nat}

theorem rowResult_eq (hin : Inv A initial h) (ht : AtTarget h.started h.resolved h.node h.resolving k who)
    (hba : h.batches[k]? = some b) (hw : b.advances i = some handle) (s : σ) :
    ∃ out, h.outputs[k]? = some out ∧ h.rowResult A who b i s = A.advanced s (out.rowTokens b i) := by
  have hk := (hin.frontier.before ht).2
  refine ⟨h.outputs[k], getElem?_eq_getElem hk, ?_⟩
  have hc := hin.buffers.covers k b _ hba (getElem?_eq_getElem hk)
  unfold rowResult Automaton.advanced
  split
  · rfl
  · rw [Automaton.loop_eq_walk]
    cases who with
    | node =>
      obtain ⟨hn, hs⟩ := ht
      have hb := hin.frontier.busy (by rw [hn]; decide)
      have hl : h.outputs.getLast? = some h.outputs[k] := by
        rw [getLast?_eq_getElem?, show h.outputs.length - 1 = k by omega, getElem?_eq_getElem hk]
      obtain ⟨⟨rest, hto⟩, mr, hle⟩ := hin.buffers.last _ hl
      simp only [source, hto, hle, add_zero, hc.read hw rest mr]
      rfl
    | resolver =>
      obtain ⟨_, rfl⟩ := ht
      simp only [source, getElem?_eq_getElem hk, elim_some, add_zero]
      rfl

/-! ## The log -/

section Log

variable {batches : List GrammarBatch} {outputs : List ForwardOutput} {status : Nat → BatchStatus}
  {terminatedAt : Nat → List Int} {matchers : Nat → σ} {log : List (Advance σ)}

variable {e : Advance σ}

theorem endedAt_append_of_ne (hne : ¬(e.forward = k ∧ e.row = i)) : endedAt (log ++ [e]) k i = endedAt log k i := by
  have hn : ([e].find? fun e => e.forward = k ∧ e.row = i) = none := by simpa using hne
  rw [endedAt, find?_append, hn, or_none]
  rfl

theorem find?_of_absent (hs : ∀ e ∈ log, ¬(e.forward = k ∧ e.row = i)) :
    (log.find? fun e => e.forward = k ∧ e.row = i) = none := by
  rw [find?_eq_none]
  intro e he
  simpa using hs e he

theorem endedAt_of_absent (hs : ∀ e ∈ log, ¬(e.forward = k ∧ e.row = i)) : endedAt log k i = -1 := by
  rw [endedAt, find?_of_absent hs]
  rfl

theorem endedAt_append_self (hs : ∀ x ∈ log, ¬(x.forward = e.forward ∧ x.row = e.row)) :
    endedAt (log ++ [e]) e.forward e.row = e.ended := by
  rw [endedAt, find?_append, find?_of_absent hs, none_or, find?_cons_of_pos (by simp)]
  rfl

variable (hlo : LogOk A initial batches outputs status terminatedAt matchers log)
include hlo

theorem LogOk.forward_lt (he : e ∈ log) : e.forward < outputs.length := by
  obtain ⟨_, out, _, ht, _⟩ := hlo.rows e he
  exact (List.getElem?_eq_some_iff.mp ht).1

theorem LogOk.add (had : outputs.length ≤ batches.length) (b : GrammarBatch) :
    LogOk A initial (batches ++ [b]) outputs (update status batches.length (if b.hasMatcher then .pending else .done))
      (update terminatedAt batches.length (replicate b.rows.length (-1))) matchers log := by
  have hold : ∀ e ∈ log, e.forward < batches.length := fun e he => (hlo.forward_lt he).trans_le had
  have hn : b.hasMatcher = false → ∀ j, b.advances j = none := by
    intro hf j
    cases hw : b.advances j with
    | none => rfl
    | some handle =>
      obtain ⟨row, hg, hhn⟩ := bind_eq_some_iff.mp hw
      have hs := any_eq_false.mp hf row (mem_of_getElem? hg)
      split at hhn
      · simp [hhn] at hs
      · cases hhn
  refine ⟨fun e he => ?_, hlo.order, hlo.chain, hlo.state, fun e he => ⟨fun j hj => ?_, fun c hc => ?_⟩,
    fun j c hc i handle hw hi => ?_, fun j c hc hd => ?_, fun j who i ends hv => ?_⟩
  · obtain ⟨c, out, hc, hr⟩ := hlo.rows e he
    exact ⟨c, out, by rw [getElem?_append_left (hold e he)]; exact hc, hr⟩
  · have hl := hold e he
    rw [update_of_ne (by omega)]
    exact (hlo.behind e he).1 j hj
  · have hl := hold e he
    rw [getElem?_append_left hl] at hc
    rw [update_of_ne (by omega)]
    exact (hlo.behind e he).2 c hc
  · rcases getElem?_concat_cases hc with ⟨hc, hne⟩ | ⟨rfl, rfl⟩
    · rw [update_of_ne hne] at hi
      exact hlo.all j c hc i handle hw hi
    · rw [update_self] at hi
      split at hi
      · exact absurd hi (Nat.not_lt_zero i)
      · next hf =>
        rw [hn (by simpa using hf)] at hw
        cases hw
  · rcases getElem?_concat_cases hc with ⟨hc, hne⟩ | ⟨rfl, rfl⟩
    · rw [update_of_ne hne] at hd ⊢
      exact hlo.ends j c hc hd
    · rw [update_self]
      refine (eq_replicate_iff.mpr ⟨by simp, fun x hx => ?_⟩).symm
      obtain ⟨i, _, rfl⟩ := mem_map.mp hx
      exact endedAt_of_absent fun e he hm => absurd hm.1 (hold e he).ne
  · rcases update_cases hv with ⟨rfl, hu⟩ | ⟨-, hv⟩
    · split at hu <;> cases hu
    · obtain ⟨c, hc, hr⟩ := hlo.ending j who i ends hv
      exact ⟨c, by rw [getElem?_append_left (List.getElem?_eq_some_iff.mp hc).1]; exact hc, hr⟩

theorem LogOk.restatus {s} {terminatedAt' : Nat → List Int} (hba : batches[k]? = some b) (hp : status k ≠ .done)
    (hr : rowsDone b (status k) ≤ rowsDone b s)
    (hl : ∀ i handle, b.advances i = some handle → i < rowsDone b s → i < rowsDone b (status k))
    (ht : ∀ j, j ≠ k → terminatedAt' j = terminatedAt j)
    (hn : s = .done → terminatedAt' k = (range b.rows.length).map (endedAt log k))
    (hei : ∀ who i ends, s = .advancing who i ends → i ≤ b.rows.length ∧ ends = (range i).map (endedAt log k)) :
    LogOk A initial batches outputs (update status k s) terminatedAt' matchers log := by
  refine ⟨hlo.rows, hlo.order, hlo.chain, hlo.state, fun e he => ⟨fun j hj => ?_, fun c hc => ?_⟩,
    fun j c hc i handle hw hi => ?_, fun j c hc hd => ?_, fun j who i ends hv => ?_⟩
  · have hd := (hlo.behind e he).1 j hj
    rw [update_of_ne (by rintro rfl; exact hp hd)]
    exact hd
  · have hw := (hlo.behind e he).2 c hc
    by_cases hf : e.forward = k
    · rw [hf] at hc hw ⊢
      cases hba.symm.trans hc
      rw [update_self]
      exact hw.trans_le hr
    · rw [update_of_ne hf]
      exact hw
  · by_cases hj : j = k
    · subst hj
      cases hba.symm.trans hc
      rw [update_self] at hi
      exact hlo.all j b hc i handle hw (hl i handle hw hi)
    · rw [update_of_ne hj] at hi
      exact hlo.all j c hc i handle hw hi
  · by_cases hj : j = k
    · subst hj
      cases hba.symm.trans hc
      rw [update_self] at hd
      exact hn hd
    · rw [update_of_ne hj] at hd
      rw [ht j hj]
      exact hlo.ends j c hc hd
  · rcases update_cases hv with ⟨rfl, hu⟩ | ⟨-, hv⟩
    · exact ⟨b, hba, hei who i ends hu⟩
    · exact hlo.ending j who i ends hv

theorem LogOk.claim (hba : batches[k]? = some b) (hp : status k = .pending) :
    LogOk A initial batches outputs (update status k (.advancing who 0 [])) terminatedAt matchers log := by
  refine hlo.restatus hba (by rw [hp]; decide) (by rw [hp]; rfl) (fun i _ _ hi => absurd hi (Nat.not_lt_zero i))
    (fun _ _ => rfl) (fun hd => by cases hd) fun who i ends hv => ?_
  cases hv
  exact ⟨Nat.zero_le _, rfl⟩

theorem LogOk.finish (hba : batches[k]? = some b) (hst : status k = .advancing who b.rows.length ends) :
    LogOk A initial batches outputs (update status k .done) (update terminatedAt k ends) matchers log := by
  refine hlo.restatus hba (by rw [hst]; exact BatchStatus.noConfusion) (by rw [hst]; rfl)
    (fun i _ _ hi => by rw [hst]; exact hi) (fun j hj => update_of_ne hj ..) (fun _ => ?_) fun _ _ _ hv => by cases hv
  obtain ⟨_, _, _, hn⟩ := hlo.ending k who b.rows.length ends hst
  rw [update_self, hn]

theorem LogOk.sample (out) : LogOk A initial batches (outputs ++ [out]) status terminatedAt matchers log :=
  ⟨fun e he => by
      obtain ⟨c, o, hc, ho, hr⟩ := hlo.rows e he
      exact ⟨c, o, hc, by rw [getElem?_append_left (hlo.forward_lt he)]; exact ho, hr⟩,
    hlo.order, hlo.chain, hlo.state, hlo.behind, hlo.all, hlo.ends, hlo.ending⟩

section Row

variable (hba : batches[k]? = some b) (hst : status k = .advancing who i ends)
include hba hst

variable {e : Advance σ}

theorem LogOk.at_row (he : e ∈ log) : e.forward < k ∨ e.forward = k ∧ e.row < i := by
  rcases lt_trichotomy e.forward k with hl | hq | hgt
  · exact .inl hl
  · have hr := (hlo.behind e he).2 b (hq ▸ hba)
    rw [hq, hst] at hr
    exact .inr ⟨hq, hr⟩
  · have hd := (hlo.behind e he).1 k hgt
    rw [hst] at hd
    cases hd

theorem LogOk.absent (he : e ∈ log) : ¬(e.forward = k ∧ e.row = i) := by
  rintro ⟨hf, hr⟩
  rcases hlo.at_row hba hst he with hl | ⟨_, hl⟩
  · omega
  · omega

theorem LogOk.pass (hi : i < b.rows.length) (hf : b.advances i = none) :
    LogOk A initial batches outputs (update status k (.advancing who (i + 1) (ends ++ [-1]))) terminatedAt matchers
      log := by
  refine hlo.restatus hba (by rw [hst]; exact BatchStatus.noConfusion) (by rw [hst]; exact Nat.le_succ i)
    (fun i' handle hr hi' => ?_) (fun _ _ => rfl) (fun hd => by cases hd) fun who i' ends' hv => ?_
  · rw [hst]
    rcases Nat.lt_succ_iff_lt_or_eq.mp hi' with hl | rfl
    · exact hl
    · rw [hf] at hr
      cases hr
  · cases hv
    obtain ⟨_, _, _, hn⟩ := hlo.ending k _ i ends hst
    refine ⟨hi, ?_⟩
    rw [range_succ, map_append, map_singleton, ← hn, endedAt_of_absent fun e he => hlo.absent hba hst he]

theorem LogOk.advance {out : ForwardOutput} {handle s endAt} (hi : i < b.rows.length) (hw : b.advances i = some handle)
    (ht : outputs[k]? = some out) (hb : ∀ j < k, status j = .done)
    (hre : (s, endAt) = A.advanced (matchers handle) (out.rowTokens b i)) :
    LogOk A initial batches outputs (update status k (.advancing who (i + 1) (ends ++ [endAt]))) terminatedAt
      (update matchers handle s) (log ++ [⟨k, i, handle, matchers handle, s, endAt⟩]) := by
  refine ⟨forall_mem_append.mpr ⟨hlo.rows, forall_mem_singleton.mpr ⟨b, out, hba, ht, hw, hre⟩⟩, ?_,
    fun er e lt hp => ?_,
    fun handle' => ?_, fun e he => ?_, fun j c hc i' handle' hw' hi' => ?_, fun j c hc hd => ?_,
      fun j who' i' ends' hv => ?_⟩
  · refine pairwise_append.mpr ⟨hlo.order, pairwise_singleton _ _, fun e he e' he' => ?_⟩
    cases mem_singleton.mp he'
    exact hlo.at_row hba hst he
  · rcases eq_nil_or_concat lt with rfl | ⟨lt, ls, rfl⟩
    · obtain ⟨rfl, hq⟩ := append_inj' hp rfl
      cases hq
      exact hlo.state handle
    · rw [concat_eq_append, ← cons_append, ← append_assoc] at hp
      exact hlo.chain er e lt (append_inj' hp rfl).1
  · simp only [stateBy, foldl_append, foldl_cons, foldl_nil]
    by_cases hn : handle = handle'
    · rw [if_pos hn, hn, update_self]
    · rw [if_neg hn, update_of_ne (Ne.symm hn)]
      exact hlo.state handle'
  · rcases mem_append.mp he with he | he
    · refine ⟨fun j hj => ?_, fun c hc => ?_⟩
      · have hd := (hlo.behind e he).1 j hj
        rw [update_of_ne (by rintro rfl; rw [hst] at hd; cases hd)]
        exact hd
      · rcases hlo.at_row hba hst he with hlt | ⟨hq, hlt⟩
        · rw [update_of_ne hlt.ne]
          exact (hlo.behind e he).2 c hc
        · rw [hq, update_self]
          exact hlt.trans (Nat.lt_succ_self i)
    · cases mem_singleton.mp he
      refine ⟨fun j hj => ?_, fun c _ => ?_⟩
      · rw [update_of_ne (ne_of_lt hj)]
        exact hb j hj
      · rw [update_self]
        exact Nat.lt_succ_self i
  · by_cases hj : j = k
    · subst hj
      cases hba.symm.trans hc
      rw [update_self] at hi'
      rcases Nat.lt_succ_iff_lt_or_eq.mp hi' with hlt | rfl
      · obtain ⟨e, he, hr⟩ := hlo.all j b hc i' handle' hw' (by rw [hst]; exact hlt)
        exact ⟨e, mem_append_left _ he, hr⟩
      · cases hw.symm.trans hw'
        exact ⟨_, mem_append_right _ (mem_singleton_self _), rfl, rfl, rfl⟩
    · rw [update_of_ne hj] at hi'
      obtain ⟨e, he, hr⟩ := hlo.all j c hc i' handle' hw' hi'
      exact ⟨e, mem_append_left _ he, hr⟩
  · rcases update_cases hd with ⟨rfl, hu1⟩ | ⟨hj, hd⟩
    · cases hu1
    · rw [hlo.ends j c hc hd]
      exact map_congr_left fun i' _ => (endedAt_append_of_ne fun hs => hj hs.1.symm).symm
  · rcases update_cases hv with ⟨rfl, hu⟩ | ⟨hj, hv⟩
    · cases hu
      obtain ⟨_, _, _, hen⟩ := hlo.ending j who i ends hst
      have hf := endedAt_append_self (e := ⟨j, i, handle, matchers handle, s, endAt⟩) fun x hx => hlo.absent hba hst hx
      refine ⟨b, hba, hi, ?_⟩
      rw [range_succ, map_append, map_singleton, hf, hen]
      exact congrArg (· ++ [endAt]) (map_congr_left fun i' hi' =>
        (endedAt_append_of_ne fun hs => (mem_range.mp hi').ne' hs.2).symm)
    · obtain ⟨c, hc, hl, hen⟩ := hlo.ending j who' i' ends' hv
      refine ⟨c, hc, hl, ?_⟩
      rw [hen]
      exact map_congr_left fun i' _ => (endedAt_append_of_ne fun hs => hj hs.1.symm).symm

end Row

end Log

/-! ## How far they have come -/

section Frontier

variable {added sampled started resolved : Nat} {node : NodePhase} {resolving : ResolvePhase}
  {status : Nat → BatchStatus} (hfr : Frontier added sampled started resolved node resolving status)
include hfr

theorem Frontier.add {s} (hn : ∀ who i ends, s ≠ .advancing who i ends) :
    Frontier (added + 1) sampled started resolved node resolving (update status added s) := by
  have hb := hfr.bounds
  refine ⟨by omega, hfr.busy, hfr.previous, hfr.taken, fun j who i ends hv => ?_, fun j hj => ?_, fun j hj => ?_⟩
  · rcases update_cases hv with ⟨rfl, hu⟩ | ⟨-, hv⟩
    · exact absurd hu (hn who i ends)
    · exact hfr.claimed j who i ends hv
  · rw [update_of_ne (by omega)]
    exact hfr.resolvedDone j hj
  · rw [update_of_ne (by omega)]
    exact hfr.nodeDone j hj

theorem Frontier.claim (ht : AtTarget started resolved node resolving k who) (hp : status k ≠ .done) (i) (ends) :
    Frontier added sampled started resolved node resolving (update status k (.advancing who i ends)) := by
  have hk : ∀ {j}, status j = .done → update status k (.advancing who i ends) j = .done := fun {j} hd => by
    rw [update_of_ne (by rintro rfl; exact hp hd)]
    exact hd
  refine ⟨hfr.bounds, hfr.busy, hfr.previous, hfr.taken, fun j who' i' ends' hv => ?_,
    fun j hj => hk (hfr.resolvedDone j hj), fun j hj => hk (hfr.nodeDone j hj)⟩
  rcases update_cases hv with ⟨rfl, hu⟩ | ⟨-, hv⟩
  · cases hu
    exact ht
  · exact hfr.claimed j who' i' ends' hv

theorem Frontier.done (k) : (∀ j, status j = .done → update status k .done j = .done) ∧
    ∀ j who i ends, update status k .done j = .advancing who i ends → j ≠ k ∧
      AtTarget started resolved node resolving j who := by
  refine ⟨fun j hd => ?_, fun j who i ends hv => ?_⟩
  · by_cases hj : j = k
    · rw [hj, update_self]
    · rw [update_of_ne hj]
      exact hd
  · rcases update_cases hv with ⟨rfl, hu⟩ | ⟨hj, hv⟩
    · cases hu
    · exact ⟨hj, hfr.claimed j who i ends hv⟩

variable {status' : Nat → BatchStatus}

theorem Frontier.leave_node (hn : node = .advance) (hk : k + 2 = started) (hd : status' k = .done)
    (hp : ∀ j, status j = .done → status' j = .done)
    (hc : ∀ j who i ends, status' j = .advancing who i ends → j ≠ k ∧ AtTarget started resolved node resolving j who) :
    Frontier added sampled started resolved .fill resolving status' := by
  refine ⟨hfr.bounds, fun _ => hfr.busy (by rw [hn]; decide), (fun hf => by cases hf), hfr.taken,
    fun j who i ends hv => ?_, fun j hj => hp j (hfr.resolvedDone j hj), fun j hj => ?_⟩
  · obtain ⟨hne, ht⟩ := hc j who i ends hv
    cases who with
    | node =>
      obtain ⟨_, hj⟩ := ht
      omega
    | resolver => exact ht
  · by_cases hjk : j = k
    · rw [hjk]
      exact hd
    · exact hp j (hfr.nodeDone j (.inl (by omega)))

theorem Frontier.leave_resolver (hr : resolving ≠ .idle) (hd : status' resolved = .done)
    (hk : ∀ j, status j = .done → status' j = .done)
    (hc : ∀ j who i ends, status' j = .advancing who i ends → j ≠ resolved ∧
      AtTarget started resolved node resolving j who) :
    Frontier added sampled started (resolved + 1) node .idle status' := by
  have hb := hfr.bounds
  have hl := hfr.taken hr
  refine ⟨by omega, hfr.busy, hfr.previous, absurd rfl,
    fun j who i ends hv => ?_, fun j hj => ?_, fun j hj => hk j (hfr.nodeDone j hj)⟩
  · obtain ⟨hn, ht⟩ := hc j who i ends hv
    cases who with
    | node => exact ht
    | resolver => exact absurd ht.2 hn
  · rcases Nat.lt_succ_iff_lt_or_eq.mp hj with hl | rfl
    · exact hk j (hfr.resolvedDone j hl)
    · exact hd

theorem Frontier.free (hd : status k = .done) (j) (who) (i) (ends)
    (hv : status j = .advancing who i ends) : j ≠ k ∧ AtTarget started resolved node resolving j who := by
  refine ⟨?_, hfr.claimed j who i ends hv⟩
  rintro rfl
  rw [hd] at hv
  cases hv

theorem Frontier.start (hn : node = .idle) (hl : started < added) (hs : sampled = started) :
    Frontier added sampled (started + 1) resolved (if started = 0 then .fill else .advance) resolving status := by
  have hb := hfr.bounds
  refine ⟨by omega, fun _ => by omega, fun hd => ?_, hfr.taken, fun j who i ends hv => ?_, hfr.resolvedDone,
    fun j hj => hfr.nodeDone j ?_⟩
  · split at hd
    · cases hd
    · omega
  · have ht := hfr.claimed j who i ends hv
    cases who with
    | node =>
      rw [hn] at ht
      cases ht.1
    | resolver => exact ht
  · rw [hn]
    rcases hj with hl | ⟨hq, hp⟩
    · rcases lt_or_ge (j + 2) started with hl | hg
      · exact .inl hl
      · exact .inr ⟨by omega, by decide⟩
    · rw [if_neg (by omega)] at hp
      exact absurd rfl hp

theorem Frontier.fill (hn : node = .fill) : Frontier added sampled started resolved .idle resolving status := by
  subst hn
  refine ⟨hfr.bounds, absurd rfl, (fun hd => by cases hd), hfr.taken,
    fun j who i ends hv => ?_, hfr.resolvedDone, fun j hj => hfr.nodeDone j ?_⟩
  · have ht := hfr.claimed j who i ends hv
    cases who with
    | node => cases ht.1
    | resolver => exact ht
  · exact hj.imp id fun hj => ⟨hj.1, by decide⟩

theorem Frontier.sample (hn : node = .idle) (hl : sampled < started) :
    Frontier added (sampled + 1) started resolved node resolving status := by
  have hd := hfr.bounds
  refine { hfr with bounds := by omega, busy := absurd hn, taken := fun hid => ?_ }
  omega

theorem Frontier.resolve {resolving'} (hf : resolving ≠ .host) (hn : resolving' ≠ .idle → resolved < sampled) :
    Frontier added sampled started resolved node resolving' status := by
  refine { hfr with taken := hn, claimed := fun j who i ends hv => ?_ }
  have ht := hfr.claimed j who i ends hv
  cases who with
  | node => exact ht
  | resolver => exact absurd ht.1 hf

end Frontier

/-! ## Buffers and handles -/

variable {batches : List GrammarBatch} {outputs : List ForwardOutput} {tokens : List Int} {lengths : List Nat}

theorem Buffers.add
    (hb : Buffers batches outputs tokens lengths) (hd : outputs.length ≤ batches.length) (b) :
    Buffers (batches ++ [b]) outputs tokens lengths := by
  refine ⟨fun k c out hc ht => ?_, hb.last⟩
  have hk := (List.getElem?_eq_some_iff.mp ht).1
  rw [getElem?_append_left (by omega)] at hc
  exact hb.covers k c out hc ht

theorem Buffers.sample (hb : Buffers batches outputs tokens lengths) {out : ForwardOutput}
    (hv : ∀ b ∈ batches[outputs.length]?, out.Covers b) (rest) (mr) :
    Buffers batches (outputs ++ [out]) (out.tokens ++ rest) (out.lengths ++ mr) := by
  refine ⟨fun k c o hc ho => ?_, fun o ho => ?_⟩
  · rcases getElem?_concat_cases ho with ⟨ho, -⟩ | ⟨rfl, rfl⟩
    · exact hb.covers k c o hc ho
    · exact hv c hc
  · rw [getLast?_concat] at ho
    cases ho
    exact ⟨⟨rest, rfl⟩, mr, rfl⟩

section Held

variable {batches : List GrammarBatch} {started resolved : Nat} {node : NodePhase} {known live : Nat → Bool}
  {holds : Nat → Nat} {dropped : Nat → Bool} (hh : Held batches started resolved node known live holds dropped)
include hh

variable {handle : Nat}

theorem Held.register (hn : known handle = false) :
    Held batches started resolved node (update known handle true) (update live handle true)
      (update holds handle (holds handle + 1)) dropped := by
  refine ⟨fun other hl => ?_, fun other => ?_, hh.behind⟩
  · by_cases ht : other = handle
    · rw [ht, update_self]
    · rw [update_of_ne ht] at hl ⊢
      exact hh.known other hl
  · by_cases ht : other = handle
    · subst ht
      have hd : live other = false := by
        cases hl : live other with
        | false => rfl
        | true =>
          rw [hh.known other hl] at hn
          cases hn
      have hc := hh.count other
      rw [hd] at hc
      simp only [update_self]
      simp at hc ⊢
      omega
    · rw [update_of_ne ht, update_of_ne ht]
      exact hh.count other

theorem Held.release (hl : live handle = true) :
    Held batches started resolved node known (update live handle false)
      (update holds handle (holds handle - 1)) dropped := by
  refine ⟨fun other ht => ?_, fun other => ?_, hh.behind⟩
  · by_cases hq : other = handle
    · rw [hq]
      exact hh.known handle hl
    · rw [update_of_ne hq] at ht
      exact hh.known other ht
  · by_cases hq : other = handle
    · subst hq
      have hc := hh.count other
      rw [hl] at hc
      simp only [update_self]
      simp at hc ⊢
      omega
    · rw [update_of_ne hq, update_of_ne hq]
      exact hh.count other

theorem Held.add (hr : resolved ≤ batches.length) (b : GrammarBatch) :
    Held (batches ++ [b]) started resolved node known live (fun handle => holds handle + b.uses handle) dropped := by
  refine ⟨hh.known, fun handle => ?_, hh.behind⟩
  have ht : dropped batches.length = false := by
    cases hd : dropped batches.length with
    | false => rfl
    | true =>
      have := (hh.behind _ hd).1
      omega
  have hold : ∀ k ∈ Finset.range batches.length,
    (if dropped k then 0 else ((batches ++ [b])[k]?).elim 0 (·.uses handle)) =
      if dropped k then 0 else (batches[k]?).elim 0 (·.uses handle) := fun k hk => by
    rw [getElem?_append_left (Finset.mem_range.mp hk)]
  rw [length_append, length_singleton, Finset.sum_range_succ, Finset.sum_congr rfl hold, ht, getElem?_concat_length,
    hh.count handle]
  simp [add_assoc]

theorem Held.drop (hk : k < batches.length) (ht : dropped k = false)
    (hb : k < resolved ∧ k + 2 ≤ started ∧ (node ≠ .idle → k + 2 < started)) :
    Held batches started resolved node known live (fun handle => holds handle - (batches[k]?).elim 0 (·.uses handle))
      (update dropped k true) := by
  refine ⟨hh.known, fun handle => ?_, fun j hj => ?_⟩
  · have hm : k ∈ Finset.range batches.length := Finset.mem_range.mpr hk
    have hot : ∀ j ∈ (Finset.range batches.length).erase k,
        (if update dropped k true j then 0 else (batches[j]?).elim 0 (·.uses handle)) =
          if dropped j then 0 else (batches[j]?).elim 0 (·.uses handle) := fun j hj => by
      rw [update_of_ne (Finset.ne_of_mem_erase hj)]
    rw [hh.count handle, ← Finset.add_sum_erase _ _ hm, ← Finset.add_sum_erase _ _ hm, Finset.sum_congr rfl hot,
      update_self, ht]
    simp only [Bool.false_eq_true, if_false, if_true]
    omega
  · by_cases hjk : j = k
    · rw [hjk]
      exact hb
    · rw [update_of_ne hjk] at hj
      exact hh.behind j hj

theorem Held.onwards {started' resolved' node'} (hs : started ≤ started') (hr : resolved ≤ resolved')
    (hn : node' ≠ .idle → node ≠ .idle ∨ started < started') :
    Held batches started' resolved' node' known live holds dropped :=
  ⟨hh.known, hh.count, fun k hk => by
    obtain ⟨hl, hle, hb⟩ := hh.behind k hk
    refine ⟨by omega, by omega, fun hn' => ?_⟩
    rcases hn hn' with hn | hm
    · have := hb hn
      omega
    · omega⟩

theorem Held.pos (hba : batches[k]? = some b) (hk : dropped k = false) (hu : 0 < b.uses handle) : 0 < holds handle := by
  have hm : k ∈ Finset.range batches.length := Finset.mem_range.mpr (List.getElem?_eq_some_iff.mp hba).1
  have hl := Finset.single_le_sum (f := fun k => if dropped k then 0 else (batches[k]?).elim 0 (·.uses handle))
    (fun _ _ => Nat.zero_le _) hm
  simp only [hk, hba, Bool.false_eq_true, if_false, elim_some] at hl
  rw [hh.count handle]
  omega

end Held

/-! ## Steps -/

theorem Inv.row (hin : Inv A initial h) (ht : AtTarget h.started h.resolved h.node h.resolving k who)
    (hba : h.batches[k]? = some b) (hst : h.status k = .advancing who i ends) (hi : i < b.rows.length) :
    Inv A initial (h.stepRow A who k b i ends) := by
  have hp : h.status k ≠ .done := by rw [hst]; exact BatchStatus.noConfusion
  unfold stepRow
  cases hr : b.advances i with
  | none => exact ⟨hin.frontier.claim ht hp _ _, hin.log.pass hba hst hi hr, hin.buffers, hin.held⟩
  | some handle =>
    obtain ⟨out, hou, hre⟩ := rowResult_eq hin ht hba hr (h.matchers handle)
    exact ⟨hin.frontier.claim ht hp _ _,
      hin.log.advance hba hst hi hr hou (hin.frontier.before ht).1 hre, hin.buffers, hin.held⟩

theorem Inv.finish (hin : Inv A initial h) (ht : AtTarget h.started h.resolved h.node h.resolving k who)
    (hba : h.batches[k]? = some b) (hst : h.status k = .advancing who b.rows.length ends) :
    Inv A initial (h.finished who k ends) := by
  have hlo := hin.log.finish hba hst
  obtain ⟨hp, hc⟩ := hin.frontier.done k
  cases who with
  | node =>
    obtain ⟨hn, hk⟩ := ht
    exact ⟨hin.frontier.leave_node hn hk (update_self ..) hp hc, hlo, hin.buffers,
      hin.held.onwards le_rfl le_rfl fun _ => .inl (by rw [hn]; decide)⟩
  | resolver =>
    obtain ⟨hr, rfl⟩ := ht
    exact ⟨hin.frontier.leave_resolver (by rw [hr]; decide) (update_self ..) hp hc, hlo, hin.buffers,
      hin.held.onwards le_rfl (Nat.le_succ _) .inl⟩

variable {ev : GrammarEvent}

theorem Inv.step (hin : Inv A initial h) (hs : h.step A ev = some h') : Inv A initial h' := by
  have hbn := hin.frontier.bounds
  cases ev with
  | register handle =>
    obtain ⟨hw, ⟨⟩⟩ := ite_none_left_eq_some.mp hs
    exact { hin with held := hin.held.register (by simpa using hw) }
  | release handle =>
    obtain ⟨hl, ⟨⟩⟩ := ite_none_right_eq_some.mp hs
    exact { hin with held := hin.held.release hl }
  | add b =>
    obtain ⟨_, ⟨⟩⟩ := ite_none_right_eq_some.mp hs
    have hfr := hin.frontier.add (s := if b.hasMatcher then .pending else .done) fun _ _ _ hw => by
      split at hw <;> cases hw
    exact ⟨by simpa using hfr, hin.log.add (by omega) b, hin.buffers.add (by omega) b, hin.held.add (by omega) b⟩
  | start =>
    obtain ⟨⟨hn, hlt, hm⟩, ⟨⟩⟩ := ite_none_right_eq_some.mp hs
    exact ⟨hin.frontier.start hn hlt hm, hin.log, hin.buffers,
      hin.held.onwards (Nat.le_succ _) le_rfl fun _ => .inr (Nat.lt_succ_self _)⟩
  | claim who =>
    simp only [step] at hs
    split at hs
    · cases hs
    · next k ht =>
      obtain ⟨hp, ⟨⟩⟩ := ite_none_right_eq_some.mp hs
      have ht := atTarget_of_target hin.frontier.previous ht
      have hk := (hin.frontier.before ht).2
      exact ⟨hin.frontier.claim ht (by rw [hp]; decide) _ _,
        hin.log.claim (getElem?_eq_getElem (by omega)) hp, hin.buffers, hin.held⟩
  | row who =>
    simp only [step] at hs
    split at hs
    · cases hs
    · next k ht =>
      split at hs
      · next hst hba =>
        obtain ⟨⟨rfl, hi⟩, ⟨⟩⟩ := ite_none_right_eq_some.mp hs
        exact hin.row (atTarget_of_target hin.frontier.previous ht) hba hst hi
      · cases hs
  | finish who =>
    simp only [step] at hs
    split at hs
    · cases hs
    · next k ht =>
      split at hs
      · next hst hba =>
        obtain ⟨⟨rfl, rfl⟩, ⟨⟩⟩ := ite_none_right_eq_some.mp hs
        exact hin.finish (atTarget_of_target hin.frontier.previous ht) hba hst
      · cases hs
  | skip =>
    obtain ⟨⟨hn, hd⟩, ⟨⟩⟩ := ite_none_right_eq_some.mp hs
    have hv := hin.frontier.previous hn
    exact ⟨hin.frontier.leave_node hn (by omega) hd (fun _ => id) (hin.frontier.free hd), hin.log, hin.buffers,
      hin.held.onwards le_rfl le_rfl fun _ => .inl (by rw [hn]; decide)⟩
  | fill =>
    obtain ⟨hn, ⟨⟩⟩ := ite_none_right_eq_some.mp hs
    exact ⟨hin.frontier.fill hn, hin.log, hin.buffers, hin.held.onwards le_rfl le_rfl fun hid => absurd rfl hid⟩
  | sample out =>
    obtain ⟨⟨hn, hlt, hc, _⟩, ⟨⟩⟩ := ite_none_right_eq_some.mp hs
    have hfr := hin.frontier.sample hn hlt
    exact ⟨by simpa using hfr, hin.log.sample out, hin.buffers.sample hc _ _, hin.held⟩
  | resolve =>
    obtain ⟨⟨hid, hlt⟩, ⟨⟩⟩ := ite_none_right_eq_some.mp hs
    exact { hin with frontier := hin.frontier.resolve (by rw [hid]; decide) fun _ => hlt }
  | timeout =>
    obtain ⟨hwt, ⟨⟩⟩ := ite_none_right_eq_some.mp hs
    have hlt := hin.frontier.taken (by rw [hwt]; decide)
    exact { hin with frontier := hin.frontier.resolve (by rw [hwt]; decide) fun _ => hlt }
  | settled =>
    obtain ⟨⟨hr, hd⟩, ⟨⟩⟩ := ite_none_right_eq_some.mp hs
    exact ⟨hin.frontier.leave_resolver hr hd (fun _ => id) (hin.frontier.free hd), hin.log, hin.buffers,
      hin.held.onwards le_rfl (Nat.le_succ _) .inl⟩
  | drop k =>
    obtain ⟨⟨hle, hn, hlt, hke⟩, ⟨⟩⟩ := ite_none_right_eq_some.mp hs
    exact { hin with held := hin.held.drop (by omega) hke ⟨hlt, hle, hn.resolve_left⟩ }

theorem Inv.start (capacity) : Inv A initial { capacity := capacity, matchers := initial } := by
  refine ⟨⟨by simp, absurd rfl, ?_, absurd rfl, ?_, by simp, by simp⟩,
    ⟨by simp, Pairwise.nil, by simp, fun _ => rfl, by simp, by simp, by simp, ?_⟩, ⟨by simp, by simp⟩,
      ⟨by simp, by simp, by simp⟩⟩
  · intro hn
    cases hn
  · intro j who i ends hv
    cases hv
  · intro j who i ends hv
    cases hv

theorem Inv.run (capacity) (hr : Relation.ReflTransGen (Step A) { capacity := capacity, matchers := initial } h) :
    Inv A initial h := by
  induction hr with
  | refl => exact Inv.start capacity
  | tail _ hs ih =>
    obtain ⟨ev, hs⟩ := hs
    exact ih.step hs

/-! ## What follows -/

section

variable (hin : Inv A initial h)
include hin

theorem Inv.follows : h.Follows A initial :=
  ⟨hin.log.rows, hin.log.order, hin.log.chain, hin.log.state,
    fun k b hba hd i handle hr => hin.log.all k b hba i handle hr (by rw [hd]; exact advances_lt hr),
    hin.log.ends, hin.frontier.resolvedDone⟩

theorem Inv.filled (hn : h.node = .fill) (hs : 2 ≤ h.started) : h.status (h.started - 2) = .done :=
  hin.frontier.nodeDone _ (.inr ⟨Nat.sub_add_cancel hs, by rw [hn]; decide⟩)

theorem Inv.kept (ht : AtTarget h.started h.resolved h.node h.resolving k who) : h.dropped k = false := by
  cases hd : h.dropped k with
  | false => rfl
  | true =>
    obtain ⟨hr, _, hb⟩ := hin.held.behind k hd
    cases who with
    | node =>
      obtain ⟨hn, hk⟩ := ht
      have := hb (by rw [hn]; decide)
      omega
    | resolver =>
      obtain ⟨_, rfl⟩ := ht
      omega

theorem Inv.used (hs : h.step A ev = some h') (hu : handle ∈ h.used ev) : 0 < h.holds handle := by
  cases ev with
  | row who =>
    obtain ⟨k, ht, hr⟩ := bind_eq_some_iff.mp (mem_toList.mp hu)
    split at hr
    · next hba =>
      have hk := hin.kept (atTarget_of_target hin.frontier.previous ht)
      exact hin.held.pos hba hk (uses_pos hr)
    · cases hr
  | fill =>
    obtain ⟨hn, _⟩ := ite_none_right_eq_some.mp hs
    simp only [used] at hu
    cases hba : h.batches[h.started - 1]? with
    | none => simp [hba] at hu
    | some b =>
      rw [hba, elim_some] at hu
      obtain ⟨row, hm, hd⟩ := mem_filterMap.mp hu
      have hk : h.dropped (h.started - 1) = false := by
        cases hdr : h.dropped (h.started - 1) with
        | false => rfl
        | true =>
          have := (hin.held.behind _ hdr).2.1
          omega
      exact hin.held.pos hba hk (length_pos_of_mem (mem_filter.mpr ⟨hm, by simpa using hd⟩))
  | _ => cases hu

end

end GrammarRun

end TokenSpeed.Engine

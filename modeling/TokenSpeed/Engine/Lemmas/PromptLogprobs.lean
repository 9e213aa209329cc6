import TokenSpeed.Engine.PromptLogprobs
import TokenSpeed.Logic.Runs
import TokenSpeed.Logic.Updates

/-!
# Prompt logprobs are complete

A request's rows hold the score of every position its committed chunks reach. A forward's plan names the
flat input rows of the positions each chunk's request still wants, so a commit moves the positions reached
to the end of the chunk, and at the end of the prompt no row is missing.
-/

namespace TokenSpeed.Engine

open Function List Option

variable {α : Type}

/-! ## Rows -/

/-- The rows of `len` positions from `start` on hold the values of `g`, those below `landed` at least. -/
structure Filled {β : Type} (g : Nat → β) (start len landed : Nat) (rows : List (Option β)) : Prop where
  length : rows.length = len
  row : ∀ k < len, rows[k]? = some (some (g (start + k))) ∨ rows[k]? = some none ∧ landed ≤ start + k

namespace Filled

variable {β : Type} {g : Nat → β} {start len landed : Nat} {rows : List (Option β)}

theorem fresh (g : Nat → β) (start len) : Filled g start len 0 (replicate len none) :=
  ⟨length_replicate, fun k hk => .inr ⟨by simp [hk], Nat.zero_le _⟩⟩

theorem place (fl : Filled g start len landed rows) {first} (sz) (gap : first ≤ max landed start) :
    Filled g start len (max landed (first + sz)) (place rows (max first start - start)
        ((range' (max first start) (min (first + sz) (start + len) - max first start)).map g)) := by
  refine ⟨by simp [Engine.place, fl.length], fun k hk => ?_⟩
  rw [Engine.place, getElem?_mapIdx]
  by_cases inside : max first start ≤ start + k ∧ start + k < first + sz
  · -- the position is one the chunk scores
    left
    have offset : max first start - start ≤ k := by omega
    have index : k - (max first start - start) < min (first + sz) (start + len) - max first start := by omega
    have position : max first start + (k - (max first start - start)) = start + k := by omega
    have present : k < rows.length := fl.length ▸ hk
    simp [present, offset, getElem?_range' index, position]
  · have kept : (if max first start - start ≤ k then
        ((range' (max first start) (min (first + sz) (start + len) - max first start)).map g)[
          k - (max first start - start)]?.or rows[k]?.join else rows[k]?.join) = rows[k]?.join := by
      split
      · rw [getElem?_eq_none (by simp; omega), none_or]
      · rfl
    rcases fl.row k hk with held | ⟨ms, ab⟩
    · left
      simpa [held] using kept
    · right
      exact ⟨by simpa [ms] using kept, by omega⟩

theorem complete (fl : Filled g start len landed rows) (rc : start + len ≤ landed) :
    rows = (range len).map fun k => some (g (start + k)) := by
  refine ext_getElem? fun k => ?_
  by_cases hk : k < len
  · rcases fl.row k hk with held | ⟨_, ab⟩
    · simp [held, hk]
    · omega
  · rw [getElem?_eq_none (by have := fl.length; omega), getElem?_eq_none (by simp; omega)]

end Filled

/-! ## Requests -/

namespace PromptLogprobs

variable {state state' state'' : PromptLogprobs α} {f : Nat → PositionScore α} {landed : Nat}

/-- The prompt logprobs of a request whose positions score as `f` does. -/
def expected (state : PromptLogprobs α) (f : Nat → PositionScore α) : InputLogprobs α where
  values := none :: (List.range state.scored).map fun k => some (f (state.logprobStartLen + k)).value
  ids := state.promptIds.drop state.logprobStartLen
  top := if 0 < state.topLogprobsNum then
    some (none :: (List.range state.scored).map fun k =>
      some ((f (state.logprobStartLen + k)).top.cut state.topLogprobsNum)) else none

structure Becomes (state state' : PromptLogprobs α) : Prop where
  promptIds : state'.promptIds = state.promptIds
  start : state'.logprobStartLen = state.logprobStartLen
  top : state'.topLogprobsNum = state.topLogprobsNum
  returns : state'.returnsInputLogprobs = state.returnsInputLogprobs
  final : state.inputLogprobs.isSome → state'.inputLogprobs.isSome

theorem Becomes.refl (state : PromptLogprobs α) : Becomes state state := ⟨rfl, rfl, rfl, rfl, id⟩

theorem Becomes.trans (first : Becomes state state') (sc : Becomes state' state'') : Becomes state state'' :=
  ⟨sc.1.trans first.1, sc.2.trans first.2, sc.3.trans first.3, sc.4.trans first.4, sc.5 ∘ first.5⟩

theorem Becomes.wants (bcs : Becomes state state') : state'.wantsInputLogprobs = state.wantsInputLogprobs := by
  simp only [wantsInputLogprobs, bcs.promptIds, bcs.start, bcs.returns]

/-- The rows of a request whose committed chunks reach `landed`. -/
structure Pending (f : Nat → PositionScore α) (landed : Nat) (state : PromptLogprobs α) : Prop where
  asked : state.wantsInputLogprobs → state.inputLogprobRows.isSome
  values : state.returnsInputLogprobs →
    Filled (fun p => (f p).value) state.logprobStartLen state.scored landed (state.inputLogprobRows.getD [])
  tops : state.returnsInputLogprobs → 0 < state.topLogprobsNum →
    Filled (fun p => (f p).top.cut state.topLogprobsNum) state.logprobStartLen state.scored landed
      (state.inputTopLogprobRows.getD [])
  askedTop : state.wantsInputLogprobs → (state.inputTopLogprobRows.isSome ↔ 0 < state.topLogprobsNum)

/-- A request whose prompt logprobs are final has the expected ones, and any other the rows up to
`landed`. -/
structure Kept (f : Nat → PositionScore α) (landed : Nat) (state : PromptLogprobs α) : Prop where
  start : state.logprobStartLen < state.promptIds.length
  final : ∀ logprobs, state.inputLogprobs = some logprobs → logprobs = state.expected f ∧ state.inputLogprobRows = none
  pending : state.inputLogprobs = none → state.Pending f landed

theorem scored_eq_zero (unwanted : state.wantsInputLogprobs = false) (rts : state.returnsInputLogprobs) :
    state.scored = 0 := by
  simp only [wantsInputLogprobs, rts, Bool.true_and, decide_eq_false_iff_not] at unwanted
  simp only [scored]
  omega

theorem setLogprobs_kept (f : Nat → PositionScore α) {pi} (nn : pi ≠ []) (rq) : Kept f 0 (setLogprobs pi rq) := by
  have positive := length_pos_iff.mpr nn
  unfold setLogprobs
  extract_lets lastPosition start state
  have below : start < pi.length := by simp only [start, lastPosition]; split <;> omega
  split
  case isTrue wns =>
    refine ⟨below, fun _ h => (by cases h), fun _ => ⟨fun _ => rfl, fun _ => .fresh .., fun _ top => ?_, fun _ => ?_⟩⟩
    · simp only [if_pos top, getD_some]
      exact .fresh ..
    · by_cases top : 0 < state.topLogprobsNum <;> simp [top]
  case isFalse unwanted =>
    have none_scored := fun rts => scored_eq_zero (Bool.eq_false_of_not_eq_true unwanted) rts
    refine ⟨below, fun _ h => (by cases h), fun _ => ⟨fun wns => absurd wns unwanted, fun rts => ?_,
      fun rts _ => ?_, fun wns => absurd wns unwanted⟩⟩
    all_goals
      rw [none_scored rts]
      exact .fresh ..

theorem Pending.mono_unwanted (pn : Pending f landed state) (unwanted : state.wantsInputLogprobs = false)
    (landed') : Pending f landed' state := by
  have nothing : ∀ {β : Type} {g : Nat → β} {rows : List (Option β)}, state.returnsInputLogprobs →
      Filled g state.logprobStartLen state.scored landed rows →
      Filled g state.logprobStartLen state.scored landed' rows := fun rts fl => by
    rw [scored_eq_zero unwanted rts] at fl ⊢
    exact ⟨fl.length, fun _ hk => absurd hk (Nat.not_lt_zero _)⟩
  exact ⟨pn.asked, fun rts => nothing rts (pn.values rts), fun rts top => nothing rts (pn.tops rts top), pn.askedTop⟩

def wanted (state : PromptLogprobs α) (first size : Nat) : List Nat :=
  List.range' (max first state.logprobStartLen)
    (min (first + size) (state.promptIds.length - 1) - max first state.logprobStartLen)

variable {first : Nat}

theorem Pending.record (pn : Pending f landed state) (inside : state.logprobStartLen < state.promptIds.length)
    (wns : state.wantsInputLogprobs) {sz} (gap : first ≤ max landed state.logprobStartLen)
    (some_wanted : max first state.logprobStartLen < min (first + sz) (state.promptIds.length - 1))
    {top}
    (top_eq : 0 < state.topLogprobsNum → top = some ((state.wanted first sz).map fun p => (f p).top)) :
    ∃ state', state.record (max first state.logprobStartLen)
        ((state.wanted first sz).map fun p => (f p).value) top = .ok state' ∧
      Becomes state state' ∧ state'.inputLogprobs = state.inputLogprobs ∧
      Pending f (max landed (first + sz)) state' := by
  obtain ⟨rows, rows_eq⟩ := isSome_iff_exists.mp (pn.asked wns)
  have returns : state.returnsInputLogprobs := (Bool.and_eq_true_iff.mp wns).1
  have filled := pn.values returns
  rw [rows_eq, getD_some] at filled
  have len : state.logprobStartLen + state.scored = state.promptIds.length - 1 := by
    simp only [scored]
    omega
  have fits : ¬ (max first state.logprobStartLen < state.logprobStartLen ∨
      rows.length < max first state.logprobStartLen - state.logprobStartLen +
        ((state.wanted first sz).map fun p => (f p).value).length) := by
    simp only [filled.length, wanted, length_map, length_range']
    omega
  have values := filled.place sz gap
  rw [len] at values
  unfold PromptLogprobs.record
  simp only [rows_eq, if_neg fits]
  by_cases tops : 0 < state.topLogprobsNum
  · obtain ⟨tr, topRows_eq⟩ := isSome_iff_exists.mp ((pn.askedTop wns).mpr tops)
    have filledTop := pn.tops returns tops
    rw [topRows_eq, getD_some] at filledTop
    have topValues := filledTop.place sz gap
    rw [len] at topValues
    simp only [topRows_eq, top_eq tops]
    exact ⟨_, rfl, ⟨rfl, rfl, rfl, rfl, id⟩, rfl, fun _ => rfl, fun _ => values,
      fun _ _ => by rw [List.map_map]; exact topValues, fun _ => iff_of_true rfl tops⟩
  · have topRows_eq : state.inputTopLogprobRows = none := by
      rw [← not_isSome_iff_eq_none, pn.askedTop wns]
      exact tops
    simp only [topRows_eq]
    exact ⟨_, rfl, ⟨rfl, rfl, rfl, rfl, id⟩, rfl, fun _ => rfl, fun _ => values,
      fun _ top => absurd top tops, fun _ => iff_of_false (by simp) tops⟩

theorem countP_isNone_map_some {β γ : Type} (g : β → γ) (l : List β) :
    (l.map fun k => some (g k)).countP isNone = 0 := by
  rw [countP_eq_zero]
  simp

theorem Kept.finalize (kp : Kept f landed state) (rc : state.promptIds.length ≤ landed) :
    ∃ state', state.finalize = .ok state' ∧ Becomes state state' ∧ Kept f landed state' ∧
      (state.returnsInputLogprobs → state'.inputLogprobs.isSome) := by
  unfold PromptLogprobs.finalize
  split
  case isTrue dn =>
    exact ⟨state, rfl, .refl _, kp, fun rts => by simpa [rts] using dn⟩
  case isFalse td =>
    simp only [Bool.or_eq_true, Bool.not_eq_eq_eq_not, Bool.not_true, not_or, Bool.not_eq_false,
      not_isSome_iff_eq_none] at td
    obtain ⟨rts, unwanted⟩ := td
    have pending := kp.pending unwanted
    have start := kp.start
    have len : state.logprobStartLen + state.scored ≤ landed := by
      simp only [scored]
      omega
    have ids : (none :: (range state.scored).map fun k =>
        some (f (state.logprobStartLen + k)).value).length =
          (state.promptIds.drop state.logprobStartLen).length := by
      simp only [scored, length_cons, length_map, length_range, length_drop]
      omega
    simp only [(pending.values rts).complete len, countP_isNone_map_some, Nat.lt_irrefl, if_false]
    rw [if_neg (not_not_intro ids)]
    split
    case isTrue top =>
      simp only [(pending.tops rts top).complete len, countP_isNone_map_some, Nat.lt_irrefl, or_false,
        length_cons, length_map, length_range, Nat.add_sub_cancel, ne_eq, not_true_eq_false,
        if_false]
      exact ⟨_, rfl, ⟨rfl, rfl, rfl, rfl, fun _ => rfl⟩,
        ⟨start, fun _ h => ⟨by rw [← some.inj h, expected, if_pos top]; rfl, rfl⟩, fun h => (by cases h)⟩,
        fun _ => rfl⟩
    case isFalse top =>
      exact ⟨_, rfl, ⟨rfl, rfl, rfl, rfl, fun _ => rfl⟩,
        ⟨start, fun _ h => ⟨by rw [← some.inj h, expected, if_neg top]; rfl, rfl⟩, fun h => (by cases h)⟩,
        fun _ => rfl⟩

theorem Kept.recordChunk (kp : Kept f landed state) {pl} (bcs : Becomes pl state) (sz)
    (gap : state.wantsInputLogprobs → first ≤ max landed state.logprobStartLen)
    (o) : (planChunk pl first sz o = {} ∧ Kept f (max landed (first + sz)) state) ∨
    (planChunk pl first sz o =
        ⟨o + max first state.logprobStartLen - first, (state.wanted first sz).length,
          max first state.logprobStartLen, state.topLogprobsNum⟩ ∧ (state.wanted first sz).length ≠ 0 ∧
      ((state.inputLogprobRows = none ∧ Kept f (max landed (first + sz)) state) ∨
        state.inputLogprobRows.isSome ∧ ∀ top,
          (0 < state.topLogprobsNum → top = some ((state.wanted first sz).map fun p => (f p).top)) →
          ∃ state', state.record (max first state.logprobStartLen)
              ((state.wanted first sz).map fun p => (f p).value) top = .ok state' ∧
            Becomes state state' ∧ Kept f (max landed (first + sz)) state')) := by
  have settled (fn : state.inputLogprobs.isSome) : Kept f (max landed (first + sz)) state :=
    ⟨kp.start, kp.final, fun unwanted => by simp [unwanted] at fn⟩
  unfold planChunk
  simp only [← bcs.promptIds, ← bcs.start, ← bcs.top, ← bcs.wants]
  split
  case isTrue pla =>
    obtain ⟨wns, -, some_wanted⟩ := pla
    refine .inr ⟨by simp [wanted], by simp only [wanted, length_range']; omega, ?_⟩
    cases unwanted : state.inputLogprobs with
    | some lgs => exact .inl ⟨(kp.final _ unwanted).2, settled (by simp [unwanted])⟩
    | none =>
      have pn := kp.pending unwanted
      refine .inr ⟨pn.asked wns, fun top top_eq => ?_⟩
      obtain ⟨state', rc, sm, unwanted', pn'⟩ :=
        pn.record kp.start wns (gap wns) some_wanted top_eq
      refine ⟨state', rc, sm, ?_, fun _ h => ?_, fun _ => pn'⟩
      · rw [sm.start, sm.promptIds]
        exact kp.start
      · rw [unwanted', unwanted] at h
        cases h
  case isFalse il =>
    refine .inl ⟨rfl, ?_⟩
    by_cases fn : state.inputLogprobs.isSome
    · exact settled fn
    refine ⟨kp.start, kp.final, fun unwanted => ?_⟩
    have pn := kp.pending unwanted
    cases wns : state.wantsInputLogprobs with
    | false => exact pn.mono_unwanted wns _
    | true =>
      -- the chunk ends before the first position the request still wants
      have fresh : pl.inputLogprobs.isNone := by
        rw [isNone_iff_eq_none, ← not_isSome_iff_eq_none]
        exact fun h => fn (bcs.final h)
      have behind : ¬ max first state.logprobStartLen < min (first + sz) (state.promptIds.length - 1) :=
        fun h => il ⟨wns, fresh, h⟩
      have extend : ∀ {β : Type} {g : Nat → β} {rows : List (Option β)},
          Filled g state.logprobStartLen state.scored landed rows →
          Filled g state.logprobStartLen state.scored (max landed (first + sz)) rows := fun fl =>
        ⟨fl.length, fun k hk => (fl.row k hk).imp_right fun ⟨ms, ab⟩ => ⟨ms, by
          have := gap wns
          simp only [scored] at hk
          omega⟩⟩
      exact ⟨pn.asked, fun rts => extend (pn.values rts),
        fun rts top => extend (pn.tops rts top), pn.askedTop⟩

end PromptLogprobs

/-! ## Forwards -/

open PromptLogprobs LogprobRun

section Forwards

variable {scores : Nat → Nat → PositionScore α} {states states' states'' plannedFrom : LogprobStates α}
  {landed landed' : Nat → Nat}

def AllKept (scores : Nat → Nat → PositionScore α) (landed : Nat → Nat) (states : LogprobStates α) : Prop :=
  ∀ rid state, states rid = some state → Kept (scores rid) (landed rid) state

/-- The states a commit leaves, with the prompts computed up to `landed`. -/
def Advanced (scores : Nat → Nat → PositionScore α) (landed : Nat → Nat) (states states' : LogprobStates α) : Prop :=
  ∀ rid state', states' rid = some state' →
    ∃ state, states rid = some state ∧ Becomes state state' ∧ Kept (scores rid) (landed rid) state'

theorem AllKept.advanced (kp : AllKept scores landed states) : Advanced scores landed states states :=
  fun rid state h => ⟨state, h, .refl _, kp rid state h⟩

theorem Advanced.allKept (ad : Advanced scores landed states states') : AllKept scores landed states' :=
  fun rid state' h => (ad rid state' h).elim fun _ h => h.2.2

theorem Advanced.trans (first : Advanced scores landed states states') (sc : Advanced scores landed' states' states'') :
    Advanced scores landed' states states'' := fun rid state'' h => by
  obtain ⟨state', h', bcs', kp⟩ := sc rid state'' h
  obtain ⟨state, h, bcs, -⟩ := first rid state' h'
  exact ⟨state, h, bcs.trans bcs', kp⟩

variable {rid : Nat} {state state' : PromptLogprobs α}

theorem Advanced.update (held : states rid = some state)
    (bcs : Becomes state state') (kp : Kept (scores rid) (landed rid) state')
    (ots : ∀ other state, other ≠ rid → states other = some state → Kept (scores other) (landed other) state) :
    Advanced scores landed states (update states rid (some state')) := fun other state'' h => by
  rcases update_cases h with ⟨rfl, hu⟩ | ⟨same, h⟩
  · cases hu
    exact ⟨state, held, bcs, kp⟩
  · exact ⟨state'', h, .refl _, ots other state'' same h⟩

def PlannedFor (plannedFrom : LogprobStates α) (rows : List BatchRow) (rid landed : Nat)
    (state : PromptLogprobs α) : Prop :=
  ∀ row ∈ rows, row.requestId = rid →
    (∃ planned, plannedFrom rid = some planned ∧ Becomes planned state) ∧ NoGap state landed row

variable {rows : List BatchRow}

theorem PlannedFor.mono {before af}
    (pl : PlannedFor plannedFrom rows rid before state) (bcs : Becomes state state') (le : before ≤ af) :
    PlannedFor plannedFrom rows rid af state' := fun row mem sm => by
  obtain ⟨⟨og, held, er⟩, gap⟩ := pl row mem sm
  refine ⟨⟨og, held, er.trans bcs⟩, ?_⟩
  unfold NoGap at gap ⊢
  cases kind : row.kind with
  | decode => trivial
  | extend first replayed =>
    simp only [kind] at gap ⊢
    rw [bcs.wants, bcs.start]
    exact fun wns => (gap wns).trans (by omega)

theorem take_chunk (before rest : List (Nat × Nat)) (rid) {first sz lo count} (ab : first ≤ lo)
    (i : lo + count ≤ first + sz) :
    ((before ++ ((range' first sz).map (rid, ·) ++ rest)).drop (before.length + lo - first)).take count =
      (range' lo count).map (rid, ·) := by
  have cut : range' (first + (lo - first) * 1) (sz - (lo - first)) =
      range' lo count ++ range' (lo + count) (first + sz - lo - count) := by
    rw [range'_append_1]
    congr 1 <;> omega
  rw [show before.length + lo - first = before.length + (lo - first) by omega, drop_length_add_append,
    drop_append_of_le_length (by simp; omega), take_append_of_le_length (by simp; omega),
    ← map_drop, ← map_take, drop_range', cut, take_left' (by simp)]

theorem planRow_named (plannedFrom : LogprobStates α) (before rest : List (Nat × Nat)) (row : BatchRow) :
    ((before ++ (row.promptInput ++ rest)).drop (planRow plannedFrom before.length row).rowStart).take
        (planRow plannedFrom before.length row).count =
      (range' (planRow plannedFrom before.length row).positionStart
        (planRow plannedFrom before.length row).count).map (row.requestId, ·) := by
  unfold planRow BatchRow.promptInput
  cases row.kind with
  | decode => simp
  | extend first replayed =>
    cases plannedFrom row.requestId with
    | none => simp
    | some pn =>
      simp only [planChunk]
      split
      case isTrue pl =>
        refine take_chunk before rest row.requestId (by omega) ?_
        dsimp only
        omega
      case isFalse => simp

theorem promptInput_length (row : BatchRow) : row.promptInput.length = row.extendLength := by
  unfold BatchRow.promptInput BatchRow.extendLength BatchRow.isDecode
  cases row.kind <;> simp

theorem recordRow_kept (kp : AllKept scores landed states) (row : BatchRow) (offset : Nat)
    (pl : ∀ state, states row.requestId = some state →
      PlannedFor plannedFrom [row] row.requestId (landed row.requestId) state) (wt : Bool)
    (ak : 0 < (planRow plannedFrom offset row).topK → wt) {nm : List (Nat × Nat)}
    (named_eq : nm = (range' (planRow plannedFrom offset row).positionStart
      (planRow plannedFrom offset row).count).map (row.requestId, ·)) :
    ∃ states', recordRow states row (planRow plannedFrom offset row) (nm.map fun at_ => (scores at_.1 at_.2).value)
        (if wt then some (nm.map fun at_ => (scores at_.1 at_.2).top) else none) = .ok states' ∧
      Advanced scores (fun rid => landedAfter rid [row] (landed rid)) states states' := by
  have others (other : Nat) (state : PromptLogprobs α) (ne : other ≠ row.requestId) (held : states other = some state) :
      Kept (scores other) (landedAfter other [row] (landed other)) state := by
    simp only [landedAfter, foldl_cons, foldl_nil, if_neg ne.symm]
    exact kp other state held
  unfold recordRow
  cases held : states row.requestId with
  | none =>
    refine ⟨states, by simp, fun rid state h => ⟨state, h, .refl _, others rid state ?_ h⟩⟩
    rintro rfl
    rw [held] at h
    cases h
  | some state =>
    obtain ⟨⟨og, origin_eq, bcs⟩, gap⟩ := pl state held row mem_cons_self rfl
    have same : Kept (scores row.requestId) (max (landed row.requestId) row.chunkEnd) state →
        Advanced scores (fun rid => landedAfter rid [row] (landed rid)) states states := fun kp' rid state' h => by
      refine ⟨state', h, .refl _, ?_⟩
      by_cases same : rid = row.requestId
      · subst same
        cases held.symm.trans h
        simpa [landedAfter] using kp'
      · exact others rid state' same h
    cases kind : row.kind with
    | decode =>
      have il : planRow plannedFrom offset row = {} := by simp [planRow, kind]
      refine ⟨states, by simp [il], same ?_⟩
      simpa [BatchRow.chunkEnd, kind] using kp _ state held
    | extend first replayed =>
      have chunk : planRow plannedFrom offset row = planChunk og first row.inputLength offset := by
        simp [planRow, kind, origin_eq]
      have reach : row.chunkEnd = first + row.inputLength := by simp [BatchRow.chunkEnd, kind]
      simp only [NoGap, kind] at gap
      rw [reach] at same
      rw [chunk] at ak named_eq ⊢
      rcases (kp _ state held).recordChunk bcs row.inputLength gap offset with
        ⟨il, kp'⟩ | ⟨plan_eq, some_wanted, ⟨gn, kp'⟩ | ⟨kps, rc⟩⟩
      · exact ⟨states, by simp [il], same kp'⟩
      · exact ⟨states, by simp [gn], same kp'⟩
      · rw [plan_eq] at ak named_eq ⊢
        have wanted_eq : nm = (state.wanted first row.inputLength).map (row.requestId, ·) := by
          rw [named_eq]
          simp [wanted]
        obtain ⟨state', record_eq, bcs', kp'⟩ := rc
          (if wt then some (nm.map fun at_ => (scores at_.1 at_.2).top) else none) fun top => by
            rw [if_pos (ak top), wanted_eq, List.map_map]
            rfl
        refine ⟨_, ?_, .update held bcs' (by simpa [landedAfter, reach] using kp') others⟩
        have values : (nm.map fun at_ => (scores at_.1 at_.2).value) =
            (state.wanted first row.inputLength).map fun p => (scores row.requestId p).value := by
          rw [wanted_eq, List.map_map]
          rfl
        simp only [if_neg some_wanted, if_pos kps, values, record_eq, putState]

theorem le_landedAfter (rid rows reached) : reached ≤ landedAfter rid rows reached := by
  induction rows generalizing reached with
  | nil => exact Nat.le_refl _
  | cons row rows ih =>
    refine Nat.le_trans ?_ (ih _)
    dsimp only
    split <;> omega

variable {row : BatchRow}

theorem chunkEnd_le_landedAfter (mem : row ∈ rows) (reached) :
    row.chunkEnd ≤ landedAfter row.requestId rows reached := by
  induction rows generalizing reached with
  | nil => cases mem
  | cons head rows ih =>
    rcases mem_cons.mp mem with rfl | mem
    · refine Nat.le_trans ?_ (le_landedAfter _ rows _)
      simp only [if_true]
      omega
    · exact ih mem _

theorem namedRows_length (plannedFrom : LogprobStates α) (rows) (before : List (Nat × Nat)) :
    (namedRows (before ++ flatInput rows) (planRows plannedFrom before.length rows)).length =
      ((planRows plannedFrom before.length rows).map PlannedRow.count).sum := by
  induction rows generalizing before with
  | nil => rfl
  | cons row rows ih =>
    have rest := ih (before ++ row.promptInput)
    rw [length_append, promptInput_length, append_assoc] at rest
    have head := congrArg length (planRow_named plannedFrom before (flatInput rows) row)
    simp only [length_map, length_range'] at head
    simp only [planRows, namedRows, flatInput, flatMap_cons, length_append, map_cons, sum_cons]
    exact congrArg₂ (· + ·) head rest

theorem namedRows_cons (ip : List (Nat × Nat)) (row : PlannedRow) (rows) :
    namedRows ip (row :: rows) = (ip.drop row.rowStart).take row.count ++ namedRows ip rows :=
  flatMap_cons

theorem recordRows_window (states : LogprobStates α) (wt : Bool) {pl : PlannedRow}
    {rest} {fr bc : List α} {tf tb : List (TopLogprobs α)}
    (front_length : fr.length = pl.count) (top_length : tf.length = pl.count) :
    recordRows states ((row, pl) :: rest) (fr ++ bc) (if wt then some (tf ++ tb) else none) =
      (recordRow states row pl fr (if wt then some tf else none)).bind fun states =>
        recordRows states rest bc (if wt then some tb else none) := by
  rw [recordRows, take_left' front_length, drop_left' front_length]
  cases wt with
  | false => rfl
  | true =>
    simp only [if_true, map_some, take_left' top_length, drop_left' top_length]
    rfl

theorem recordRows_kept (wt : Bool) (rows : List BatchRow) (before : List (Nat × Nat))
    (kp : AllKept scores landed states)
    (pl : ∀ rid state, states rid = some state → PlannedFor plannedFrom rows rid (landed rid) state)
    (ak : ∀ row ∈ planRows plannedFrom before.length rows, 0 < row.topK → wt) :
    ∃ states', recordRows states (rows.zip (planRows plannedFrom before.length rows))
        ((namedRows (before ++ flatInput rows) (planRows plannedFrom before.length rows)).map
          fun at_ => (scores at_.1 at_.2).value)
        (if wt then some ((namedRows (before ++ flatInput rows) (planRows plannedFrom before.length rows)).map
          fun at_ => (scores at_.1 at_.2).top) else none) = .ok states' ∧
      Advanced scores (fun rid => landedAfter rid rows (landed rid)) states states' := by
  induction rows generalizing before states landed with
  | nil => exact ⟨states, rfl, kp.advanced⟩
  | cons row rows ih =>
    have head := planRow_named plannedFrom before (flatInput rows) row
    obtain ⟨st1, rc, ad⟩ := recordRow_kept kp row before.length
      (fun state held other mem => pl _ state held other (by simp_all)) wt
      (ak _ mem_cons_self) head
    obtain ⟨s2, rest, ad2⟩ := ih (before ++ row.promptInput) ad.allKept
      (fun rid s1 held => by
        obtain ⟨state, held, bcs, -⟩ := ad rid s1 held
        exact PlannedFor.mono (fun other mem => pl rid state held other (mem_cons_of_mem _ mem)) bcs
          (le_landedAfter rid [row] _))
      (fun other mem => ak other (mem_cons_of_mem _ (by
        rwa [length_append, promptInput_length] at mem)))
    rw [length_append, promptInput_length, append_assoc] at rest
    refine ⟨s2, ?_, ad.trans ad2⟩
    have counted := congrArg length head
    simp only [length_map, length_range'] at counted
    have flat : flatInput (row :: rows) = row.promptInput ++ flatInput rows := flatMap_cons
    simp only [planRows, zip_cons_cons, namedRows_cons, flat, map_append]
    rw [recordRows_window states wt (by rw [length_map]; exact counted)
      (by rw [length_map]; exact counted), rc]
    exact rest

theorem recordRows_idle (states : LogprobStates α) {pl} (il : ∀ row ∈ pl, row.2.count = 0) (vls) (top) : recordRows
    states pl vls top = .ok states := by
  induction pl generalizing vls top with
  | nil => rfl
  | cons row pl ih =>
    rw [recordRows, recordRow, if_pos (il row mem_cons_self)]
    exact ih (fun other mem => il other (mem_cons_of_mem _ mem)) _ _

/-- The prompt a row completes has its logprobs final. -/
def CompletedIn (states : LogprobStates α) (row : BatchRow) : Prop :=
  ∀ state, states row.requestId = some state → state.completedBy row → state.returnsInputLogprobs →
    state.inputLogprobs.isSome

theorem finalizeRows_kept (rows) (kp : AllKept scores landed states)
    (rc : ∀ row ∈ rows, row.chunkEnd ≤ landed row.requestId) :
    ∃ states', finalizeRows states rows = .ok states' ∧ Advanced scores landed states states' ∧
      ∀ row ∈ rows, CompletedIn states' row := by
  induction rows generalizing states with
  | nil => exact ⟨states, rfl, kp.advanced, by simp⟩
  | cons row rows ih =>
    have head : ∃ s1, finalizeRow states row = .ok s1 ∧ Advanced scores landed states s1 ∧
        CompletedIn s1 row := by
      unfold finalizeRow
      cases held : states row.requestId with
      | none => exact ⟨states, rfl, kp.advanced, fun _ h => by simp [held] at h⟩
      | some state =>
        by_cases cm : state.completedBy row
        · have end_ : state.promptIds.length ≤ row.chunkEnd := by
            simp only [completedBy, Bool.and_eq_true, decide_eq_true_eq] at cm
            exact cm.2
          obtain ⟨state', fn, bcs, kp', fl⟩ :=
            (kp _ state held).finalize (end_.trans (rc row mem_cons_self))
          refine ⟨_, by simp only [if_pos cm, fn, putState],
            .update held bcs kp' fun other state _ held => kp other state held, fun state'' h _ rts => ?_⟩
          rw [update_self] at h
          cases h
          exact fl (bcs.returns ▸ rts)
        · refine ⟨states, by simp [cm], kp.advanced, fun state' h cm' => ?_⟩
          cases held.symm.trans h
          exact absurd cm' cm
    obtain ⟨s1, fn, ad, fl⟩ := head
    obtain ⟨st2, rest, ad2, fl2⟩ :=
      ih ad.allKept fun other mem => rc other (mem_cons_of_mem _ mem)
    refine ⟨st2, by rw [finalizeRows, fn]; exact rest, ad.trans ad2, fun other mem s2 h => ?_⟩
    rcases mem_cons.mp mem with rfl | mem
    · intro cm rts
      obtain ⟨st1, held1, bcs, -⟩ := ad2 _ s2 h
      refine bcs.final (fl st1 held1 ?_ (bcs.returns ▸ rts))
      simpa only [completedBy, bcs.promptIds] using cm
    · exact fl2 other mem s2 h

theorem topK_le {pl} {row : PlannedRow} (mem : row ∈ pl) : row.topK ≤ InputLogprobPlan.topK ⟨pl⟩ := by
  induction pl with
  | nil => cases mem
  | cons head pl ih =>
    rcases mem_cons.mp mem with rfl | mem
    · exact Nat.le_max_left _ _
    · exact (ih mem).trans (Nat.le_max_right _ _)

theorem commitLogprobs_kept (rows) (kp : AllKept scores landed states)
    (pl : ∀ rid state, states rid = some state → PlannedFor plannedFrom rows rid (landed rid) state) :
    ∃ states', commitLogprobs states rows (logprobPlan plannedFrom rows)
        ((logprobPlan plannedFrom rows).elim {} (scoreRows scores rows)) = .ok states' ∧
      Advanced scores (fun rid => landedAfter rid rows (landed rid)) states states' ∧
      ∀ row ∈ rows, CompletedIn states' row := by
  have rc : ∃ states1, (logprobPlan plannedFrom rows).elim (.ok states) (recordInputLogprobs states rows ·
        ((logprobPlan plannedFrom rows).elim {} (scoreRows scores rows))) = .ok states1 ∧
      Advanced scores (fun rid => landedAfter rid rows (landed rid)) states states1 := by
    cases pn : logprobPlan plannedFrom rows with
    | none =>
      obtain ⟨states1, rc, ad⟩ := recordRows_kept true rows [] kp pl fun _ _ _ => rfl
      simp only [logprobPlan, ite_eq_right_iff, reduceCtorEq, imp_false, List.any_eq_true, decide_eq_true_eq,
        not_exists, not_and, Nat.not_lt, Nat.le_zero] at pn
      cases (recordRows_idle states (fun row mem => pn _ (of_mem_zip mem).2) _ _).symm.trans rc
      exact ⟨states, rfl, ad⟩
    | some pn' =>
      cases (ite_none_right_eq_some.mp pn).2
      obtain ⟨states1, rc, ad⟩ := recordRows_kept
        (decide (0 < InputLogprobPlan.topK ⟨planRows plannedFrom 0 rows⟩)) rows [] kp pl
        fun row mem top => decide_eq_true (Nat.lt_of_lt_of_le top (topK_le mem))
      refine ⟨states1, ?_, ad⟩
      have length := namedRows_length plannedFrom rows []
      simp only [nil_append, length_nil, decide_eq_true_eq] at rc length
      simp only [recordInputLogprobs, elim_some, scoreRows, length_map, length, ne_eq,
        not_true_eq_false, if_false]
      exact rc
  obtain ⟨states1, rc, ad⟩ := rc
  obtain ⟨s2, fn, ad2, fl⟩ := finalizeRows_kept rows ad.allKept
    fun row mem => chunkEnd_le_landedAfter mem _
  refine ⟨s2, ?_, ad.trans ad2, fl⟩
  unfold commitLogprobs
  rw [rc]
  exact fn

end Forwards

/-! ## Runs -/

namespace LogprobRun

variable {h h' : LogprobRun α}

/-- The forwards in flight, for a request whose committed chunks reach `landed`. -/
def Chain (rid : Nat) (state : PromptLogprobs α) : Nat → List (LogprobForward α) → Prop
  | _, [] => True
  | landed, forward :: rest =>
    PlannedFor forward.plannedFrom forward.rows rid landed state ∧
      Chain rid state (landedAfter rid forward.rows landed) rest

variable {rid landed : Nat} {forwards : List (LogprobForward α)} {state : PromptLogprobs α}

theorem Chain.becomes {state'}
    (ch : Chain rid state landed forwards) (bcs : Becomes state state') : Chain rid state' landed forwards := by
  induction forwards generalizing landed with
  | nil => trivial
  | cons forward rest ih => exact ⟨ch.1.mono bcs (Nat.le_refl _), ih ch.2⟩

variable {forward : LogprobForward α}

theorem Chain.append (ch : Chain rid state landed forwards)
    (pl : PlannedFor forward.plannedFrom forward.rows rid
      (forwards.foldl (fun landed forward => landedAfter rid forward.rows landed) landed) state) :
    Chain rid state landed (forwards ++ [forward]) := by
  induction forwards generalizing landed with
  | nil => exact ⟨pl, trivial⟩
  | cons head rest ih => exact ⟨ch.1, ih ch.2 pl⟩

theorem chain_of_absent (ab : ∀ forward ∈ forwards, ∀ row ∈ forward.rows, row.requestId ≠ rid)
    (state : PromptLogprobs α) (landed) : Chain rid state landed forwards := by
  induction forwards generalizing landed with
  | nil => trivial
  | cons forward rest ih =>
    exact ⟨fun row mem sm => absurd sm (ab forward mem_cons_self row mem),
      ih (fun other mem => ab other (mem_cons_of_mem _ mem)) _⟩

/-- Every request keeps its scores up to where its commits reach, and its forwards in flight continue there. -/
structure Sound (h : LogprobRun α) : Prop where
  kept : AllKept h.scores h.landed h.states
  chain : ∀ rid state, h.states rid = some state → Chain rid state (h.landed rid) h.inFlight

theorem Sound.register (sn : Sound h) {pi} (nn : pi ≠ [])
    (ab : ∀ forward ∈ h.inFlight, ∀ row ∈ forward.rows, row.requestId ≠ rid) (rq)
    (scores : Nat → PositionScore α) :
    Sound { h with
      states := update h.states rid (some (.setLogprobs pi rq))
      landed := update h.landed rid 0
      scores := update h.scores rid scores } := by
  constructor
  all_goals
    intro other state held
    by_cases sm : other = rid
  · subst sm
    cases (update_self ..).symm.trans held
    simpa using setLogprobs_kept scores nn rq
  · simpa [sm] using sn.kept other state ((update_of_ne sm ..).symm.trans held)
  · exact sm ▸ chain_of_absent ab state _
  · simpa [sm] using sn.chain other state ((update_of_ne sm ..).symm.trans held)

theorem Sound.dispatch (sn : Sound h) {rows} (pl : ∀ row ∈ rows, h.Plannable row) :
    Sound { h with inFlight := h.inFlight ++ [⟨rows, h.states, logprobPlan h.states rows, rfl⟩] } := by
  refine ⟨sn.kept, fun rid state held => (sn.chain rid state held).append ?_⟩
  rintro row mem rfl
  have gap := pl row mem
  rw [Plannable, show h.states row.requestId = some state from held] at gap
  exact ⟨⟨state, held, .refl _⟩, gap⟩

theorem Sound.release (sn : Sound h) (rid) : Sound { h with states := update h.states rid none } := by
  have kept_states (other : Nat) (state : PromptLogprobs α)
      (held : update h.states rid none other = some state) : h.states other = some state := by
    rcases update_cases held with ⟨-, hn⟩ | ⟨-, held⟩
    · cases hn
    · exact held
  exact ⟨fun other state held => sn.kept other state (kept_states other state held),
    fun other state held => sn.chain other state (kept_states other state held)⟩

theorem Sound.commit (sn : Sound h) {rest}
    (qd : h.inFlight = forward :: rest) : ∃ h', h.step .commit = some (.ok h') ∧ Sound h' ∧
      ∀ row ∈ forward.rows, CompletedIn h'.states row := by
  obtain ⟨rows, plannedFrom, pl, rfl⟩ := forward
  have chain (rid : Nat) (state : PromptLogprobs α) (held : h.states rid = some state) :
      Chain rid state (h.landed rid) (⟨rows, plannedFrom, _, rfl⟩ :: rest) := qd ▸ sn.chain rid state held
  obtain ⟨states', cm, ad, fn⟩ :=
    commitLogprobs_kept rows sn.kept fun rid state held => (chain rid state held).1
  refine ⟨_, by simp only [step, qd, cm]; rfl, ⟨ad.allKept, fun rid state' held' => ?_⟩, fn⟩
  obtain ⟨state, held, bcs, -⟩ := ad rid state' held'
  exact (chain rid state held).2.becomes bcs

theorem Sound.step (sound : Sound h) {event result} (orderly : h.Orderly event) (taken : h.step event = some result) :
    ∃ h', result = .ok h' ∧ Sound h' := by
  cases event with
  | register rid promptIds request scores =>
    cases taken
    exact ⟨_, rfl, sound.register orderly.1 orderly.2 request scores⟩
  | dispatch rows =>
    cases taken
    exact ⟨_, rfl, sound.dispatch orderly⟩
  | commit =>
    cases queued : h.inFlight with
    | nil => simp [LogprobRun.step, queued] at taken
    | cons forward rest =>
      obtain ⟨h', eq, sound', -⟩ := sound.commit queued
      cases taken.symm.trans eq
      exact ⟨h', rfl, sound'⟩
  | release rid =>
    cases taken
    exact ⟨_, rfl, sound.release rid⟩

theorem sound_of_reachable {scores : Nat → Nat → PositionScore α}
    (rc : Relation.ReflTransGen Step { scores } h) : Sound h := by
  induction rc with
  | refl => exact ⟨fun _ _ held => (by cases held), fun _ _ held => (by cases held)⟩
  | tail _ ls ih =>
    obtain ⟨ev, orderly, tk⟩ := ls
    obtain ⟨_, eq, sn⟩ := ih.step orderly tk
    cases eq
    exact sn

theorem reachable_of_steps {evs} : h.steps evs = some h' → Relation.ReflTransGen Step h h' :=
  reaches_of_run (fun _ => rfl) fun {_ ev _ _} tk => by
    simp only [steps] at tk
    split at tk
    · next eq =>
      obtain ⟨orderly, tk⟩ := ite_none_right_eq_some.mp tk
      exact ⟨_, ⟨ev, orderly, eq⟩, tk⟩
    · cases tk

end LogprobRun

end TokenSpeed.Engine

import TokenSpeed.Engine.Output

/-!
# Prompt logprobs

The prompt logprobs of `OutputProcessor` and `RequestState` (`ts-control/src/output.rs`, `request.rs`): which
rows of a forward's flat input are scored, where the scores are kept, and what is assembled once the prompt is
computed. A plan's columns are one record per row, and the values and ids of the alternatives one list of
pairs. Lengths and positions are at least 0 here: the prompt of a request that runs is not empty.
-/

namespace TokenSpeed.Engine

open Function

variable {α : Type}

/-! ## A request -/

abbrev TopLogprobs (α : Type) := List α × List Token

structure InputLogprobs (α : Type) where
  values : List (Option α)
  ids : List Token
  top : Option (List (Option (TopLogprobs α)))
  deriving DecidableEq

/-- `LogprobRequest`, with the `return_logprob` it is set under. -/
structure LogprobRequest where
  start : Int := -1
  topLogprobsNum : Nat := 0
  returnLogprob : Bool := true
  computesPromptLogprobs : Bool := true

/-- What a `RequestState` holds of its prompt's logprobs. -/
structure PromptLogprobs (α : Type) where
  promptIds : List Token
  logprobStartLen : Nat
  topLogprobsNum : Nat
  returnsInputLogprobs : Bool
  inputLogprobRows : Option (List (Option α)) := none
  inputTopLogprobRows : Option (List (Option (TopLogprobs α))) := none
  inputLogprobs : Option (InputLogprobs α) := none

def place {β : Type} (rows : List (Option β)) (offset : Nat) (values : List β) : List (Option β) :=
  rows.mapIdx fun i row => if offset ≤ i then values[i - offset]?.or row else row

def TopLogprobs.cut (k : Nat) (top : TopLogprobs α) : TopLogprobs α := (top.1.take k, top.2.take k)

namespace PromptLogprobs

variable (state : PromptLogprobs α)

def wantsInputLogprobs : Bool :=
  state.returnsInputLogprobs && decide (state.logprobStartLen < state.promptIds.length - 1)

def scored : Nat := state.promptIds.length - 1 - state.logprobStartLen

/-- `set_logprobs`, on the state of a new request. -/
def setLogprobs (promptIds : List Token) (request : LogprobRequest) : PromptLogprobs α :=
  let lastPosition := promptIds.length - 1
  -- −1, the default, is the last position
  let start := if request.start < 0 then lastPosition else min request.start.toNat lastPosition
  let state : PromptLogprobs α :=
    { promptIds, logprobStartLen := start, topLogprobsNum := request.topLogprobsNum
      returnsInputLogprobs := request.returnLogprob && request.computesPromptLogprobs }
  if state.wantsInputLogprobs then
    { state with
      inputLogprobRows := some (List.replicate state.scored none)
      inputTopLogprobRows := if 0 < state.topLogprobsNum then some (List.replicate state.scored none) else none }
  else state

def record (start : Nat) (logprobs : List α) (top : Option (List (TopLogprobs α))) : Except String (PromptLogprobs α) :=
  match state.inputLogprobRows with
  | none => .error "prompt logprobs recorded for a request that wants none"
  | some rows =>
    let offset := start - state.logprobStartLen
    if start < state.logprobStartLen ∨ rows.length < offset + logprobs.length then
      .error ("prompt logprob rows [" ++ toString start ++ ", " ++ toString (start + logprobs.length) ++
        ") fall outside [" ++ toString state.logprobStartLen ++ ", " ++ toString (state.promptIds.length - 1) ++ ")")
    else
      let state := { state with inputLogprobRows := some (place rows offset logprobs) }
      match state.inputTopLogprobRows, top with
      | none, _ => .ok state
      | some _, none =>
        .error "prompt logprobs recorded without the top-k alternatives the request asked for"
      | some topRows, some top =>
        .ok { state with
          inputTopLogprobRows := some (place topRows offset (top.map (TopLogprobs.cut state.topLogprobsNum))) }

def finalize : Except String (PromptLogprobs α) :=
  if !state.returnsInputLogprobs || state.inputLogprobs.isSome then .ok state
  else
    let rows := state.inputLogprobRows.getD []
    let missing := rows.countP Option.isNone
    if 0 < missing then
      .error ("prompt logprobs incomplete: " ++ toString missing ++ " of " ++ toString rows.length ++
        " positions have no value")
    else
      let values := none :: rows
      let ids := state.promptIds.drop state.logprobStartLen
      if values.length ≠ ids.length then
        .error ("prompt logprobs have " ++ toString values.length ++ " values for " ++ toString ids.length ++ " tokens")
      else if 0 < state.topLogprobsNum then
        let tops := state.inputTopLogprobRows.getD []
        if tops.length ≠ values.length - 1 ∨ 0 < tops.countP Option.isNone then
          .error ("prompt top-k logprobs incomplete: " ++ toString (tops.countP Option.isSome) ++ " of " ++
            toString (values.length - 1) ++ " positions have alternatives")
        else
          .ok { state with
            inputLogprobRows := none
            inputTopLogprobRows := none
            -- the first position has no alternatives, like its value
            inputLogprobs := some ⟨values, ids, some (none :: tops)⟩ }
      else .ok { state with inputLogprobRows := none, inputLogprobs := some ⟨values, ids, none⟩ }

end PromptLogprobs

/-! ## Plans -/

abbrev LogprobStates (α : Type) := Nat → Option (PromptLogprobs α)

/-- One row of an `InputLogprobPlan`; `topK` is what the row adds to the plan's. -/
structure PlannedRow where
  rowStart : Nat := 0
  count : Nat := 0
  positionStart : Nat := 0
  topK : Nat := 0
  deriving DecidableEq, Repr

structure InputLogprobPlan where
  rows : List PlannedRow
  deriving DecidableEq, Repr

def InputLogprobPlan.topK (plan : InputLogprobPlan) : Nat := plan.rows.foldr (fun row k => max row.topK k) 0

def BatchRow.chunkEnd (row : BatchRow) : Nat :=
  match row.kind with
  | .extend prefixLen _ => prefixLen + row.inputLength
  | .decode => 0

def planChunk (state : PromptLogprobs α) (chunkStart chunkLen rowOffset : Nat) : PlannedRow :=
  let lo := max chunkStart state.logprobStartLen
  let hi := min (chunkStart + chunkLen) (state.promptIds.length - 1)
  if state.wantsInputLogprobs ∧ state.inputLogprobs.isNone ∧ lo < hi then
    ⟨rowOffset + lo - chunkStart, hi - lo, lo, state.topLogprobsNum⟩
  else {}

def BatchRow.extendLength (row : BatchRow) : Nat := if row.isDecode then 0 else row.inputLength

def planRow (states : LogprobStates α) (rowOffset : Nat) (row : BatchRow) : PlannedRow :=
  match row.kind, states row.requestId with
  | .extend prefixLen _, some state => planChunk state prefixLen row.inputLength rowOffset
  | _, _ => {}

/-- The rows of `logprob_plan`. The source's loop ends where the decode rows begin; here they plan nothing. -/
def planRows (states : LogprobStates α) : Nat → List BatchRow → List PlannedRow
  | _, [] => []
  | rowOffset, row :: rows => planRow states rowOffset row :: planRows states (rowOffset + row.extendLength) rows

def logprobPlan (states : LogprobStates α) (rows : List BatchRow) : Option InputLogprobPlan :=
  let plan : InputLogprobPlan := ⟨planRows states 0 rows⟩
  if plan.rows.any (fun row => decide (0 < row.count)) then some plan else none

/-! ## Results -/

/-- The prompt columns of a `ForwardResult`. -/
structure InputResult (α : Type) where
  inputTokenLogprobs : Option (List α) := none
  inputTopLogprobs : Option (List (TopLogprobs α)) := none

/-- `CommitError`, the kinds prompt logprobs can raise. -/
inductive LogprobError where
  | shape (rows found : Nat)
  | inputLogprobs (rid : Nat) (detail : String)
  deriving DecidableEq, Repr

def putState (states : LogprobStates α) (rid : Nat) :
    Except String (PromptLogprobs α) → Except LogprobError (LogprobStates α)
  | .ok state => .ok (update states rid (some state))
  | .error detail => .error (.inputLogprobs rid detail)

def recordRow (states : LogprobStates α) (row : BatchRow) (planned : PlannedRow) (values : List α)
    (top : Option (List (TopLogprobs α))) : Except LogprobError (LogprobStates α) :=
  if planned.count = 0 then .ok states
  else
    match states row.requestId with
    | none => .ok states
    | some state =>
      if state.inputLogprobRows.isSome then
        putState states row.requestId (state.record planned.positionStart values top)
      else .ok states

/-- The loop of `record_input_logprobs`, on the result from its cursor on. -/
def recordRows : LogprobStates α → List (BatchRow × PlannedRow) → List α → Option (List (TopLogprobs α)) →
    Except LogprobError (LogprobStates α)
  | states, [], _, _ => .ok states
  | states, (row, planned) :: rest, values, top => do
    let states ←
      recordRow states row planned (values.take planned.count) (top.map (List.take planned.count))
    recordRows states rest (values.drop planned.count) (top.map (List.drop planned.count))

def recordInputLogprobs (states : LogprobStates α) (rows : List BatchRow) (plan : InputLogprobPlan)
    (result : InputResult α) : Except LogprobError (LogprobStates α) :=
  match result.inputTokenLogprobs with
  | none => .ok states
  | some values =>
    let count := (plan.rows.map PlannedRow.count).sum
    if values.length ≠ count then .error (.shape count values.length)
    else recordRows states (rows.zip plan.rows) values result.inputTopLogprobs

/-- A row that completes its prompt: `finalize_input_logprobs` is called for it. -/
def PromptLogprobs.completedBy (state : PromptLogprobs α) (row : BatchRow) : Bool :=
  !row.isDecode && !row.midChunk && decide (state.promptIds.length ≤ row.chunkEnd)

def finalizeRow (states : LogprobStates α) (row : BatchRow) : Except LogprobError (LogprobStates α) :=
  match states row.requestId with
  | none => .ok states
  | some state => if state.completedBy row then putState states row.requestId state.finalize else .ok states

def finalizeRows : LogprobStates α → List BatchRow → Except LogprobError (LogprobStates α)
  | states, [] => .ok states
  | states, row :: rows => do
    let states ← finalizeRow states row
    finalizeRows states rows

def commitLogprobs (states : LogprobStates α) (rows : List BatchRow) (plan : Option InputLogprobPlan)
    (result : InputResult α) : Except LogprobError (LogprobStates α) := do
  let states ← plan.elim (.ok states) (recordInputLogprobs states rows · result)
  finalizeRows states rows

/-! ## The data plane -/

structure PositionScore (α : Type) where
  value : α
  top : TopLogprobs α

def BatchRow.promptInput (row : BatchRow) : List (Nat × Nat) :=
  match row.kind with
  | .extend prefixLen _ => (List.range' prefixLen row.inputLength).map (row.requestId, ·)
  | .decode => []

def flatInput (rows : List BatchRow) : List (Nat × Nat) := rows.flatMap BatchRow.promptInput

def namedRows (input : List (Nat × Nat)) (planned : List PlannedRow) : List (Nat × Nat) :=
  planned.flatMap fun row => (input.drop row.rowStart).take row.count

def scoreRows (scores : Nat → Nat → PositionScore α) (rows : List BatchRow) (plan : InputLogprobPlan) : InputResult α :=
  let named := namedRows (flatInput rows) plan.rows
  { inputTokenLogprobs := some (named.map fun at_ => (scores at_.1 at_.2).value)
    inputTopLogprobs :=
      if 0 < plan.topK then some (named.map fun at_ => (scores at_.1 at_.2).top) else none }

/-! ## Runs -/

structure LogprobForward (α : Type) where
  rows : List BatchRow
  plannedFrom : LogprobStates α
  plan : Option InputLogprobPlan
  planned : plan = logprobPlan plannedFrom rows

def landedAfter (rid : Nat) (rows : List BatchRow) (landed : Nat) : Nat :=
  rows.foldl (fun landed row => if row.requestId = rid then max landed row.chunkEnd else landed) landed

/-- Prompt logprobs across the rounds, with the positions' scores and how far the committed chunks of a
prompt reach beside the states. -/
structure LogprobRun (α : Type) where
  states : LogprobStates α := fun _ => none
  inFlight : List (LogprobForward α) := []
  landed : Nat → Nat := fun _ => 0
  scores : Nat → Nat → PositionScore α

namespace LogprobRun

inductive Event (α : Type) where
  | register (rid : Nat) (promptIds : List Token) (request : LogprobRequest) (scores : Nat → PositionScore α)
  | dispatch (rows : List BatchRow)
  | commit
  | release (rid : Nat)

def frontier (h : LogprobRun α) (rid : Nat) : Nat :=
  h.inFlight.foldl (fun landed forward => landedAfter rid forward.rows landed) (h.landed rid)

/-- A chunk starts at the latest where those before it end, or at the request's `max_cached_prefix_tokens`:
the first follows a prefix hit, a later one the chunk before it, and replayed rows move the start back. -/
def NoGap (state : PromptLogprobs α) (landed : Nat) (row : BatchRow) : Prop :=
  match row.kind with
  | .extend prefixLen _ => state.wantsInputLogprobs → prefixLen ≤ max landed state.logprobStartLen
  | .decode => True

instance (state : PromptLogprobs α) (landed : Nat) (row : BatchRow) : Decidable (NoGap state landed row) := by
  unfold NoGap
  cases row.kind <;> infer_instance

def Plannable (h : LogprobRun α) (row : BatchRow) : Prop :=
  match h.states row.requestId with
  | none => True
  | some state => NoGap state (h.frontier row.requestId) row

instance (h : LogprobRun α) (row : BatchRow) : Decidable (Plannable h row) := by
  unfold Plannable
  cases h.states row.requestId <;> infer_instance

/-- What an event comes to; the result of a commit is what `commit` returns. -/
def step (h : LogprobRun α) : Event α → Option (Except LogprobError (LogprobRun α))
  | .register rid promptIds request scores =>
    some (.ok { h with
      states := update h.states rid (some (.setLogprobs promptIds request))
      landed := update h.landed rid 0
      scores := update h.scores rid scores })
  | .dispatch rows => some (.ok { h with inFlight := h.inFlight ++ [⟨rows, h.states, logprobPlan h.states rows, rfl⟩] })
  | .commit =>
    match h.inFlight with
    | [] => none
    | forward :: rest =>
      let result := forward.plan.elim {} (scoreRows h.scores forward.rows)
      some do
        let states ← commitLogprobs h.states forward.rows forward.plan result
        pure { h with
          states, inFlight := rest, landed := fun rid => landedAfter rid forward.rows (h.landed rid) }
  | .release rid => some (.ok { h with states := update h.states rid none })

/-- An id is registered again only once its forwards have committed, and never with an empty prompt; chunks
follow one another. -/
def Orderly (h : LogprobRun α) : Event α → Prop
  | .register rid promptIds _ _ =>
    promptIds ≠ [] ∧ ∀ forward ∈ h.inFlight, ∀ row ∈ forward.rows, row.requestId ≠ rid
  | .dispatch rows => ∀ row ∈ rows, h.Plannable row
  | .commit | .release _ => True

instance (h : LogprobRun α) (event : Event α) : Decidable (h.Orderly event) :=
  match event with
  | .register .. => inferInstanceAs (Decidable (_ ∧ ∀ forward ∈ _, ∀ row ∈ _, _))
  | .dispatch _ => inferInstanceAs (Decidable (∀ row ∈ _, h.Plannable row))
  | .commit | .release _ => .isTrue trivial

def Step (h h' : LogprobRun α) : Prop := ∃ event, h.Orderly event ∧ h.step event = some (.ok h')

def steps : LogprobRun α → List (Event α) → Option (LogprobRun α)
  | h, [] => some h
  | h, event :: events =>
    match h.step event with
    | some (.ok h') => if h.Orderly event then steps h' events else none
    | _ => none

end LogprobRun

end TokenSpeed.Engine

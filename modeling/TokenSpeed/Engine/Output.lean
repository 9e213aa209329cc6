import TokenSpeed.Engine.History

/-!
# Results and outputs

`OutputProcessor` of `ts-control/src/output.rs`: how a forward's results reach the states of their requests,
what the scheduler is told, and what streams to the clients. Logprobs, usage statistics and logging are left
out. An output carries its admission, and a commit the tokens each of its rows left; the source has neither.
-/

namespace TokenSpeed.Engine

open Function

inductive EngineRole where
  | plain
  | prefill
  | decode
  deriving DecidableEq, Repr

/-- `ForwardEvent`, the kinds this side produces. -/
inductive ForwardEvent where
  | extendResult (rid : Nat) (tokens specCandidateIds : List Token)
  | finish (rid : Nat)
  | abort (rid : Nat)
  | updateReserveNumTokens (rid : Nat) (reserve : Int)
  deriving DecidableEq, Repr

namespace ForwardEvent

def rid : ForwardEvent → Nat
  | extendResult rid .. | finish rid | abort rid | updateReserveNumTokens rid _ => rid

/-- `finish`: an abort keeps corrupted pages out of the caches. -/
def ending (rid : Nat) (nanDetected : Bool) : ForwardEvent := if nanDetected then .abort rid else .finish rid

end ForwardEvent

structure StreamedOutput where
  rid : Nat
  admission : Nat
  outputIds : List Token
  finishReason : Option String
  promptTokens : Int
  completionTokens : Int
  cachedTokens : Int
  specVerifyCt : Option Int
  deriving DecidableEq, Repr

structure Committed where
  events : List ForwardEvent := []
  outputs : List StreamedOutput := []
  released : List Nat := []
  deriving DecidableEq, Repr

inductive CommitError where
  | shape (rows : Nat) (column : String) (found : Nat)
  | emptyDecode (rid : Nat)
  | physicalExtent (rid : Nat) (total limit : Int)
  | grammarRejected (rid : Nat) (token : Token)
  | bootstrapMismatch (rid : Nat) (sampled candidate : Token)
  deriving DecidableEq, Repr

structure ForwardResult where
  outputTokens : List Token
  outputLengths : List Int
  nanFlags : Option (List Nat) := none
  grammarTerminatedAt : Option (List Int) := none
  nextInputIds : Option (List (List Token)) := none

abbrev States := Nat → Option RequestState

structure OutputProcessor where
  role : EngineRole := .plain
  specNumTokens : Option Nat := none
  streamInterval : Int := 1
  physicalContextLen : Option Int := none
  states : States := fun _ => none
  admissions : Nat := 0
  pendingAborts : List (Nat × Nat) := []

def window (values : List Token) (start len : Nat) : List Token := (values.drop start).take len

namespace BatchRow

variable (row : BatchRow)

def isDecode : Bool := row.kind = .decode

def midChunk : Bool :=
  match row.kind with
  | .extend prefixLen _ => decide (prefixLen + row.inputLength < row.prefillLength)
  | .decode => false

def computed (before : Int) : Int :=
  match row.kind with
  | .extend prefixLen _ => row.inputLength + prefixLen
  | .decode => before + row.inputLength

end BatchRow

structure RowResult where
  tokens : List Token
  outputLength : Nat
  nan : Bool
  terminatedAt : Int
  candidates : Option (List Token)

namespace ForwardResult

variable (result : ForwardResult)

/-- The results of the rows from the `i`-th on, whose tokens start at `pt`: a decode row stores its whole
verify window, a prefill row what it samples. -/
def rowResults (specNumTokens : Option Nat) : Nat → Nat → List BatchRow → List (BatchRow × RowResult)
  | _, _, [] => []
  | i, pt, row :: rows =>
    let outputLength := (result.outputLengths.getD i 0).toNat
    (row,
      { tokens := window result.outputTokens pt outputLength
        outputLength := outputLength
        nan := result.nanFlags.any fun flags => flags.getD i 0 ≠ 0
        terminatedAt := (result.grammarTerminatedAt.bind (·[i]?)).getD (-1)
        candidates := result.nextInputIds.bind (·[i]?) }) ::
    rowResults specNumTokens (i + 1) (pt + if row.isDecode then specNumTokens.getD 1 else outputLength) rows

def checkShape (rows : Nat) : Except CommitError Unit :=
  if result.outputLengths.length ≠ rows then .error (.shape rows "output_lengths" result.outputLengths.length)
  else
    match result.nanFlags with
    | some flags => if flags.length ≠ rows then .error (.shape rows "nan_flags" flags.length) else .ok ()
    | none => .ok ()

end ForwardResult

/-! ## One request -/

namespace RequestState

variable (state : RequestState)

def numericalError : String :=
  "Request terminated: numerical corruption (NaN logits or out-of-vocab sample) detected during generation."

def advanceGrammar (rid : Nat) (token : Token) : Except CommitError RequestState :=
  match state.grammar with
  | none => .ok state
  | some grammar =>
    if grammar.isTerminated then .ok state
    else
      match grammar.acceptToken token with
      | (true, grammar) => .ok { state with grammar := some grammar }
      | (false, _) => .error (.grammarRejected rid token)

def endAt (hostfunc : Bool) (terminatedAt : Int) (j : Nat) (token : Token) : RequestState :=
  if terminatedAt = j ∧ state.finished = false then { state with finishedReason := some (.matchedToken token) }
  else state.checkFinished hostfunc

def pushToken (rid : Nat) (hostfunc : Bool) (token : Token) : Except CommitError RequestState :=
  let state := { state with outputIds := state.outputIds ++ [token] }
  if hostfunc then .ok state else state.advanceGrammar rid token

def takeTokens (rid : Nat) (hostfunc : Bool) (terminatedAt : Int) :
    Nat → RequestState → List Token → Except CommitError RequestState
  | _, state, [] => .ok state
  | j, state, token :: tokens =>
    match state.pushToken rid hostfunc token with
    | .error e => .error e
    | .ok state =>
      let state := state.endAt hostfunc terminatedAt j token
      if state.finished then .ok state else takeTokens rid hostfunc terminatedAt (j + 1) state tokens

def streamOutput (specNumTokens : Option Nat) (defaultStreamInterval : Int) (rid : Nat) :
    Option StreamedOutput × RequestState :=
  if state.outputDue defaultStreamInterval then
    (some {
        rid := rid
        admission := state.admission
        outputIds := state.outputIds.drop state.sendTokenOffset
        finishReason := state.finishedReason.map FinishReason.wireType
        promptTokens := state.promptLen
        completionTokens := state.outputIds.length
        cachedTokens := state.cachedTokens
        specVerifyCt := specNumTokens.map fun _ => state.specVerifyCt },
      { state with
        finishedOutput := state.finishedOutput || state.finished
        sendTokenOffset := state.outputIds.length })
  else (none, state)

end RequestState

/-! ## Commits -/

inductive Fate where
  | keep
  | stream
  | release
  deriving DecidableEq, Repr

structure RowOutcome where
  state : RequestState
  events : List ForwardEvent
  fate : Fate

namespace OutputProcessor

variable (p : OutputProcessor)

variable (hostfunc : Bool) (states : States) (row : BatchRow) (result : RowResult) (state : RequestState)

/-- The state of a row that keeps tokens, before it takes them: a NaN ends the request, and a verified row
is counted. -/
def opened (nanDetected : Bool) (state : RequestState) : RequestState :=
  let state :=
    if nanDetected ∧ state.finished = false then
      { state with finishedReason := some (.abort RequestState.numericalError .numericalError none) }
    else state
  if row.isDecode ∧ p.specNumTokens.isSome then { state with specVerifyCt := state.specVerifyCt + 1 } else state

def checkRow : Except CommitError Unit :=
  if row.isDecode ∧ result.outputLength = 0 then .error (.emptyDecode row.requestId)
  else
    match p.physicalContextLen with
    | some limit =>
      let total := state.promptLen + state.outputIds.length + result.outputLength
      if row.isDecode ∧ p.specNumTokens.isSome ∧ limit < total then .error (.physicalExtent row.requestId total limit)
      else .ok ()
    | none => .ok ()

def specCandidates (tokens : List Token) (nanDetected : Bool) : Except CommitError (List Token) :=
  match tokens, result.candidates with
  | sampled :: _, some candidates =>
    if p.role = .prefill ∧ nanDetected = false then
      match candidates with
      | first :: _ =>
        if first ≠ sampled then .error (.bootstrapMismatch row.requestId sampled first) else .ok candidates
      | [] => .ok candidates
    else .ok []
  | _, _ => .ok []

def closing (nanDetected : Bool) (state : RequestState) : List ForwardEvent × Fate :=
  let ending := ForwardEvent.ending row.requestId nanDetected
  if p.role = .prefill then
    if nanDetected then ([.ending row.requestId true], .release) else ([], .keep)
  else if state.toAbort ∧ state.finished then ([ending], if state.abortNotifyClient then .stream else .release)
  else if state.finished then ([ending], .stream)
  else if row.isDecode then ([.updateReserveNumTokens row.requestId result.outputLength], .stream)
  else ([], .stream)

def commitTokens : Except CommitError RowOutcome := do
  let nanDetected := result.nan || state.numericalErrorDetected
  -- one sanitized token keeps the accounting of a request the NaN ends
  let tokens := if nanDetected ∧ state.finished = false then result.tokens.take 1 else result.tokens
  let terminatedAt := if state.grammar.isSome then result.terminatedAt else -1
  p.checkRow row result state
  let state ← (p.opened row nanDetected state).takeTokens row.requestId hostfunc terminatedAt 0 tokens
  let candidates ← p.specCandidates row result tokens nanDetected
  let closing := p.closing row result nanDetected state
  pure ⟨state, .extendResult row.requestId tokens candidates :: closing.1, closing.2⟩

def commitState : Except CommitError RowOutcome :=
  let state := { state with computedLength := row.computed state.computedLength }
  if row.midChunk then
    .ok ⟨{ state with numericalErrorDetected := state.numericalErrorDetected || result.nan },
      [.extendResult row.requestId [] []], .keep⟩
  else if state.prefillFinished = false then .ok ⟨state, [], .keep⟩
  else p.commitTokens hostfunc row result state

structure RowsDone where
  states : States
  events : List ForwardEvent := []
  streamed : List Nat := []
  released : List Nat := []
  /-- for each row the tokens its state took -/
  kept : List (List Token) := []

def commitRow : Except CommitError RowsDone :=
  match states row.requestId with
  | none =>
    -- the request ended while the forward was in flight
    .ok { states := states
          events := [.extendResult row.requestId (if row.midChunk then [] else result.tokens) []]
          kept := [[]] }
  | some state => do
    let outcome ← p.commitState hostfunc row result state
    let kept := [outcome.state.outputIds.drop state.outputIds.length]
    match outcome.fate with
    | .keep =>
      pure { states := update states row.requestId (some outcome.state), events := outcome.events,
             kept := kept }
    | .stream =>
      pure { states := update states row.requestId (some outcome.state), events := outcome.events,
             streamed := [row.requestId], kept := kept }
    | .release =>
      pure { states := update states row.requestId none, events := outcome.events,
             released := [row.requestId], kept := kept }

def commitRows (hostfunc : Bool) : States → List (BatchRow × RowResult) → Except CommitError RowsDone
  | states, [] => .ok { states := states }
  | states, (row, result) :: rest => do
    let one ← p.commitRow hostfunc states row result
    let more ← commitRows hostfunc one.states rest
    pure {
      states := more.states
      events := one.events ++ more.events
      streamed := one.streamed ++ more.streamed
      released := one.released ++ more.released
      kept := one.kept ++ more.kept }

def countCached (rows : List BatchRow) : States :=
  rows.foldl (fun states row =>
    match row.kind, states row.requestId with
    | .extend prefixLen replayLen, some state =>
      let hit : Int := prefixLen + replayLen
      update states row.requestId
        (some { state with cachedTokens := state.cachedTokens + max (hit - state.computedLength) 0 })
    | _, _ => states) states

def streamAll : States → List Nat → List StreamedOutput × List Nat × States
  | states, [] => ([], [], states)
  | states, rid :: rids =>
    match states rid with
    | none => streamAll states rids
    | some state =>
      let (output, state) := state.streamOutput p.specNumTokens p.streamInterval rid
      let ended := state.finished
      let (outputs, released, states) :=
        streamAll (update states rid (if ended then none else some state)) rids
      (output.toList ++ outputs, (if ended then [rid] else []) ++ released, states)

/-- `commit`, with the tokens each row left in its state. -/
def commit (rows : List BatchRow) (result : ForwardResult) :
    Except CommitError (Committed × List (List Token) × OutputProcessor) := do
  result.checkShape rows.length
  let done ← p.commitRows result.grammarTerminatedAt.isSome (countCached p.states rows)
    (result.rowResults p.specNumTokens 0 0 rows)
  let (outputs, released, states) := p.streamAll done.states done.streamed.eraseDups
  pure (⟨done.events, outputs, done.released ++ released⟩, done.kept, { p with states := states })

/-! ## Registration and the other ends of a request -/

def register (rid : Nat) (state : RequestState) : OutputProcessor :=
  let state := { state with admission := p.admissions + 1 }
  let state :=
    if p.pendingAborts.any (·.1 = rid) then state.abort "AbortReq from client" false none else state
  let state := if p.role = .decode then { state with computedLength := state.promptLen } else state
  { p with
    admissions := p.admissions + 1
    pendingAborts := p.pendingAborts.eraseP (·.1 = rid)
    states := update p.states rid (some state) }

def sweepPendingAborts (now ttl : Nat) : OutputProcessor :=
  { p with pendingAborts := p.pendingAborts.dropWhile fun pending => decide (ttl ≤ now - pending.2) }

def markAbort (rid : Nat) (notifyClient : Bool) (now ttl : Nat) : OutputProcessor :=
  match p.states rid with
  | some state =>
    let message := if notifyClient then "Aborted by pause" else "AbortReq from client"
    { p with states := update p.states rid (some (state.abort message notifyClient none)) }
  | none =>
    let p := p.sweepPendingAborts now ttl
    { p with pendingAborts := p.pendingAborts ++ [(rid, now)] }

def depart (rid : Nat) (state : RequestState) (sends : Bool) : Committed × OutputProcessor :=
  let outputs := if sends then (state.streamOutput p.specNumTokens p.streamInterval rid).1.toList else []
  (⟨[], outputs, [rid]⟩, { p with states := update p.states rid none })

def finishPrefill (rid : Nat) : Committed × OutputProcessor :=
  match p.states rid with
  | none => ({}, p)
  | some state =>
    let state :=
      if state.finished then state else { state with finishedReason := some (.length state.outputIds.length) }
    p.depart rid { state with finishedOutput := false } (!state.toAbort || state.abortNotifyClient)

def remotePrefillDone (rid : Nat) (bootstrapToken : Token) (cachedTokens : Int) : OutputProcessor :=
  match p.states rid with
  | none => p
  | some state =>
    let state := { state with
      cachedTokens := cachedTokens
      outputIds := state.outputIds ++ [bootstrapToken]
      grammar := state.grammar.map fun grammar => (RequestGrammar.acceptToken grammar bootstrapToken).2 }
    { p with states := update p.states rid (some (state.checkFinished false)) }

def finishRemotePrefillOnly (rid : Nat) : Committed × OutputProcessor :=
  match p.states rid with
  | none => ({}, p)
  | some state =>
    if state.finished then
      let (committed, p) := p.depart rid state (!state.toAbort || state.abortNotifyClient)
      ({ committed with events := [.ending rid state.toAbort] }, p)
    else ({}, p)

def failTransfer (rid : Nat) : Committed × OutputProcessor :=
  match p.states rid with
  | none => ({}, p)
  | some state =>
    if state.finished then p.depart rid { state with finishedOutput := false } state.abortNotifyClient
    else
      let state := state.abort "PD/EPD remote transfer failed or timed out" false none
      p.depart rid { state with finishedOutput := false } true

def reapUnscheduled (rid : Nat) : Committed × OutputProcessor :=
  match p.states rid with
  | none => ({}, p)
  | some state => p.depart rid { state with finishedOutput := false } state.abortNotifyClient

def failUnscheduled (rid : Nat) (reason : String) (statusCode : Option Nat) : Committed × OutputProcessor :=
  match p.states rid with
  | none => ({}, p)
  | some state =>
    let state := if state.finished then state else state.abort reason true statusCode
    p.depart rid { state with finishedOutput := false } (!state.toAbort || state.abortNotifyClient)

/-- One request of `finish_scheduler_aborts`. -/
def finishSchedulerAbort (rid : Nat) (detail : String) : Committed × OutputProcessor :=
  match p.states rid with
  | none => ({}, p)
  | some state =>
    if state.finished then p.depart rid state state.abortNotifyClient
    else
      let message := "Request aborted by the scheduler: " ++ detail
      p.depart rid { state with finishedReason := some (.abort message .capacityAbort none) } true

end OutputProcessor

end TokenSpeed.Engine

import TokenSpeed.Scheduler.Request

/-!
# One admitted request

`RequestState` of `ts-control/src/request.rs`: the tokens of a request the control plane has admitted, how
it ends and when its output is due. The logprobs and the timings it also carries are left out.
-/

namespace TokenSpeed.Engine

inductive AbortCode where
  | unknownError
  | capacityAbort
  | numericalError
  deriving DecidableEq, Repr

inductive FinishReason where
  | length (length : Int)
  | matchedToken (token : Token)
  | abort (message : String) (errType : AbortCode) (statusCode : Option Nat)
  deriving DecidableEq, Repr

namespace FinishReason

def wireType : FinishReason → String
  | length _ => "length"
  | matchedToken _ => "stop"
  | abort .. => "abort"

end FinishReason

/-- `RequestGrammar`: any matcher, as a function of the tokens it has accepted. -/
structure RequestGrammar where
  accepts : List Token → Token → Bool
  terminates : List Token → Bool
  accepted : List Token := []

namespace RequestGrammar

variable (g : RequestGrammar)

def isTerminated : Bool := g.terminates g.accepted

/-- `accept_token`; a rejected token leaves the matcher alone. -/
def acceptToken (token : Token) : Bool × RequestGrammar :=
  if g.accepts g.accepted token then (true, { g with accepted := g.accepted ++ [token] }) else (false, g)

end RequestGrammar

structure RequestState where
  promptIds : List Token
  maxNewTokens : Int
  stopTokenIds : List Token := []
  stream : Bool := true
  streamInterval : Option Int := none
  computedLength : Int := 0
  outputIds : List Token := []
  cachedTokens : Int := 0
  specVerifyCt : Int := 0
  numericalErrorDetected : Bool := false
  finishedReason : Option FinishReason := none
  toAbort : Bool := false
  abortNotifyClient : Bool := false
  grammar : Option RequestGrammar := none
  admission : Nat := 0
  sendTokenOffset : Nat := 0
  finishedOutput : Bool := false

def forcedStreamInterval : Int := 50

namespace RequestState

variable (state : RequestState)

def promptLen : Int := state.promptIds.length

def tokens : List Token := state.promptIds ++ state.outputIds

def finished : Bool := state.finishedReason.isSome

def prefillFinished : Bool := decide (state.promptLen ≤ state.computedLength)

def abort (message : String) (notifyClient : Bool) (statusCode : Option Nat) : RequestState :=
  { state with
    toAbort := true
    abortNotifyClient := notifyClient
    finishedReason := some (.abort message .unknownError statusCode) }

def grammarEnd : Option Token :=
  match state.grammar, state.outputIds.getLast? with
  | some grammar, some last => if grammar.isTerminated then some last else none
  | _, _ => none

def stopEnd : Option Token := state.outputIds.getLast?.filter (· ∈ state.stopTokenIds)

/-- What `check_finished` finds for a request that has not ended. -/
def finishFound (skipGrammarTermination : Bool) : Option FinishReason :=
  match (if skipGrammarTermination then none else state.grammarEnd) with
  | some last => some (.matchedToken last)
  | none =>
    if state.maxNewTokens ≤ state.outputIds.length then some (.length state.maxNewTokens)
    else state.stopEnd.map .matchedToken

def checkFinished (skipGrammarTermination : Bool) : RequestState :=
  if state.finished then state else { state with finishedReason := state.finishFound skipGrammarTermination }

def outputDue (defaultStreamInterval : Int) : Bool :=
  if state.finished then !state.finishedOutput
  else
    let generated : Int := state.outputIds.length
    if state.stream then
      let interval := max (state.streamInterval.getD defaultStreamInterval) 1
      if 1 < interval then decide (generated % interval = 1) else decide (generated % interval = 0)
    else decide (generated = 1) || decide (generated % forcedStreamInterval = 0)

end RequestState

end TokenSpeed.Engine

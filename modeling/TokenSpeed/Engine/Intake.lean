import TokenSpeed.Engine.Ingress
import TokenSpeed.Scheduler.Events

/-!
# From the frontend to the scheduler

How the event loop (`ts-control/src/event_loop.rs`: `admit`, `register`, `route`, `submit`,
`apply_pause_transitions`, `drain_grammar_queue`, `drain_staged`) takes a request from the ingress to
`SubmitRequests`: at once, or after a wait for its grammar, its images' embeddings or the end of a pause.
What the loop reads elsewhere (a grammar, a receive, a pause, whether a request ended) is given with each step.
-/

namespace TokenSpeed.Engine

structure Submission where
  rid : Nat
  spec : RequestSpec
  bootstrap : Option BootstrapInfo
  embeddings : List EmbeddingItem

/-- `EngineRequest`; what a control operation does is given by the gates of the steps after it. -/
inductive EngineRequest where
  | abort (rids : List Nat)
  | add (request : TokenizedGenerateReqInput)
  | control

/-- What `route` asks the controls and the configuration. -/
structure Gates where
  /-- a disaggregated engine that releases its memory, or has released it -/
  refusing : Bool := false
  admitBlocked : Bool := false
  epdPrefill : Bool := false

inductive GrammarOutcome where
  | waits
  | starts
  /-- ready right at the deadline of its compilation -/
  | startsLate
  | fails
  deriving DecidableEq, Repr

inductive ReceiveOutcome where
  | pending
  | landed
  | failed
  deriving DecidableEq, Repr

structure Surroundings where
  gates : Gates := {}
  grammars : Nat → GrammarOutcome := fun _ => .waits

def picked {α : Type} (l : List α) (names : Nat → Bool) : List α := (l.zipIdx.filter fun x => names x.2).map (·.1)

def Admission.submission (a : Admission) : Submission := ⟨a.rid, a.spec, a.bootstrap, a.embeddings⟩

structure Intake where
  limits : IngressLimits
  grammarQueue : List (Submission × GrammarKey) := []
  staged : List Submission := []
  withheld : List Submission := []

/-- The batches handed to `SubmitRequests`, and the requests left waiting. -/
abbrev Handed := List (List RequestSpec) × Intake

namespace Intake

variable (h : Intake)

variable (gates : Gates) (admitBlocked : Bool) (submissions : List Submission)

/-- `submit`: one call of `SubmitRequests`, none for nothing. -/
def submit : Handed :=
  if submissions.isEmpty then ([], h) else ([submissions.map (·.spec)], h)

def submitOrWithhold : Handed :=
  if admitBlocked then ([], { h with withheld := h.withheld ++ submissions }) else h.submit submissions

def route : Handed :=
  let submissions := if gates.refusing then [] else submissions
  let isStaged (s : Submission) : Bool := gates.epdPrefill && !s.embeddings.isEmpty
  { h with staged := h.staged ++ submissions.filter isStaged }.submitOrWithhold gates.admitBlocked
    (submissions.filter (!isStaged ·))

def sorted : List (Admission × GrammarOutcome) → List (Submission × GrammarKey) × List Submission
  | [] => ([], [])
  | (a, outcome) :: rest =>
    let (queued, submissions) := sorted rest
    match a.grammar with
    | none => (queued, a.submission :: submissions)
    | some key =>
      match outcome with
      | .waits => ((a.submission, key) :: queued, submissions)
      | .starts | .startsLate => (queued, a.submission :: submissions)
      | .fails => (queued, submissions)

def register (around : Surroundings) (admissions : List Admission) : Handed :=
  let (queued, submissions) := sorted (admissions.zipIdx.map fun (a, i) => (a, around.grammars i))
  { h with grammarQueue := h.grammarQueue ++ queued }.route around.gates submissions

/-- `admit`: what is admitted registers before a control operation runs, and at the end. -/
def admitMessages (last : Surroundings) : List Admission → Intake → List (EngineRequest × Surroundings) → Handed
  | admissions, h, [] => h.register last admissions
  | admissions, h, (.abort _, _) :: rest => admitMessages last admissions h rest
  | admissions, h, (.add request, _) :: rest =>
    match request.admitRequest h.limits with
    | some (.run admission) => admitMessages last (admissions ++ [admission]) h rest
    | _ => admitMessages last admissions h rest
  | admissions, h, (.control, around) :: rest =>
    let (batches, h) := h.register around admissions
    let (more, h) := admitMessages last [] h rest
    (batches ++ more, h)

/-- `apply_pause_transitions`; `runs` says, by position, whether a withheld request is still to run. -/
def applyPauseTransitions (runs : Nat → Bool) : Handed :=
  if admitBlocked then ([], h)
  else { h with withheld := [] }.submit (picked h.withheld runs)

/-- `drain_grammar_queue`; the outcomes are by position. -/
def drainGrammarQueue (outcomes : Nat → GrammarOutcome) : Handed :=
  let queuedWith (outcome : GrammarOutcome) : List (Submission × GrammarKey) :=
    picked h.grammarQueue fun i => decide (outcomes i = outcome)
  let started := queuedWith .starts ++ queuedWith .startsLate
  { h with grammarQueue := queuedWith .waits }.route gates (started.map Prod.fst)

/-- `drain_staged`; the outcomes are by position, and `runs` says whether a landed request is still to run. -/
def drainStaged (outcomes : Nat → ReceiveOutcome) (runs : Nat → Bool) : Handed :=
  let left := picked h.staged fun i => decide (outcomes i = ReceiveOutcome.pending)
  let admitted := picked h.staged fun i => decide (outcomes i = ReceiveOutcome.landed) && runs i
  { h with staged := left }.submitOrWithhold admitBlocked admitted

/-! ## Runs -/

inductive Event where
  | admitMessages (messages : List (EngineRequest × Surroundings)) (last : Surroundings)
  | pause (admitBlocked : Bool) (runs : Nat → Bool)
  | grammars (gates : Gates) (outcomes : Nat → GrammarOutcome)
  | staged (admitBlocked : Bool) (outcomes : Nat → ReceiveOutcome) (runs : Nat → Bool)

def step : Event → Handed
  | .admitMessages messages last => admitMessages last [] h messages
  | .pause admitBlocked runs => h.applyPauseTransitions admitBlocked runs
  | .grammars gates outcomes => h.drainGrammarQueue gates outcomes
  | .staged admitBlocked outcomes runs => h.drainStaged admitBlocked outcomes runs

/-- The specs of the requests that wait. -/
def waiting : List RequestSpec :=
  h.grammarQueue.map (·.1.spec) ++ h.staged.map (·.spec) ++ h.withheld.map (·.spec)

end Intake

/-- The limits keep to what the scheduler's cache holds for one request with its first decode window. -/
structure IngressLimits.Within (limits : IngressLimits) (s : Scheduler) : Prop where
  modelLen : limits.maxModelLen ≤ s.maxSingleRequestTokens
  inputLen : limits.maxReqInputLen ≤ s.maxSingleRequestTokens
  decodeWindow : limits.maxReqInputLen + s.config.decodeInputTokens ≤ s.maxSingleRequestTokens
  int32 : s.maxSingleRequestTokens ≤ int32Max

/-! ## With the scheduler -/

/-- The intake and the scheduler it submits to. -/
structure IntakeRun where
  intake : Intake
  scheduler : Scheduler

inductive IntakeEvent where
  | intake (event : Intake.Event)
  /-- any other call the loop makes of the scheduler -/
  | call (call : Scheduler.Call)

/-- The requests the messages of one receive send. -/
def requestsSent (messages : List (EngineRequest × Surroundings)) : List TokenizedGenerateReqInput :=
  messages.filterMap fun
    | (.add request, _) => some request
    | _ => none

namespace IntakeRun

variable (h : IntakeRun)

/-- An error is a throw of the scheduler. -/
def step : IntakeEvent → Result IntakeRun
  | .intake event => do
    let (batches, intake) := h.intake.step event
    let scheduler ← batches.foldlM (fun s specs => s.submitRequests specs) h.scheduler
    pure { intake, scheduler }
  | .call call => do
    let (_, scheduler) ← h.scheduler.call call
    pure { h with scheduler }

/-- A prompt is not empty, and a request id is sent only while nobody in the engine has it: no request sent with
it, none that waits, and none the scheduler still knows. -/
def Orderly : IntakeEvent → Prop
  | .intake (.admitMessages messages _) =>
    (∀ request ∈ requestsSent messages, request.inputIds ≠ some []) ∧
    ((requestsSent messages).filterMap (·.rid)).Nodup ∧
    ∀ rid ∈ (requestsSent messages).filterMap (·.rid),
      rid ∉ h.intake.waiting.map (·.requestId) ∧ h.scheduler.findRequest rid = none
  | .intake _ => True
  | .call (.submit _) => False
  | .call _ => True

def Step (h h' : IntakeRun) : Prop := ∃ event, h.Orderly event ∧ h.step event = .ok h'

end IntakeRun

end TokenSpeed.Engine

import TokenSpeed.Engine.Intake
import TokenSpeed.Engine.Output
import TokenSpeed.Engine.StorageAgreement
import TokenSpeed.Transfer.Status

/-!
# The members of a replica

The rounds of `ts-control/src/event_loop.rs` on a replica of two or more members, cut into the parts between
two agreements. Every member runs each part on its own state; what only it sees (its clock, grammars,
receives, transfers, storage and cache operations) is given for each member apart. Messages, plans, the results
of forwards and what the scheduler answers are the same for all. Streamed outputs and what goes to the data
plane are left out.
-/

namespace TokenSpeed.Engine

open Transfer (TransferPoll)

/-! ## Agreements -/

abbrev Members (n : Nat) (α : Type) := Fin (n + 2) → α

/-- `replica_min`: the smallest value at each position. -/
def replicaMin {n : Nat} {α : Type} [Min α] (values : Members n (List α)) : List α :=
  (List.ofFn values).tail.foldl (List.zipWith min) (values 0)

def firstOf {n : Nat} {α : Type} (values : Members n (Option α)) : Option α := (List.ofFn values).findSome? id

inductive CacheEventKind where
  | writeBackDone
  | loadBackDone
  | snapshotDone
  | restoreDone
  deriving DecidableEq, Repr

def CacheEventKind.name : CacheEventKind → String
  | writeBackDone => "WriteBackDoneEvent"
  | loadBackDone => "LoadBackDoneEvent"
  | snapshotDone => "SnapshotDoneEvent"
  | restoreDone => "RestoreDoneEvent"

structure CacheEvent where
  opId : Nat
  kind : CacheEventKind
  deriving DecidableEq, Repr

structure CacheOps where
  opened : Nat := 0
  inFlight : Nat := 0
  pending : List CacheEvent := []
  deriving DecidableEq, Repr

namespace CacheOps

variable (ops : CacheOps)

def dispatched (count : Nat) : CacheOps := { ops with opened := ops.opened + count, inFlight := ops.inFlight + count }

def hold (polled : List CacheEvent) : Option CacheOps :=
  if ops.inFlight < polled.length then none
  else some { ops with
    inFlight := ops.inFlight - polled.length
    pending := polled.foldl (fun pending event => if event ∈ pending then pending else pending ++ [event]) ops.pending }

def before (a b : CacheEvent) : Bool :=
  decide (a.opId < b.opId) || (decide (a.opId = b.opId) && decide (a.kind.name ≤ b.kind.name))

/-- What every member holds, in the order of the keys. -/
def common {n : Nat} (gathered : Members n (List CacheEvent)) : List CacheEvent :=
  ((gathered 0).filter fun event => decide (∀ i, event ∈ gathered i)).mergeSort before

def acknowledge (ready : List CacheEvent) : CacheOps :=
  { ops with opened := ops.opened - ready.length, pending := ops.pending.filter (· ∉ ready) }

def hasWork : Bool := decide (ops.inFlight ≠ 0) || !ops.pending.isEmpty

/-- `acknowledged` of one of several members, once it holds its poll: what it returns and keeps after the
collectives told it whether any member has work, and what all of them hold. -/
def settle {n : Nat} (working : Bool) (gathered : Members n (List CacheEvent)) : List CacheEvent × CacheOps :=
  if working then (common gathered, ops.acknowledge (common gathered)) else ([], ops)

def settleAll {n : Nat} (members : Members n CacheOps) : Members n (List CacheEvent × CacheOps) := fun i =>
  (members i).settle (decide (∃ j, (members j).hasWork = true)) fun j => (members j).pending

/-- Every member settles the same acknowledgments. -/
theorem settleAll_eq {n : Nat} {members : Members n CacheOps} (i) :
    settleAll members i = ((settleAll members 0).1, (members i).acknowledge (settleAll members 0).1) := by
  unfold settleAll settle
  split
  · rfl
  · simp [acknowledge]

end CacheOps

/-! ## One member -/

/-- The events the loop hands to `advance`. -/
inductive SchedulerEvent where
  | forward (event : ForwardEvent)
  | pdBootstrapped (rid : Nat)
  | pdSucceeded (rid : Nat)
  | pdFailed (rid : Nat)
  | pdRemotePrefillDone (rid : Nat) (bootstrapToken : Token)
  deriving DecidableEq, Repr

/-- A call of the member's scheduler. -/
inductive SchedulerCall where
  | submitRequests (specs : List RequestSpec)
  | advanceHead (storage : Option StorageRound) (ready : List CacheEvent)
  | advance (events : List SchedulerEvent)
  deriving DecidableEq

structure Member where
  outputs : OutputProcessor
  intake : Intake
  transfers : List (Nat × TransferPoll) := []
  cacheOps : CacheOps := {}
  /-- the storage tier, if there is one -/
  tier : Option L3 := none
  forwardAllowed : Bool := true
  /-- the events of the round so far -/
  events : List SchedulerEvent := []
  calls : List SchedulerCall := []

structure InvalidGrammar where
  message : String
  permanent : Bool
  deriving DecidableEq, Repr

inductive Lookup where
  | compiling
  | ready
  | invalid (reason : InvalidGrammar)
  deriving DecidableEq, Repr

structure GrammarLook where
  status : Lookup
  timedOut : Bool

def pendingAbortTtl : Nat := 300

namespace OutputProcessor

variable (p : OutputProcessor)

def hasEnded (rid : Nat) : Bool := (p.states rid).all RequestState.finished

def attachGrammar (rid : Nat) (grammar : RequestGrammar) : OutputProcessor :=
  { p with states := Function.update p.states rid ((p.states rid).map fun state =>
    { state with grammar := some grammar }) }

/-- `publish_finished_at_admission`, apart from its output. -/
def refuse (rid : Nat) : OutputProcessor := { p with pendingAborts := p.pendingAborts.eraseP (·.1 = rid) }

/-- One promoted request of the grammar queue: reaped if it ended meanwhile, failed if its grammar is
unusable on some member, started otherwise. -/
def startGrammar (matchers : GrammarKey → RequestGrammar) (entry : Submission × GrammarKey)
    (invalid : Option InvalidGrammar) : Bool × OutputProcessor :=
  let rid := entry.1.rid
  if p.hasEnded rid then (false, (p.reapUnscheduled rid).2)
  else
    match invalid with
    | some reason =>
      (false, (p.failUnscheduled rid ("Failed to compile " ++ entry.2.kind ++ " grammar: " ++ reason.message)
        (if reason.permanent then some 400 else none)).2)
    | none => (true, p.attachGrammar rid (matchers entry.2))

def startGrammars (matchers : GrammarKey → RequestGrammar) :
    OutputProcessor → List ((Submission × GrammarKey) × Option InvalidGrammar) → List Submission × OutputProcessor
  | p, [] => ([], p)
  | p, (entry, invalid) :: rest =>
    let (started, p) := p.startGrammar matchers entry invalid
    let (submissions, p) := startGrammars matchers p rest
    ((if started then [entry.1] else []) ++ submissions, p)

def failAll (reason : String) (rids : List Nat) : OutputProcessor :=
  rids.foldl (fun p rid => (p.failUnscheduled rid reason none).2) p

def reapAll (rids : List Nat) : OutputProcessor := rids.foldl (fun p rid => (p.reapUnscheduled rid).2) p

def concludeTransfer (landed : Nat → Token × Int) (rid : Nat) (here : TransferPoll) (code : Nat) :
    List SchedulerEvent × List (Nat × TransferPoll) × OutputProcessor :=
  let poll := (TransferPoll.fromWire code).getD .failed
  if here = .bootstrapping ∧ poll = .bootstrapped then ([.pdBootstrapped rid], [(rid, .bootstrapped)], p)
  else if poll = .failed then
    let (committed, p) := p.failTransfer rid
    (.pdFailed rid :: committed.events.map .forward, [], p)
  else if here = .bootstrapped ∧ poll = .success then
    if p.role = .prefill then
      let (committed, p) := p.finishPrefill rid
      (.pdSucceeded rid :: committed.events.map .forward, [], p)
    else
      let (token, cachedTokens) := landed rid
      let p := if (p.states rid).any (!·.toAbort) then p.remotePrefillDone rid token cachedTokens else p
      let (committed, p) := p.finishRemotePrefillOnly rid
      (.pdRemotePrefillDone rid token :: committed.events.map .forward, [], p)
  else ([], [(rid, here)], p)

/-- `poll_transfers` over the tracked requests. -/
def concludeTransfers (landed : Nat → Token × Int) :
    OutputProcessor → List ((Nat × TransferPoll) × Nat) →
      List SchedulerEvent × List (Nat × TransferPoll) × OutputProcessor
  | p, [] => ([], [], p)
  | p, ((rid, here), code) :: rest =>
    let (events, left, p) := p.concludeTransfer landed rid here code
    let (more, others, p) := concludeTransfers landed p rest
    (events ++ more, left ++ others, p)

end OutputProcessor

namespace Member

variable (m : Member)

/-- `submit`'s calls, and the transfers it starts. -/
def hand (submissions : List Submission) (handed : Handed) : Member :=
  let starts (spec : RequestSpec) : Bool :=
    m.outputs.role ≠ .plain && submissions.any fun s => s.rid = spec.requestId && s.bootstrap.isSome
  { m with
    intake := handed.2
    calls := m.calls ++ handed.1.map .submitRequests
    transfers := m.transfers ++ (handed.1.flatten.filter starts).map fun spec => (spec.requestId, .bootstrapping) }

def route (gates : Gates) (submissions : List Submission) : Member :=
  let outputs :=
    if gates.refusing then
      m.outputs.failAll
        "PD engine is releasing or has released its GPU memory; retry after resume_memory_occupation"
        (submissions.map (·.rid))
    else m.outputs
  { m with outputs := outputs }.hand submissions (m.intake.route gates submissions)

/-- `mark_abort`; a client's abort goes on to the storage tier, where the request may be reaped at once. The
scheduler says how many tokens the request has and whether it can still abort. -/
def abort (rid : Nat) (notifyClient : Bool) (tokenSize : Int) (canAbort : Bool) (now : Nat) : Member :=
  let outputs := m.outputs.markAbort rid notifyClient now pendingAbortTtl
  match if notifyClient then none else m.tier with
  | none => { m with outputs := outputs }
  | some l3 =>
    let (l3, reaped) := l3.cancel rid tokenSize canAbort
    { m with outputs := if reaped then (outputs.reapUnscheduled rid).2 else outputs, tier := some l3 }

/-- `register`: on more than one member every grammar waits in the queue. -/
def register (gates : Gates) (admissions : List Admission) : Member :=
  let outputs := admissions.foldl (fun p a => p.register a.rid a.state) m.outputs
  let (queued, submissions) := Intake.sorted (admissions.map fun a => (a, .waits))
  let intake := { m.intake with grammarQueue := m.intake.grammarQueue ++ queued }
  { m with outputs := outputs, intake := intake }.route gates submissions

/-- `apply_pause_transitions` once no admission is blocked. -/
def resume : Member :=
  let withheld := m.intake.withheld
  let ended (s : Submission) : Bool := (m.outputs.states s.rid).any RequestState.finished
  let runs (i : Nat) : Bool := (withheld[i]?).any fun s => (m.outputs.states s.rid).any (!·.finished)
  { m with outputs := m.outputs.reapAll ((withheld.filter ended).map Submission.rid) }.hand withheld
    (m.intake.applyPauseTransitions false runs)

def grammarVotes (looks : Nat → GrammarLook) : List (Int × Int × Int) :=
  m.intake.grammarQueue.zipIdx.map fun (entry, i) =>
    let ready := m.outputs.hasEnded entry.1.rid || decide ((looks i).status ≠ .compiling)
    let invalid := match (looks i).status with | .invalid _ => true | _ => false
    (if ready then 1 else 0, if !ready && (looks i).timedOut then -1 else 0, if invalid then -1 else 0)

/-- `drain_grammar_queue` on the agreed votes. -/
def drainGrammarQueue (gates : Gates) (matchers : GrammarKey → RequestGrammar) (timeoutMessage : GrammarKey → String)
    (ready failed : List Int) (invalid : Nat → Option InvalidGrammar) : Member :=
  if ready.all (· = 0) && failed.all (· = 0) then m
  else
    let entries := m.intake.grammarQueue.zipIdx
    let isReady (i : Nat) : Bool := ready[i]? = some 1
    let isFailed (i : Nat) : Bool := !isReady i && decide (failed[i]? = some (-1))
    let promoted := (entries.filter fun x => isReady x.2).map fun x => (x.1, invalid x.2)
    let timedOut := (entries.filter fun x => isFailed x.2).map (·.1)
    let waiting := (entries.filter fun x => !isReady x.2 && !isFailed x.2).map (·.1)
    let (submissions, outputs) := m.outputs.startGrammars matchers promoted
    let outputs := timedOut.foldl
      (fun p entry => (p.failUnscheduled entry.1.rid (timeoutMessage entry.2) none).2) outputs
    { m with outputs := outputs, intake := { m.intake with grammarQueue := waiting } }.route gates submissions

/-- `drain_staged` on the agreed codes. -/
def drainStaged (admitBlocked : Bool) (codes : List Nat) : Member :=
  let staged := m.intake.staged
  let outcome (i : Nat) : ReceiveOutcome :=
    if codes[i]? = some 2 then .landed else if codes[i]? = some 0 then .failed else .pending
  let ended (s : Submission) : Bool := (m.outputs.states s.rid).any RequestState.finished
  let reaped := (picked staged fun i => decide (outcome i = .landed)).filter ended
  let failed := picked staged fun i => decide (outcome i = .failed)
  let outputs := (m.outputs.reapAll (reaped.map Submission.rid)).failAll "EPD embedding receive failed or timed out"
    (failed.map Submission.rid)
  { m with outputs := outputs }.hand staged
    (m.intake.drainStaged admitBlocked outcome fun i => (staged[i]?).any (!ended ·))

/-- `storage_round` on the gathered reports; without a tier it passes on a change of the permission. -/
def storageRound (reports : List StorageReport) (allowed : Bool) : Option (Option StorageRound × Member) :=
  match m.tier with
  | some l3 =>
    match l3.agree reports allowed allowed with
    | .ok (round, l3) => some (some round, { m with tier := some l3 })
    | .error _ => none
  | none =>
    if allowed = m.forwardAllowed then some (none, m)
    else some (some ⟨⟨0, allowed, allowed, 0, 0, 0⟩, [], []⟩, { m with forwardAllowed := allowed })

def head (storage : Option StorageRound) (ready : List CacheEvent) (left : CacheOps) : Member :=
  { m with
    cacheOps := left
    calls := m.calls ++ if storage.isSome || !ready.isEmpty then [.advanceHead storage ready] else [] }

def commit (rows : List BatchRow) (result : ForwardResult) : Option (Member) :=
  match m.outputs.commit rows result with
  | .error _ => none
  | .ok (committed, _, outputs) =>
    some { m with outputs := outputs, events := m.events ++ committed.events.map .forward }

/-- `poll_transfers` on the agreed codes. -/
def pollTransfers (landed : Nat → Token × Int) (codes : List Nat) : Member :=
  let (events, left, outputs) := m.outputs.concludeTransfers landed (m.transfers.zip codes)
  { m with outputs := outputs, transfers := left, events := m.events ++ events }

def advance : Member :=
  { m with events := [], calls := m.calls ++ if m.events.isEmpty then [] else [.advance m.events] }

end Member

/-! ## The replica -/

inductive Phase (n : Nat) where
  /-- an abort of a client or of a pause, at each member's time -/
  | abort (rid : Nat) (notifyClient : Bool) (tokenSize : Int) (canAbort : Bool) (now : Members n Nat)
  | sweep (now : Members n Nat)
  | register (gates : Gates) (admissions : List Admission)
  | refuse (rid : Nat)
  | resume
  | grammars (gates : Gates) (matchers : GrammarKey → RequestGrammar) (timeoutMessage : GrammarKey → String)
      (looks : Members n (Nat → GrammarLook))
  | staged (admitBlocked : Bool) (codes : Members n (List Nat))
  /-- what each member's storage executor and its data plane report -/
  | head (storage : Members n StoragePoll) (allowed : Bool) (polled : Members n (List CacheEvent))
  | dispatched (cacheOps : Nat)
  | schedulerAbort (rid : Nat) (detail : String)
  | commit (rows : List BatchRow) (result : ForwardResult)
  /-- the polls of each member, and the first token and cached length it has of a landed room -/
  | transfers (landed : Members n (Nat → Token × Int)) (codes : Members n (List Nat))
  | advance

abbrev Replica (n : Nat) := Members n Member

namespace Replica

variable {n : Nat} (r : Replica n)

def each (f : Fin (n + 2) → Member → Member) : Option (Replica n) := some fun i => f i (r i)

def all {α : Type} (values : Members n (Option α)) : Option (Members n α) :=
  if h : ∀ i, (values i).isSome then some fun i => (values i).get (h i) else none

def drainGrammars (gates : Gates) (matchers : GrammarKey → RequestGrammar) (timeoutMessage : GrammarKey → String)
    (looks : Members n (Nat → GrammarLook)) : Option (Replica n) :=
  let votes := fun i => (r i).grammarVotes (looks i)
  let ready := replicaMin fun i => (votes i).map (·.1)
  let failed := replicaMin fun i => (votes i).map (·.2.1)
  let invalid := replicaMin fun i => (votes i).map (·.2.2)
  -- the reasons are gathered only when some member found a grammar unusable
  let reason (k : Nat) : Option InvalidGrammar :=
    if (-1) ∈ invalid then
      firstOf fun i => match (looks i k).status with | .invalid reason => some reason | _ => none
    else none
  r.each fun _ m => m.drainGrammarQueue gates matchers timeoutMessage ready failed reason

def step : Phase n → Option (Replica n)
  | .abort rid notifyClient tokenSize canAbort now =>
    r.each fun i m => m.abort rid notifyClient tokenSize canAbort (now i)
  | .sweep now => r.each fun i m => { m with outputs := m.outputs.sweepPendingAborts (now i) pendingAbortTtl }
  | .register gates admissions => r.each fun _ m => m.register gates admissions
  | .refuse rid => r.each fun _ m => { m with outputs := m.outputs.refuse rid }
  | .resume => r.each fun _ m => m.resume
  | .grammars gates matchers timeoutMessage looks => r.drainGrammars gates matchers timeoutMessage looks
  | .staged admitBlocked codes =>
    if ∀ i, (codes i).length = (r i).intake.staged.length then
      r.each fun _ m => m.drainStaged admitBlocked (replicaMin codes)
    else none
  | .head storage allowed polled =>
    let reports := (List.ofFn fun i => (r i).tier.map (·.validated (storage i))).reduceOption
    (all fun i => (r i).storageRound reports allowed).bind fun rounds =>
      (all fun i => (r i).cacheOps.hold (polled i)).bind fun held =>
        some fun i => (rounds i).2.head (rounds i).1 (CacheOps.settleAll held i).1 (CacheOps.settleAll held i).2
  | .dispatched count => r.each fun _ m => { m with cacheOps := m.cacheOps.dispatched count }
  | .schedulerAbort rid detail => r.each fun _ m => { m with outputs := (m.outputs.finishSchedulerAbort rid detail).2 }
  | .commit rows result => all fun i => (r i).commit rows result
  | .transfers landed codes => r.each fun i m => m.pollTransfers (landed i) (replicaMin codes)
  | .advance => r.each fun _ m => m.advance

/-- For each pending abort of a member, whether its time is over. -/
def expired (now : Members n Nat) (i : Fin (n + 2)) : List Bool :=
  (r i).outputs.pendingAborts.map fun pending => decide (pendingAbortTtl ≤ now i - pending.2)

/-- Where pending aborts are swept, each is over on all members or on none; and the Prefill ranks told every
member the same of a room that landed. -/
def Timely : Phase n → Prop
  | .abort rid _ _ _ now => (∃ i, (r i).outputs.states rid = none) → ∀ i j, r.expired now i = r.expired now j
  | .sweep now => ∀ i j, r.expired now i = r.expired now j
  | .transfers landed _ => ∀ i j, ∀ x ∈ (r i).transfers, landed i x.1 = landed j x.1
  | _ => True

def Step (r r' : Replica n) : Prop := ∃ phase, r.Timely phase ∧ r.step phase = some r'

instance (phase : Phase n) : Decidable (r.Timely phase) :=
  match phase with
  | .abort rid _ _ _ now => decidable_of_iff
      ((∃ i, (r i).outputs.states rid |>.isNone) → ∀ i j, r.expired now i = r.expired now j) (by simp [Timely])
  | .sweep now => inferInstanceAs (Decidable (∀ i j, r.expired now i = r.expired now j))
  | .transfers _ _ => inferInstanceAs (Decidable (∀ i j, ∀ x ∈ _, _ = _))
  | .register .. | .refuse _ | .resume | .grammars .. | .staged .. | .head .. | .dispatched _ | .schedulerAbort ..
  | .commit .. | .advance => .isTrue trivial

def steps : Replica n → List (Phase n) → Option (Replica n)
  | r, [] => some r
  | r, phase :: phases => (r.step phase).bind fun r' => steps r' phases

def run : Replica n → List (Phase n) → Option (Replica n)
  | r, [] => some r
  | r, phase :: phases => if r.Timely phase then (r.step phase).bind fun r' => run r' phases else none

end Replica

end TokenSpeed.Engine

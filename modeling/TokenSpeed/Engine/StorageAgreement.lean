import TokenSpeed.Logic.OrderedMap
import Mathlib.Data.List.OfFn

/-!
# The replica's agreement on storage

`L3` of `ts-control/src/l3.rs`: each round every member shares what its storage executor polled, and all of
them agree on the operations every owner has completed. A report stands for its bytes; their layout is apart.
-/

namespace TokenSpeed.Engine

open Logic (OrderedMap)

structure StorageLimits where
  maxOperations : Nat
  maxKeysPerOperation : Nat
  deriving DecidableEq, Repr

structure StoragePressure where
  queuedOperations : Int := 0
  queuedBytes : Int := 0
  oldestOperationUs : Int := 0
  deriving DecidableEq, Repr

structure StorageCompletion where
  opId : Nat
  success : List Bool
  retired : Bool
  objectFailures : List Bool
  deriving DecidableEq, Repr

structure StoragePoll where
  nowUs : Int := 0
  completions : List StorageCompletion := []
  pressure : StoragePressure := {}
  deriving DecidableEq, Repr

structure StorageReport where
  nowUs : Int
  pressure : StoragePressure
  error : Option String
  completions : List StorageCompletion
  deriving DecidableEq, Repr

structure OwnerReport where
  success : List Bool
  retired : Bool
  objectFailures : List Bool
  deriving DecidableEq, Repr

/-- `L3Error`, and the panic of an index with no value. -/
inductive L3Error where
  | polling (errors : List String)
  | protocol (reason : String)
  | absent
  deriving DecidableEq, Repr

structure StorageCancellation where
  requestId : Nat
  abort : Bool
  deriving DecidableEq, Repr

structure StorageTick where
  nowUs : Int
  allowForward : Bool
  allowStorage : Bool
  queuedOperations : Int
  queuedBytes : Int
  oldestOperationUs : Int
  deriving DecidableEq, Repr

structure StorageDone where
  opId : Nat
  success : List Bool
  retired : Bool
  objectFailures : List Bool
  deriving DecidableEq, Repr

structure StorageRound where
  tick : StorageTick
  cancellations : List StorageCancellation
  done : List StorageDone
  deriving DecidableEq, Repr

abbrev OwnerReports := OrderedMap Nat (OrderedMap Nat OwnerReport)

structure L3 where
  limits : StorageLimits
  reports : OwnerReports := ∅
  cancellations : List StorageCancellation := []

/-! ## A member's report -/

def StorageCompletion.malformed (limits : StorageLimits) (completion : StorageCompletion) : Bool :=
  completion.opId == 0 || decide (limits.maxKeysPerOperation < completion.success.length) ||
    completion.objectFailures.length != completion.success.length ||
    (completion.success.zip completion.objectFailures).any fun (ok, failed) => ok && failed

def StoragePoll.invalid (limits : StorageLimits) (poll : StoragePoll) : Option String :=
  if [poll.pressure.queuedOperations, poll.pressure.queuedBytes, poll.pressure.oldestOperationUs].any (· < 0) then
    some "Invalid L3 pressure observation"
  else if limits.maxOperations < poll.completions.length then
    some "L3 completion window exceeded operation credits"
  else if poll.completions.any (·.malformed limits) then some "Malformed L3 completion"
  else none

namespace L3

variable (l3 : L3)

def validated (poll : StoragePoll) : StorageReport :=
  match poll.invalid l3.limits with
  | some error => ⟨poll.nowUs, {}, some (String.ofList (error.toList.take 512)), []⟩
  | none => ⟨poll.nowUs, poll.pressure, none, poll.completions⟩

/-- `cancel`, with what the scheduler says of the request: its tokens, negative if it holds none of the name, and
whether it can abort before admission. -/
def cancel (requestId : Nat) (tokenSize : Int) (canAbort : Bool) : L3 × Bool :=
  if tokenSize < 0 then (l3, false)
  else
    let cancellation : StorageCancellation := ⟨requestId, canAbort⟩
    let cancellations :=
      if l3.cancellations.any (·.requestId = requestId) then
        l3.cancellations.map fun queued => if queued.requestId = requestId then cancellation else queued
      else l3.cancellations ++ [cancellation]
    ({ l3 with cancellations := cancellations }, canAbort)

/-! ## The agreement -/

def record (rank : Nat) (reports : OwnerReports) (completion : StorageCompletion) : Except L3Error OwnerReports :=
  if l3.limits.maxKeysPerOperation < completion.success.length then .error (.protocol "a peer exceeded its key credits")
  else
    let value : OwnerReport := ⟨completion.success, completion.retired, completion.objectFailures⟩
    let row := (reports.find? completion.opId).getD ∅
    if (row.find? rank).any (· ≠ value) then .error (.protocol "conflicting owner reports")
    else .ok (reports.set completion.opId (row.set rank value))

def recordReport (rank : Nat) (reports : OwnerReports) (report : StorageReport) : Except L3Error OwnerReports :=
  if l3.limits.maxOperations < report.completions.length then .error (.protocol "a peer exceeded its report credits")
  else report.completions.foldlM (l3.record rank) reports

def recordAll : Nat → List StorageReport → OwnerReports → Except L3Error OwnerReports
  | _, [], reports => .ok reports
  | rank, report :: rest, reports => (l3.recordReport rank reports report).bind (recordAll (rank + 1) rest)

/-- The outcome of an operation every owner reported. The lists of a report are equally long, so no bit is
missing. -/
def outcome (opId : Nat) (row : OrderedMap Nat OwnerReport) : Except L3Error StorageDone :=
  match row.find? 0 with
  | none => .error .absent
  | some first =>
    let count := first.success.length
    let values := row.entries.map Prod.snd
    if values.any (·.success.length ≠ count) then .error (.protocol "mirrored operation shapes differ")
    else .ok {
      opId := opId
      success := (List.range count).map fun key => values.all fun value => value.success.getD key false
      retired := values.all (·.retired)
      objectFailures := (List.range count).map fun key => values.any fun value => value.objectFailures.getD key false }

def completed (owners : Nat) (reports : OwnerReports) : Except L3Error (List StorageDone) :=
  (reports.entries.filter fun entry => entry.2.entries.length = owners).mapM fun entry => outcome entry.1 entry.2

def worst (reports : List StorageReport) (field : StoragePressure → Int) : Int :=
  (reports.map fun report => field report.pressure).max?.getD 0

/-- `agree`: the round, and the member after it. -/
def agree (reports : List StorageReport) (allowForward allowStorage : Bool) : Except L3Error (StorageRound × L3) :=
  match reports with
  | [] => .error (.protocol "a round without reports")
  | first :: _ =>
    let errors := reports.filterMap (·.error)
    if errors ≠ [] then .error (.polling errors)
    else
      (l3.recordAll 0 reports l3.reports).bind fun held =>
        if l3.limits.maxOperations < held.entries.length then
          .error (.protocol "the aggregation exceeded its operation credits")
        else
          (completed reports.length held).map fun done =>
            (⟨⟨first.nowUs, allowForward, allowStorage, worst reports (·.queuedOperations),
              worst reports (·.queuedBytes), worst reports (·.oldestOperationUs)⟩, l3.cancellations, done⟩,
             { l3 with
               reports := done.foldl (fun held completion => held.erase completion.opId) held
               cancellations := [] })

end L3

/-! ## The replica -/

/-- What a round brings: each member's poll and, alike on all members, the cancellations since the last round and
the permissions. -/
structure StorageInput (n : Nat) where
  polls : Fin (n + 1) → StoragePoll
  cancels : List (Nat × Int × Bool) := []
  allowForward : Bool := true
  allowStorage : Bool := true

namespace StorageReplica

variable {n : Nat}

def ready (l3 : L3) (input : StorageInput n) : L3 :=
  input.cancels.foldl (fun l3 call => (l3.cancel call.1 call.2.1 call.2.2).1) l3

variable (members : Fin (n + 1) → L3) (input : StorageInput n) (limits : StorageLimits) (rounds : List (StorageInput n))
  (i : Fin (n + 1))

def shared : List StorageReport :=
  List.ofFn fun i => (ready (members i) input).validated (input.polls i)

def agreed : Except L3Error (StorageRound × L3) :=
  (ready (members i) input).agree (shared members input) input.allowForward input.allowStorage

def advance : Option (Fin (n + 1) → L3) :=
  if ∀ i, (agreed members input i).toOption.isSome then
    some fun i => (agreed members input i).toOption.elim (members i) Prod.snd
  else none

def after : Option (Fin (n + 1) → L3) :=
  rounds.foldlM advance fun _ => { limits := limits }

/-- What round `k` gives member `i`, if the replica comes to it. -/
def roundOf (k : Nat) (i : Fin (n + 1)) : Option (Except L3Error StorageRound) :=
  (after limits (rounds.take k)).bind fun members => (rounds[k]?).map fun input => (agreed members input i).map Prod.fst

/-! ## What the reports amount to -/

def completionsOf : List StorageCompletion :=
  rounds.flatMap fun input => (input.polls i).completions

def reportOf (opId : Nat) : Option StorageCompletion :=
  (completionsOf rounds i).find? (·.opId = opId)

def Complete (opId : Nat) : Prop := ∀ i, (reportOf rounds i opId).isSome

instance (rounds : List (StorageInput n)) (opId : Nat) : Decidable (Complete rounds opId) :=
  inferInstanceAs (Decidable (∀ i, (reportOf rounds i opId).isSome = true))

def pending (past : List (StorageInput n)) (input : StorageInput n) : List Nat :=
  ((List.ofFn fun i => (completionsOf (past ++ [input]) i).map (·.opId)).flatten.dedup).filter fun opId =>
  ¬Complete past opId

/-- Owners report each operation once, with its number of keys, in valid polls, and within the credits. -/
structure Regular (limits : StorageLimits) (keys : Nat → Nat) (rounds : List (StorageInput n)) : Prop where
  valid : ∀ input ∈ rounds, ∀ i, (input.polls i).invalid limits = none
  once : ∀ i, ((completionsOf rounds i).map (·.opId)).Nodup
  shape : ∀ i, ∀ completion ∈ completionsOf rounds i, completion.success.length = keys completion.opId
  credits : ∀ k, ∀ input ∈ rounds[k]?, (pending (rounds.take k) input).length ≤ limits.maxOperations

/-- What a round's done list has to say of the reports up to it: the operations whose last report is in the round,
once each, with the owners' bits combined. -/
structure Settles (past : List (StorageInput n)) (input : StorageInput n) (keys : Nat → Nat) (done : List StorageDone) :
    Prop where
  last : ∀ opId, opId ∈ done.map (·.opId) ↔ Complete (past ++ [input]) opId ∧ ¬Complete past opId
  once : (done.map (·.opId)).Nodup
  length : ∀ d ∈ done, d.success.length = keys d.opId ∧ d.objectFailures.length = keys d.opId
  success : ∀ d ∈ done, ∀ key < keys d.opId, d.success[key]? = some true ↔
    ∀ i, ∃ completion ∈ reportOf (past ++ [input]) i d.opId, completion.success[key]? = some true
  objectFailures : ∀ d ∈ done, ∀ key < keys d.opId, d.objectFailures[key]? = some true ↔
    ∃ i, ∃ completion ∈ reportOf (past ++ [input]) i d.opId, completion.objectFailures[key]? = some true
  retired : ∀ d ∈ done, d.retired = true ↔ ∀ i, ∃ completion ∈ reportOf (past ++ [input]) i d.opId,
    completion.retired = true
  apart : ∀ d ∈ done, ∀ key : Nat, ¬(d.success[key]? = some true ∧ d.objectFailures[key]? = some true)

end StorageReplica

end TokenSpeed.Engine

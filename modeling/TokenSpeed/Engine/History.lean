import TokenSpeed.Engine.Request
import TokenSpeed.Scheduler.Events

/-!
# Token-history rows

`HistoryRows` of `ts-control/src/output.rs`: whose tokens each slot's history row holds, and the prefixes
a forward seeds. Around it stand the rows themselves: a forward overwrites the seeded rows and then
writes the inputs of each of its rows at the row's committed boundary.
-/

namespace TokenSpeed.Engine

open Function

/-! ## Batches -/

inductive RowKind where
  | extend (prefixLen replayLen : Nat)
  | decode
  deriving DecidableEq, Repr

/-- One row of a `ForwardBatchView`. -/
structure BatchRow where
  requestId : Nat
  requestPoolIndex : Nat
  inputLength : Nat
  prefillLength : Nat
  kind : RowKind
  deriving DecidableEq, Repr

namespace BatchRow

def ofOperation : ForwardOperation → BatchRow
  | .prefill op => ⟨op.requestId, op.requestPoolIndex.getD 0, op.inputLength, op.prefillLength,
      .extend op.extendPrefixLen op.extendReplayLen⟩
  | .decode op => ⟨op.requestId, op.requestPoolIndex.getD 0, op.inputLength, op.prefillLength, .decode⟩

def boundary (row : BatchRow) (total : Nat) : Nat :=
  match row.kind with
  | .extend prefixLen _ => prefixLen
  | .decode => total - 1

end BatchRow

/-! ## Ownership and seeds -/

/-- One entry of `HistorySeeds`; the prefix length is the number of its tokens. -/
structure HistorySeed where
  slot : Nat
  tokens : List Token
  deriving DecidableEq, Repr

/-- `HistoryRows`: the admission each slot's row belongs to. -/
abbrev HistoryRows := Nat → Option Nat

/-- `CommitError::History`, with the request it names. -/
structure HistoryError where
  requestId : Nat
  deriving DecidableEq, Repr

namespace HistoryRows

def seedRow (states : Nat → Option RequestState) (owners : HistoryRows) (row : BatchRow) :
    Except HistoryError (HistoryRows × Option HistorySeed) :=
  match states row.requestId with
  | none => .error ⟨row.requestId⟩
  | some state =>
    let held := owners row.requestPoolIndex = some state.admission
    let boundary := row.boundary state.tokens.length
    let owners := update owners row.requestPoolIndex (some state.admission)
    if boundary = 0 ∨ held then .ok (owners, none)
    else if state.tokens.length < boundary then .error ⟨row.requestId⟩
    else .ok (owners, some ⟨row.requestPoolIndex, state.tokens.take boundary⟩)

def seeds (states : Nat → Option RequestState) : HistoryRows → List BatchRow →
    Except HistoryError (HistoryRows × List HistorySeed)
  | owners, [] => .ok (owners, [])
  | owners, row :: rows => do
    let (owners, seed) ← seedRow states owners row
    let (owners, rest) ← seeds states owners rows
    pure (owners, seed.toList ++ rest)

end HistoryRows

/-! ## The rows -/

def overwrite (row : List Token) (start : Nat) (tokens : List Token) : List Token :=
  (row ++ List.replicate (start - row.length) 0).take start ++ tokens ++ row.drop (start + tokens.length)

def seedHistory (rows : Nat → List Token) (seeds : List HistorySeed) : Nat → List Token :=
  seeds.foldl (fun rows seed => update rows seed.slot (overwrite (rows seed.slot) 0 seed.tokens)) rows

structure RowRun extends BatchRow where
  drafts : List Token := []
  kept : List Token := []
  deriving DecidableEq, Repr

namespace RowRun

variable (run : RowRun) (committed : List Token)

def inputs : List Token :=
  match run.kind with
  | .extend prefixLen _ => (committed.drop prefixLen).take run.inputLength
  | .decode => committed.drop (committed.length - 1) ++ run.drafts

def fedAfter : Nat :=
  match run.kind with
  | .extend prefixLen _ => prefixLen + run.inputLength
  | .decode => committed.length - 1 + run.kept.length

/-- The rows of a request with these tokens: a chunk of them that keeps a token only if it is the last, or
a decode that keeps the drafts it accepts and one token more. -/
def Fits : Prop :=
  match run.kind with
  | .extend prefixLen _ =>
    prefixLen + run.inputLength ≤ committed.length ∧
      (prefixLen + run.inputLength < committed.length → run.kept = [])
  | .decode => committed ≠ [] ∧ run.kept.dropLast <+: run.drafts

instance : Decidable (run.Fits committed) :=
  match run with
  | ⟨⟨_, _, _, _, .extend _ _⟩, _, _⟩ => inferInstanceAs (Decidable (_ ∧ _))
  | ⟨⟨_, _, _, _, .decode⟩, _, _⟩ => inferInstanceAs (Decidable (_ ∧ _))

end RowRun

structure Histories where
  states : Nat → Option RequestState := fun _ => none
  admissions : Nat := 0
  owners : HistoryRows := fun _ => none
  rows : Nat → List Token := fun _ => []
  committed : Nat → List Token := fun _ => []
  fed : Nat → Nat := fun _ => 0
  lastSlot : Nat → Option Nat := fun _ => none

namespace Histories

variable (h : Histories)

/-- A row the scheduler can emit for a request. A row goes on from what the request's earlier rows have
fed, and a request comes to a slot it did not run in last, or that another used since, only when no result
of its own is in flight. -/
def Emits (state : RequestState) (run : RowRun) : Prop :=
  run.Fits (h.committed state.admission) ∧
    ((h.lastSlot state.admission).isSome → run.boundary (h.committed state.admission).length ≤ h.fed state.admission) ∧
    (h.lastSlot state.admission ≠ some run.requestPoolIndex ∨ h.owners run.requestPoolIndex ≠ some state.admission →
      state.tokens = h.committed state.admission)

instance (state : RequestState) (run : RowRun) : Decidable (h.Emits state run) :=
  inferInstanceAs (Decidable (_ ∧ _ ∧ _))

/-- A batch the scheduler can emit; that its rows are apart is `planned_rows_apart`. -/
def EmitsBatch (batch : List RowRun) : Prop :=
  (batch.map (·.requestId)).Nodup ∧ (batch.map (·.requestPoolIndex)).Nodup ∧
    ∀ run ∈ batch, (h.states run.requestId).any fun state => decide (h.Emits state run)

instance (batch : List RowRun) : Decidable (h.EmitsBatch batch) := inferInstanceAs (Decidable (_ ∧ _ ∧ _))

def seeded (batch : List RowRun) : Option Histories :=
  match HistoryRows.seeds h.states h.owners (batch.map (·.toBatchRow)) with
  | .ok (owners, seeds) => some { h with owners := owners, rows := seedHistory h.rows seeds }
  | .error _ => none

def runRow (run : RowRun) : Histories :=
  match h.states run.requestId with
  | none => h
  | some state =>
    let slot := run.requestPoolIndex
    let committed := h.committed state.admission
    { h with
      rows := update h.rows slot
        (overwrite (h.rows slot) (run.boundary committed.length) (run.inputs committed))
      committed := update h.committed state.admission (committed ++ run.kept)
      fed := update h.fed state.admission (run.fedAfter committed)
      lastSlot := update h.lastSlot state.admission (some slot) }

/-- The admission's tokens, `count` of those its forwards kept joining what the control plane knows. -/
def commitTokens (state : RequestState) (count : Nat) : RequestState :=
  let known := state.tokens.length
  { state with outputIds := state.outputIds ++ ((h.committed state.admission).drop known).take count }

/-! ## Runs -/

inductive Event where
  /-- `register`, with the request's prompt -/
  | register (requestId : Nat) (prompt : List Token)
  /-- `remote_prefill_done`: the first token of a request whose prompt another node computed -/
  | land (requestId : Nat) (token : Token)
  /-- a batch is dispatched -/
  | forward (batch : List RowRun)
  /-- the result of a row reaches the control plane -/
  | commit (requestId : Nat) (count : Nat)
  /-- the request leaves the processor -/
  | release (requestId : Nat)
  deriving DecidableEq, Repr

def Event.batch : Event → List RowRun
  | .forward batch => batch
  | _ => []

def apply : Event → Option Histories
  | .register requestId prompt =>
    let admission := h.admissions + 1
    some { h with
      admissions := admission
      states := update h.states requestId
        (some { promptIds := prompt, maxNewTokens := 0, admission := admission })
      committed := update h.committed admission prompt }
  | .land requestId token =>
    match h.states requestId with
    | none => some h
    | some state =>
      if h.lastSlot state.admission = none then
        some { h with
          states := update h.states requestId
            (some { state with outputIds := state.outputIds ++ [token] })
          committed := update h.committed state.admission (h.committed state.admission ++ [token]) }
      else none
  | .forward batch =>
    if h.EmitsBatch batch then (h.seeded batch).map fun h => batch.foldl runRow h else none
  | .commit requestId count =>
    some { h with
      states := update h.states requestId ((h.states requestId).map fun state => h.commitTokens state count) }
  | .release requestId => some { h with states := update h.states requestId none }

def run : Histories → List Event → Option Histories
  | h, [] => some h
  | h, e :: events => (h.apply e).bind fun h => h.run events

/-! ## What is asked of the rows -/

def Fresh (run : RowRun) : Prop :=
  ∀ state, h.states run.requestId = some state →
    let committed := h.committed state.admission
    (h.rows run.requestPoolIndex).take (run.boundary committed.length) =
      committed.take (run.boundary committed.length)

def Home (run : RowRun) : Prop :=
  ∀ state, h.states run.requestId = some state → h.owners run.requestPoolIndex = some state.admission →
    h.lastSlot state.admission = some run.requestPoolIndex

instance (run : RowRun) : Decidable (h.Home run) :=
  match hstate : h.states run.requestId with
  | none => .isTrue fun state h' => nomatch hstate.symm.trans h'
  | some state =>
    if hhome : h.owners run.requestPoolIndex = some state.admission →
        h.lastSlot state.admission = some run.requestPoolIndex then
      .isTrue fun state' h' howner => by
        obtain rfl : state = state' := Option.mem_unique hstate h'
        exact hhome howner
    else .isFalse fun hall => hhome (hall state hstate)

/-- An event that happens, each of its rows in a slot its request did not leave and come back to. -/
def Step (h h' : Histories) : Prop := ∃ e, h.apply e = some h' ∧ ∀ run ∈ e.batch, h.Home run

def homeRun : Histories → List Event → Option Histories
  | h, [] => some h
  | h, e :: events => if ∀ run ∈ e.batch, h.Home run then (h.apply e).bind fun h => h.homeRun events else none

end Histories

end TokenSpeed.Engine

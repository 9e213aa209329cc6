import Mathlib.Data.List.Sort

/-!
# Expert slot moves

`plan_slot_moves` of `ts-control/src/eplb/moves.rs` and `_move_weights` of `moe/expert_location_updater.py`. A
placement is a row of logical experts, rank after rank. The tensors of a slot count as one weight; they are
exchanged slot by slot, in the order of the plan.
-/

namespace TokenSpeed.Engine

open Function

structure SlotMoves where
  recv : List (Nat × Nat) := []
  send : List (Nat × Nat) := []
  localCopy : List (Nat × Nat) := []
  freeRider : List (Nat × Nat) := []
  deriving DecidableEq, Repr

def SlotMoves.written (moves : SlotMoves) : List Nat := (moves.recv ++ moves.localCopy ++ moves.freeRider).map Prod.fst

inductive MoveError where
  | message (text : String)
  | absent
  deriving DecidableEq, Repr

/-! ## Sources -/

/-- The runs `spread` cuts: `elements` in turn to each target, one more to the first `longRuns`. -/
def spreadRuns (short longRuns : Nat) : Nat → List Nat → List Nat → List (Nat × Nat)
  | _, _, [] => []
  | index, elements, target :: rest =>
    let size := short + if index < longRuns then 1 else 0
    (elements.take size).map (·, target) ++ spreadRuns short longRuns (index + 1) (elements.drop size) rest

def spread (elements targets : List Nat) (element : Nat) : Option Nat :=
  if elements.isEmpty || targets.isEmpty then none
  else
    let runs := spreadRuns (elements.length / targets.length) (elements.length % targets.length) 0 elements targets
    (runs.reverse.find? (·.1 = element)).map Prod.snd

def pushRank (ranks : List Nat) (rank : Nat) : List Nat := if ranks.getLast? = some rank then ranks else ranks ++ [rank]

section Plan

variable (old new : List Int) (nodes : List Int) (numLocal : Nat)

def slotRanks (row : List Int) (numLocal : Nat) (logical : Int) : List Nat :=
  ((List.range row.length).filter fun p => row.getD p 0 = logical).map (· / numLocal)

/-- `src_ranks_of` at an expert: the ranks that hold it before. -/
def srcRanksOf (logical : Int) : List Nat := (slotRanks old numLocal logical).foldl pushRank []

/-- `dst_ranks_of` at an expert: the ranks that receive it from elsewhere. -/
def dstRanksOf (logical : Int) : List Nat :=
  ((slotRanks new numLocal logical).filter fun rank => rank ∉ srcRanksOf old numLocal logical).foldl pushRank []

/-- `source_for`; none if no slot held the expert. -/
def sourceFor (logical : Int) (dstRank : Nat) : Option Nat :=
  let srcRanks := srcRanksOf old numLocal logical
  let dstRanks := dstRanksOf old new numLocal logical
  let sameNodeSources := srcRanks.filter fun r => nodes[r]? = nodes[dstRank]?
  if sameNodeSources ≠ [] then
    let sameNodeDsts := dstRanks.filter fun r => nodes[r]? = nodes[dstRank]?
    spread sameNodeDsts sameNodeSources dstRank
  else
    let crossNodeDsts := dstRanks.filter fun r => nodes[r]? ∉ srcRanks.map fun s => nodes[s]?
    spread crossNodeDsts srcRanks dstRank

/-! ## The plan -/

/-- `held_slot_of` at an expert: the lowest of the rank's slots that hold it. -/
def heldSlotOf (first : Nat) (logical : Int) : Option Nat :=
  (List.range numLocal).find? fun slot => old.getD (first + slot) 0 = logical

structure MoveState where
  recv : List (Int × Nat × Nat) := []
  localCopy : List (Nat × Nat) := []
  freeRider : List (Nat × Nat) := []
  firstReceiving : Int → Option Nat := fun _ => none

def planSlot (epRank : Nat) (state : MoveState) (dstSlot : Nat) : Except MoveError MoveState :=
  let logical := new.getD (epRank * numLocal + dstSlot) 0
  if old.getD (epRank * numLocal + dstSlot) 0 = logical then .ok state
  else
    match heldSlotOf old numLocal (epRank * numLocal) logical with
    | some held => .ok { state with localCopy := state.localCopy ++ [(dstSlot, held)] }
    | none =>
      let earlier := (state.firstReceiving logical).getD dstSlot
      let state := { state with firstReceiving := update state.firstReceiving logical (some earlier) }
      if earlier ≠ dstSlot then .ok { state with freeRider := state.freeRider ++ [(dstSlot, earlier)] }
      else
        match sourceFor old new nodes numLocal logical epRank with
        | none => .error .absent
        | some source => .ok { state with recv := state.recv ++ [(logical, dstSlot, source)] }

def planSends (epRank : Nat) : List (Int × Nat × Nat) :=
  ((List.range numLocal).filter fun slot =>
    heldSlotOf old numLocal (epRank * numLocal) (old.getD (epRank * numLocal + slot) 0) = some slot).flatMap fun slot =>
      let logical := old.getD (epRank * numLocal + slot) 0
      ((dstRanksOf old new numLocal logical).filter fun dstRank =>
        sourceFor old new nodes numLocal logical dstRank = some epRank).map fun dstRank => (logical, slot, dstRank)

def MoveLe (a b : Int × Nat × Nat) : Prop :=
  a.1 < b.1 ∨ a.1 = b.1 ∧ (a.2.1 < b.2.1 ∨ a.2.1 = b.2.1 ∧ a.2.2 ≤ b.2.2)

instance : DecidableRel MoveLe := fun _ _ => inferInstanceAs (Decidable (_ ∨ _))

def planSlotMoves (epRank : Nat) : Except MoveError SlotMoves :=
  let epSize := nodes.length
  let numPhysical := old.length
  if new.length ≠ numPhysical then .error (.message "old_row and new_row must have the same length")
  else if numLocal = 0 ∨ numPhysical ≠ epSize * numLocal then
    .error (.message s!"{numPhysical} slots are not {epSize} ranks x {numLocal} local slots")
  else if epSize ≤ epRank then .error (.message s!"ep_rank={epRank} is outside the {epSize} EP ranks")
  else
    ((List.range numLocal).foldlM (planSlot old new nodes numLocal epRank) {}).map fun state =>
      { recv := (state.recv.insertionSort MoveLe).map Prod.snd
        send := ((planSends old new nodes numLocal epRank).insertionSort MoveLe).map Prod.snd
        localCopy := state.localCopy
        freeRider := state.freeRider }

end Plan

/-! ## The moves -/

section Moves

variable {α : Type}

def receive : List (Nat × Nat) → (Nat → List α) → (Nat → α) → Option ((Nat → α) × (Nat → List α))
  | [], queues, staging => some (staging, queues)
  | (dstSlot, srcRank) :: rest, queues, staging =>
    match queues srcRank with
    | [] => none
    | weight :: queue => receive rest (update queues srcRank queue) (update staging dstSlot weight)

/-- What rank `src` sends to `dst`, from its live slots. -/
def sent (epSize : Nat) (moves : Nat → SlotMoves) (live : Nat → Nat → α) (dst src : Nat) : List α :=
  if src < epSize then ((moves src).send.filter (·.2 = dst)).map fun move => live src move.1 else []

/-- `batch_isend_irecv` on one rank: its staging once every send to it is received. -/
def exchange (epSize : Nat) (moves : Nat → SlotMoves) (live : Nat → Nat → α) (staging : Nat → α) (rank : Nat) :
    Option (Nat → α) :=
  (receive (moves rank).recv (sent epSize moves live rank) staging).bind fun (staging, queues) =>
    if ∀ src < epSize, (queues src).isEmpty then some staging else none

/-- `_move_weights` on one rank: its live slots after it; none if the exchange hangs. -/
def moveWeights (epSize : Nat) (moves : Nat → SlotMoves) (live : Nat → Nat → α) (staging : Nat → α) (rank : Nat) :
    Option (Nat → α) :=
  (exchange epSize moves live staging rank).map fun staging =>
    let staging := (moves rank).localCopy.foldl (fun staging move => update staging move.1 (live rank move.2)) staging
    let slots := ((moves rank).recv ++ (moves rank).localCopy).foldl
      (fun slots move => update slots move.1 (staging move.1)) (live rank)
    (moves rank).freeRider.foldl (fun slots move => update slots move.1 (slots move.2)) slots

end Moves

end TokenSpeed.Engine

import Mathlib.Data.List.Basic

/-!
# Control operations of the engine client

`EngineClient::control` and `Shared::dispatch_control` of `ts-client`. A reply carries the tag of its operation
alone: one operation of a tag has the turn at a time, and a reply goes to the waiter of its tag. The operations
are numbered; the tag of each is left open, and so is when an engine answers.
-/

namespace TokenSpeed.Client

open Function

inductive ControlPhase where
  | fresh
  | waiting
  | turn
  | sending (next : Nat)
  | ended
  deriving DecidableEq, Repr

structure ControlReply where
  engine : Nat
  op : Nat
  deriving DecidableEq, Repr

/-- `ControlWaiter`, with the operation it is of. -/
structure ControlWaiter where
  op : Nat
  replies : List ControlReply := []
  deriving DecidableEq, Repr

structure ControlRun where
  phase : Nat → ControlPhase := fun _ => .fresh
  turn : Nat → Option Nat := fun _ => none
  waiter : Nat → Option ControlWaiter := fun _ => none
  outstanding : Nat → List Nat := fun _ => []
  /-- what was sent to an operation's `done` -/
  result : Nat → Option (List ControlReply) := fun _ => none
  returned : Nat → Option (List ControlReply) := fun _ => none
  closed : Bool := false

inductive ControlEvent where
  | call (op : Nat)
  | acquire (op : Nat)
  | register (op : Nat)
  | send (op : Nat)
  /-- a send that times out may have been delivered -/
  | sendFailed (op : Nat) (delivered : Bool)
  | giveUp (op : Nat)
  | receive (engine : Nat) (op : Nat)
  | finish (op : Nat)
  /-- the waiter was dropped -/
  | fail (op : Nat)
  | close
  | clear
  deriving DecidableEq, Repr

namespace ControlRun

variable (n : Nat) (tag : Nat → Nat) (h : ControlRun)

def leave (op : Nat) : ControlRun :=
  { h with
    phase := update h.phase op .ended
    turn := if h.turn (tag op) = some op then update h.turn (tag op) none else h.turn }

def sendTo (e op : Nat) : Nat → List Nat := update h.outstanding e (h.outstanding e ++ [op])

def dispatchControl (reply : ControlReply) : ControlRun :=
  match h.waiter (tag reply.op) with
  | none => h
  | some w =>
    let replies := w.replies ++ [reply]
    if replies.length = n then
      { h with
        waiter := update h.waiter (tag reply.op) none
        result := update h.result w.op (some replies) }
    else { h with waiter := update h.waiter (tag reply.op) (some { w with replies := replies }) }

def step : ControlEvent → Option ControlRun
  | .call op => if h.phase op = .fresh then some { h with phase := update h.phase op .waiting } else none
  | .acquire op =>
    if h.phase op = .waiting ∧ h.turn (tag op) = none then
      if h.closed then some (h.leave tag op)
      else some { h with phase := update h.phase op .turn, turn := update h.turn (tag op) (some op) }
    else none
  | .register op =>
    if h.phase op = .turn then
      some { h with phase := update h.phase op (.sending 0), waiter := update h.waiter (tag op) (some { op := op }) }
    else none
  | .send op =>
    match h.phase op with
    | .sending k =>
      if k < n then
        some { h with phase := update h.phase op (.sending (k + 1)), outstanding := h.sendTo k op }
      else none
    | _ => none
  | .sendFailed op delivered =>
    match h.phase op with
    | .sending k =>
      if k < n then
        some { h.leave tag op with
          waiter := update h.waiter (tag op) none
          outstanding := if delivered then h.sendTo k op else h.outstanding }
      else none
    | _ => none
  | .giveUp op => if h.phase op = .fresh ∨ h.phase op = .ended then none else some (h.leave tag op)
  | .receive e op =>
    if op ∈ h.outstanding e then
      some ({ h with outstanding := update h.outstanding e ((h.outstanding e).erase op) }.dispatchControl n tag ⟨e, op⟩)
    else none
  | .finish op =>
    if h.phase op = .sending n then
      match h.result op with
      | none => none
      | some replies => some { h.leave tag op with returned := update h.returned op (some replies) }
    else none
  | .fail op =>
    if h.phase op = .sending n ∧ h.result op = none ∧ (h.waiter (tag op)).all (·.op ≠ op) then
      some (h.leave tag op)
    else none
  | .close => some { h with closed := true }
  | .clear => if h.closed then some { h with waiter := fun _ => none } else none

def Orderly : ControlEvent → Prop
  | .register op => ∀ e < n, ∀ other ∈ h.outstanding e, tag other = tag op → other = op
  | _ => True

instance : (event : ControlEvent) → Decidable (h.Orderly n tag event)
  | .register _ => Nat.decidableBallLT _ _
  | .call _ | .acquire _ | .send _ | .sendFailed _ _ | .giveUp _ | .receive _ _ | .finish _ | .fail _ | .close
      | .clear => .isTrue trivial

def Answered : Prop :=
  ∀ op replies, h.returned op = some replies → (replies.map (·.engine)).Perm (List.range n) ∧
    ∀ reply ∈ replies, reply.op = op

end ControlRun

end TokenSpeed.Client

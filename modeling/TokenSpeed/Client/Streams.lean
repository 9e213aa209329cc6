import Mathlib.Data.List.Basic

/-!
# Streams of the engine client

`Shared::forget`, `dispatch` and `close`, `EngineClient::generate` and `abort`, and `RequestStream` of
`ts-client`. A step
is a section under a lock, an operation of an `in_flight` counter or a message put on or taken from a channel. The calls
of `generate` are numbered; the id and the engine of a call are left open. An engine answers a submission with chunks of
which the last is final.
-/

namespace TokenSpeed.Client

open Function

structure Request where
  rid : Nat
  engine : Nat
  deriving DecidableEq, Repr

/-- How far a call of `generate` and its stream have come. -/
inductive CallPhase where
  | fresh
  /-- the client was not closed -/
  | calling
  | registered
  | sending
  /-- the message is out, `send` has not returned -/
  | delivered
  | reading
  | done
  | dropped
  /-- `generate` returned an error -/
  | failed
  deriving DecidableEq, Repr

def CallPhase.isOpen : CallPhase → Bool
  | .registered | .sending | .delivered | .reading => true
  | .fresh | .calling | .done | .dropped | .failed => false

/-- `StreamItem`; a chunk comes with the submission the engine made it for. -/
inductive Item where
  | chunk (sub : Nat) (last : Bool)
  | closed
  deriving DecidableEq, Repr

def Item.terminal : Item → Bool
  | .chunk _ last => last
  | .closed => true

inductive Message where
  | add (sub : Nat)
  | abort (rid : Nat) (cause : Nat)
  deriving DecidableEq, Repr

def Message.sub : Message → Nat
  | .add sub => sub
  | .abort _ cause => cause

structure AbortTask where
  engine : Nat
  rid : Nat
  cause : Nat
  deriving DecidableEq, Repr

structure OutputRow where
  sub : Nat
  last : Bool
  deriving DecidableEq, Repr

structure StreamRun where
  calls : Nat := 0
  phase : Nat → CallPhase := fun _ => .fresh
  items : Nat → List Item := fun _ => []
  yielded : Nat → List Item := fun _ => []
  requests : List Nat := []
  inFlight : Nat → Int := fun _ => 0
  /-- engines of requests that were removed and are still counted -/
  owed : List Nat := []
  aborts : List AbortTask := []
  queue : Nat → List Message := fun _ => []
  live : Nat → List Nat := fun _ => []
  outputs : Nat → List OutputRow := fun _ => []
  /-- the submissions an abort met on its engine, each with the one it was meant for -/
  aborted : List (Nat × Nat) := []
  closed : Bool := false
  drained : List Nat := []
  shut : Bool := false

inductive StreamEvent where
  | call
  | insert (sub : Nat)
  | count (sub : Nat)
  | deliver (sub : Nat)
  | sent (sub : Nat)
  | sendFailed (sub : Nat)
  | next (sub : Nat)
  | drop (sub : Nat)
  | settle (engine : Nat)
  | abort (rid : Nat)
  | sendAbort (task : AbortTask) (ok : Bool)
  | take (engine : Nat)
  | produce (engine : Nat) (sub : Nat) (last : Bool)
  | receive (engine : Nat)
  | close
  | drain
  | finish (sub : Nat)
  deriving DecidableEq, Repr

namespace StreamRun

variable (req : Nat → Request) (h : StreamRun)

def tracked (rid : Nat) : Option Nat := h.requests.find? fun s => (req s).rid = rid

def without (rid : Nat) : List Nat := h.requests.filter fun s => (req s).rid ≠ rid

/-- `forget`, up to the counter. -/
def forget (rid : Nat) : StreamRun :=
  match h.tracked req rid with
  | none => h
  | some s => { h with requests := h.without req rid, owed := h.owed ++ [(req s).engine] }

def dropStream (s : Nat) : StreamRun :=
  match h.tracked req (req s).rid with
  | none => h
  | some t => { h.forget req (req s).rid with aborts := h.aborts ++ [⟨(req t).engine, (req s).rid, s⟩] }

def dispatch (row : OutputRow) : StreamRun :=
  match h.tracked req (req row.sub).rid with
  | none => h
  | some t =>
    let h := { h with items := update h.items t (h.items t ++ [.chunk row.sub row.last]) }
    if row.last then
      { h with
        requests := h.without req (req row.sub).rid
        inFlight := update h.inFlight (req t).engine (h.inFlight (req t).engine - 1) }
    else h

def taken (e : Nat) : Message → StreamRun
  | .add s => { h with live := update h.live e (h.live e ++ [s]) }
  | .abort rid cause =>
    { h with aborted := h.aborted ++ ((h.live e).filter fun s => (req s).rid = rid).map fun s => (s, cause) }

def enter (s : Nat) (p : CallPhase) : StreamRun := { h with phase := update h.phase s p }

def step : StreamEvent → Option StreamRun
  | .call => some { h.enter h.calls (if h.closed then .failed else .calling) with calls := h.calls + 1 }
  | .insert s =>
    if h.phase s = .calling then
      if (h.tracked req (req s).rid).isSome then some (h.enter s .failed)
      else some { h.enter s .registered with requests := h.requests ++ [s] }
    else none
  | .count s =>
    if h.phase s = .registered then
      some { h.enter s .sending with inFlight := update h.inFlight (req s).engine (h.inFlight (req s).engine + 1) }
    else none
  | .deliver s =>
    if h.phase s = .sending then
      some { h.enter s .delivered with queue := update h.queue (req s).engine (h.queue (req s).engine ++ [.add s]) }
    else none
  | .sent s => if h.phase s = .delivered then some (h.enter s .reading) else none
  | .sendFailed s =>
    if h.phase s = .sending ∨ h.phase s = .delivered then some ((h.enter s .failed).forget req (req s).rid) else none
  | .next s =>
    if h.phase s = .reading then
      match h.items s with
      | item :: rest =>
        some { h.enter s (if item.terminal then .done else .reading) with
          items := update h.items s rest
          yielded := update h.yielded s (h.yielded s ++ [item]) }
      | [] => if s ∈ h.requests ∨ s ∈ h.drained then none else some (h.enter s .done)
    else none
  | .drop s => if h.phase s = .reading then some ((h.enter s .dropped).dropStream req s) else none
  | .settle e =>
    if e ∈ h.owed then
      some { h with owed := h.owed.erase e, inFlight := update h.inFlight e (h.inFlight e - 1) }
    else none
  | .abort rid =>
    match h.tracked req rid with
    | none => some h
    | some s => some { h with aborts := h.aborts ++ [⟨(req s).engine, rid, s⟩] }
  | .sendAbort task ok =>
    if task ∈ h.aborts then
      let h := { h with aborts := h.aborts.erase task }
      if ok then some { h with
        queue := update h.queue task.engine (h.queue task.engine ++ [.abort task.rid task.cause]) }
      else some h
    else none
  | .take e =>
    match h.queue e with
    | [] => none
    | message :: rest => some ({ h with queue := update h.queue e rest }.taken req e message)
  | .produce e s last =>
    if s ∈ h.live e then
      some { h with
        outputs := update h.outputs e (h.outputs e ++ [⟨s, last⟩])
        live := update h.live e (if last then (h.live e).erase s else h.live e) }
    else none
  | .receive e =>
    match h.outputs e with
    | [] => none
    | row :: rest => some ({ h with outputs := update h.outputs e rest }.dispatch req row)
  | .close => some { h with closed := true }
  | .drain =>
    if h.closed then some { h with drained := h.drained ++ h.requests, requests := [], shut := true } else none
  | .finish s =>
    if s ∈ h.drained then
      some { h with
        drained := h.drained.erase s
        inFlight := update h.inFlight (req s).engine (h.inFlight (req s).engine - 1)
        items := update h.items s (h.items s ++ [.closed]) }
    else none

def Idle (s : Nat) : Prop :=
  (h.phase s).isOpen = false ∧ (∀ m ∈ h.queue (req s).engine, m.sub ≠ s) ∧ s ∉ h.live (req s).engine ∧
    (∀ row ∈ h.outputs (req s).engine, row.sub ≠ s) ∧ ∀ task ∈ h.aborts, task.cause ≠ s

instance (s : Nat) : Decidable (h.Idle req s) := inferInstanceAs (Decidable (_ ∧ _))

/-- An id is used again once nothing is left of its earlier submissions, and requests are drained while no call
is between the check of `closed` and the count. -/
def Orderly : StreamEvent → Prop
  | .insert s => ∀ t < h.calls, t ≠ s → (req t).rid = (req s).rid → h.Idle req t
  | .drain => ∀ s < h.calls, h.phase s ≠ .calling ∧ h.phase s ≠ .registered
  | _ => True

instance : (event : StreamEvent) → Decidable (h.Orderly req event)
  | .insert _ | .drain => Nat.decidableBallLT _ _
  | .call | .count _ | .deliver _ | .sent _ | .sendFailed _ | .next _ | .drop _ | .settle _ | .abort _ | .sendAbort _ _
  | .take _ | .produce _ _ _ | .receive _ | .close | .finish _ => .isTrue trivial

/-! ## What is asked of a run -/

def Removes (s : Nat) : StreamEvent → Prop
  | .receive e => (h.outputs e).head? = some ⟨s, true⟩
  | .drop t | .sendFailed t => t = s
  | .drain => True
  | _ => False

/-- No operation is between a change of `requests` and that of a counter. -/
def Settled : Prop := (∀ s, h.phase s ≠ .registered) ∧ h.owed = [] ∧ h.drained = []

structure Separate : Prop where
  own : ∀ s t last, .chunk t last ∈ h.yielded s → t = s
  removed : ∀ event h', h.step req event = some h' → ∀ s ∈ h.requests, s ∉ h'.requests → h.Removes s event
  aborted : ∀ pair ∈ h.aborted, pair.1 = pair.2
  counted : h.Settled → ∀ e, h.inFlight e = h.requests.countP fun s => (req s).engine = e
  positive : ∀ e, 0 ≤ h.inFlight e
  ended : h.shut → h.requests = [] ∧ ∀ s, (h.phase s).isOpen → s ∉ h.drained → ∃ item ∈ h.items s, item.terminal

end StreamRun

end TokenSpeed.Client

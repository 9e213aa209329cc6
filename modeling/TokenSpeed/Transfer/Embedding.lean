import TokenSpeed.Transfer.Status

/-!
# An encode rank's sender

`Shared` and `Sender` of `ts-pd/src/epd/sender.rs`: the rooms whose rows prefill ranks ask for, and the workers
that write them. The scheduling loop, the message thread and the workers each take the lock for one of the
events below. What a write copies and why requests do not validate is left out. A room's statuses count the
requests it holds, not those a tombstone answers.
-/

namespace TokenSpeed.Transfer

open Function

/-- `TransferInfo`, as far as a room reads it. -/
structure TransferInfo where
  session : Nat
  fanout : Int
  deriving DecidableEq, Repr

/-- `Room`; `parked` is how long its chunk may wait. -/
structure SendRoom where
  infos : List TransferInfo := []
  since : Nat
  begun : Bool := false
  parked : Option Nat := none
  sending : Bool := false
  deriving DecidableEq, Repr

def SendRoom.complete (room : SendRoom) : Bool :=
  !room.infos.isEmpty && room.infos.all fun info => decide (info.fanout ≤ room.infos.length)

structure SendJob where
  room : Nat
  infos : List TransferInfo
  deriving DecidableEq, Repr

/-- The sender. For each room `begins` counts the begins that returned true, `concluded` the conclusions
reported, and `told` the statuses sent since it appeared. -/
structure EmbeddingSender where
  timeout : Nat
  rooms : Nat → Option SendRoom := fun _ => none
  tombstones : Nat → Option Nat := fun _ => none
  jobs : List SendJob := []
  begins : Nat → Nat := fun _ => 0
  concluded : Nat → Nat := fun _ => 0
  told : Nat → List (Nat × TransferPoll) := fun _ => []

inductive SendEvent where
  | begin (room now : Nat)
  | send (room now : Nat)
  | fail (room now : Nat)
  | request (room : Nat) (info : TransferInfo) (now : Nat)
  | expire (now : Nat)
  /-- a worker is done with a job: whether its requests validate, and the sessions whose rows it wrote -/
  | work (job : SendJob) (valid : Bool) (written : Nat → Bool) (now : Nat)

namespace EmbeddingSender

variable (h : EmbeddingSender)

variable (room now : Nat)

def entry : SendRoom := (h.rooms room).getD { since := now }

def put (entry : SendRoom) : EmbeddingSender :=
  { h with
    rooms := update h.rooms room (some entry)
    told := if (h.rooms room).isSome then h.told else update h.told room [] }

def conclude (infos : List TransferInfo) (status : TransferPoll) (reported : Bool) : EmbeddingSender :=
  { h with
    rooms := update h.rooms room none
    told := update h.told room (h.told room ++ infos.map fun info => (info.session, status))
    concluded := if reported then update h.concluded room (h.concluded room + 1) else h.concluded }

def failRoom : EmbeddingSender :=
  let failed :=
    match h.rooms room with
    | none => h
    | some entry => h.conclude room entry.infos .failed entry.begun
  { failed with tombstones := update h.tombstones room (some (now + h.timeout)) }

/-- `dispatch` of a complete room. -/
def dispatch (entry : SendRoom) : EmbeddingSender :=
  { h.put room { entry with sending := true } with jobs := h.jobs ++ [⟨room, entry.infos⟩] }

def overdue (entry : SendRoom) : Bool := entry.parked.any fun until_ => decide (until_ ≤ now)

def orphan (entry : SendRoom) : Bool := !entry.begun && decide (h.timeout < now - entry.since)

/-- `expire`: every overdue room fails, then every orphan goes. -/
def expire : EmbeddingSender :=
  let late (room : Nat) : Bool := (h.rooms room).any (overdue now)
  { h with
    tombstones := fun room =>
      if late room then some (now + h.timeout) else (h.tombstones room).filter fun until_ => decide (now < until_)
    rooms := fun room => (h.rooms room).filter fun entry => !overdue now entry && !h.orphan now entry
    told := fun room =>
      if late room then
        h.told room ++ ((h.rooms room).elim [] SendRoom.infos).map fun info => (info.session, TransferPoll.failed)
      else h.told room
    concluded := fun room =>
      if late room && (h.rooms room).any SendRoom.begun then h.concluded room + 1 else h.concluded room }

def step : SendEvent → Option EmbeddingSender
  | .begin room now =>
    let entry := h.entry room now
    if entry.begun then some h
    else some { h.put room { entry with begun := true } with begins := update h.begins room (h.begins room + 1) }
  | .send room now =>
    match h.rooms room with
    | none => some h
    | some entry =>
      if entry.complete then some (h.dispatch room entry)
      else some (h.put room { entry with parked := some (now + h.timeout) })
  | .fail room now => if (h.rooms room).any SendRoom.sending then some h else some (h.failRoom room now)
  | .request room info now =>
    if (h.tombstones room).isSome then some h
    else
      let entry := h.entry room now
      let entry := { entry with infos := entry.infos.filter (·.session ≠ info.session) ++ [info] }
      if entry.complete && entry.parked.isSome then some (h.dispatch room { entry with parked := none })
      else some (h.put room entry)
  | .expire now => some (h.expire now)
  | .work job valid written now =>
    if job ∈ h.jobs then
      let done := { h with jobs := h.jobs.erase job }
      if valid && job.infos.all (written ·.session) then some (done.conclude job.room job.infos .success true)
      else some (done.failRoom job.room now)
    else none

/-- The loop sends a room it has begun once, and a room takes one request of a session, and none while a worker
writes it. -/
def Orderly : SendEvent → Prop
  | .send room _ => ∀ entry ∈ h.rooms room, entry.begun = true ∧ entry.parked = none ∧ entry.sending = false
  | .request room info _ => h.tombstones room = none → ∀ entry ∈ h.rooms room,
      entry.sending = false ∧ info.session ∉ entry.infos.map (·.session)
  | _ => True

instance (event : SendEvent) : Decidable (h.Orderly event) :=
  match event with
  | .send room _ => inferInstanceAs (Decidable (∀ entry ∈ h.rooms room, _))
  | .request room _ _ => inferInstanceAs (Decidable (h.tombstones room = none → ∀ entry ∈ h.rooms room, _))
  | .begin .. | .fail .. | .expire _ | .work .. => .isTrue trivial

def Step (h h' : EmbeddingSender) : Prop := ∃ event, h.Orderly event ∧ h.step event = some h'

def steps : EmbeddingSender → List SendEvent → Option EmbeddingSender
  | h, [] => some h
  | h, event :: events => (h.step event).bind fun h' => steps h' events

def run : EmbeddingSender → List SendEvent → Option EmbeddingSender
  | h, [] => some h
  | h, event :: events => if h.Orderly event then (h.step event).bind fun h' => run h' events else none

/-! ## What is asked of a step -/

def toldTo (session : Nat) : List TransferPoll := ((h.told room).filter (·.1 = session)).map (·.2)

/-- What an event may do: a room is reported no more often than it was begun, and only with no chunk of it left
for a worker; a room that goes, unless nobody claimed it, has told each of its requests once, success only where
the rows were written; a room being written is left to its worker. -/
structure Concludes (event : SendEvent) (h' : EmbeddingSender) : Prop where
  once : ∀ room, h'.concluded room ≤ h'.begins room
  free : ∀ room, h.concluded room < h'.concluded room → h'.rooms room = none ∧ ∀ job ∈ h'.jobs, job.room ≠ room
  told : ∀ room entry, h.rooms room = some entry → h'.rooms room = none →
    (entry.begun = false ∧ entry.sending = false ∧ entry.parked = none) ∧ (∃ now, event = .expire now) ∨
      ∀ info ∈ entry.infos, h'.toldTo room info.session = [.failed] ∨
        h'.toldTo room info.session = [.success] ∧ ∃ job written now, event = .work job true written now ∧
          written info.session = true
  writing : ∀ room entry, h.rooms room = some entry → entry.sending = true →
    (∃ job valid written now, event = .work job valid written now ∧ job.room = room) ∨
      h'.rooms room = some entry ∧ h'.jobs.filter (·.room = room) = h.jobs.filter (·.room = room)

end EmbeddingSender

end TokenSpeed.Transfer

import TokenSpeed.Transfer.Status
import Mathlib.Data.Finset.Card

/-!
# A Prefill rank's rooms

`State`, `Shared` and `PrefillPeer` of `ts-pd/src/prefill.rs`: the destinations a room's Decode ranks
pre-allocate, the ends of a room and the notices they send. The message thread, the transfer workers and the
scheduling loop each take the lock for one of the events below; a worker reports success in two of them.
Copies and payloads are left out.
-/

namespace TokenSpeed.Transfer

/-- `Registration`, as far as rooms read it. -/
structure Registration where
  endpoint : String
  port : Nat
  decodeTpSize : Int
  decodeTpRank : Int
  isDummy : Bool
  expectedDecodeRanks : Finset Int
  deriving DecidableEq

/-- `Destination`; a dummy has no manifest. -/
structure Destination where
  session : Nat
  isDummy : Bool
  deriving DecidableEq, Repr

structure PrefillState where
  rooms : RoomTable := {}
  tracked : Nat → Bool := fun _ => false
  roomsByRid : Nat → Option Nat := fun _ => none
  unclaimed : Nat → Option Nat := fun _ => none
  registrations : Nat → Option Registration := fun _ => none
  rejected : Nat → Option (String × Nat) := fun _ => none
  destinations : Nat → List Destination := fun _ => []

/-- A terminal `StatusMessage`: the session it goes to, its room and its status. -/
structure Notice where
  session : Nat
  room : Nat
  status : TransferPoll
  deriving DecidableEq, Repr

namespace PrefillState

variable (s : PrefillState)

variable (room session : Nat)

def routeOf : Option (String × Nat) :=
  ((s.registrations session).map fun r => (r.endpoint, r.port)).or (s.rejected session)

def ended : Bool := (s.rooms.get room).all (· = .failed)

/-- `touch`, at a time. -/
def touch (now : Nat) : PrefillState :=
  if s.tracked room then s else
    { s with unclaimed := Function.update s.unclaimed room ((s.unclaimed room).or (some now)) }

def waiting : List Nat := ((s.destinations room).filter (!·.isDummy)).map (·.session)

def notices (sessions : List Nat) (room : Nat) (status : TransferPoll) : List Notice :=
  (sessions.filter fun session => (s.routeOf session).isSome).map fun session => ⟨session, room, status⟩

def clear : PrefillState :=
  { s with
    rooms := s.rooms.remove room
    tracked := Function.update s.tracked room false
    unclaimed := Function.update s.unclaimed room none
    destinations := Function.update s.destinations room [] }

def abortRoom (reason : String) (now : Nat) : List Notice × PrefillState :=
  let failed := { s with rooms := (s.rooms.recordFailure room reason).update room .failed }.touch room now
  (s.notices (s.waiting room) room .failed, { failed with destinations := Function.update failed.destinations room [] })

def roomsOf (rooms : List Nat) : List Nat :=
  rooms.filter fun room => (s.destinations room).any (·.session = session)

def abortRooms (reason : String) (now : Nat) : PrefillState → List Nat → List Notice × PrefillState
  | s, [] => ([], s)
  | s, room :: rooms =>
    let (sent, s) := s.abortRoom room reason now
    let (more, s) := abortRooms reason now s rooms
    (sent ++ more, s)

/-- `reject_session`; `rooms` lists the rooms that hold destinations. -/
def rejectSession (route : String × Nat) (reason : String) (rooms : List Nat) (now : Nat) :
    List Notice × PrefillState :=
  let (sent, s) := abortRooms ("Decode session " ++ toString session ++ " registration rejected: " ++ reason) now s
    (s.roomsOf session rooms)
  (sent, { s with
    registrations := Function.update s.registrations session none
    rejected := Function.update s.rejected session (some route) })

/-- `handle_registration` of a registration that was planned. -/
def handleRegistration (registration : Registration) (rooms : List Nat) (now : Nat) : List Notice × PrefillState :=
  if (s.registrations session).any (· ≠ registration) then
    s.rejectSession session (registration.endpoint, registration.port)
      "conflicting registration for an active CachePD session" rooms now
  else
    ([], { s with
      rejected := Function.update s.rejected session none
      registrations := Function.update s.registrations session (some registration) })

def validateFanout (destinations : List Destination) : Except String Unit :=
  match destinations.mapM fun d => s.registrations d.session with
  | none => .error "CachePD request references an unregistered Decode session"
  | some registrations =>
    match registrations with
    | [] => .error "Cache-transfer room has inconsistent TP metadata"
    | first :: _ =>
      if registrations.any fun r => r.decodeTpSize ≠ first.decodeTpSize ∨
        r.expectedDecodeRanks ≠ first.expectedDecodeRanks then
        .error "Cache-transfer room has inconsistent TP metadata"
      else if destinations.length ≠ first.expectedDecodeRanks.card ∨
          (registrations.map (·.decodeTpRank)).toFinset ≠ first.expectedDecodeRanks then
        .error "Cache-transfer room destination ranks disagree with the typed route plan"
      else .ok ()

inductive Preallocated where
  | accepted (s : PrefillState)
  | failed
  | rejected (reason : String)

/-- `accept_preallocation`; `isDummy` says whether the message carries no manifest, and `invalid` why its
frames or its manifest do not validate. -/
def acceptPreallocation (isDummy : Bool) (invalid : Option String) (now : Nat) : Preallocated :=
  match s.registrations session with
  | none => .rejected "CachePD request references an unregistered Decode session"
  | some registration =>
    if s.rooms.get room = some .failed then .failed
    else if isDummy ≠ registration.isDummy then .rejected "CachePD request kind disagrees with its registration"
    else match invalid with
      | some reason => .rejected reason
      | none =>
        if (s.destinations room).any (·.session = session) then
          .rejected "duplicate CachePD pre-allocation for Decode session"
        else
          let destinations := s.destinations room ++ [⟨session, isDummy⟩]
          if registration.expectedDecodeRanks.card < destinations.length then
            .rejected "pre-allocation exceeds destination fanout"
          else
            let complete := destinations.length = registration.expectedDecodeRanks.card
            match if complete then s.validateFanout destinations else .ok () with
            | .error reason => .rejected reason
            | .ok () =>
              let held := { s with destinations := Function.update s.destinations room destinations }.touch room now
              .accepted (if complete then { held with rooms := held.rooms.update room .bootstrapped } else held)

/-- The second half of `report_success`. -/
def reported : PrefillState :=
  { s with rooms := s.rooms.update room .success, destinations := Function.update s.destinations room [] }

/-- The branch of `transfer_full` for a room with a dummy destination. -/
def joined : PrefillState :=
  if (s.rooms.get room).isSome then s.reported room else s

/-- One room of `take_unclaimed`. -/
def expireRoom : List Notice :=
  if s.rooms.get room = some .failed then [] else s.notices (s.waiting room) room .failed

end PrefillState

structure Sender where
  room : Nat
  started : Nat
  localPoll : TransferPoll := .bootstrapping
  concluded : Option TransferPoll := none
  deriving DecidableEq, Repr

/-- `PrefillPeer` with the state it shares. -/
structure PrefillPeer where
  state : PrefillState := {}
  order : List Nat := []
  senders : Nat → Option Sender := fun _ => none
  bootstrapTimeout : Nat

namespace PrefillPeer

variable (p : PrefillPeer)

def register (rid room now : Nat) : PrefillPeer :=
  { p with
    state := { p.state with
      rooms := p.state.rooms.update room .bootstrapping
      unclaimed := Function.update p.state.unclaimed room none
      tracked := Function.update p.state.tracked room true
      roomsByRid := Function.update p.state.roomsByRid rid (some room) }
    senders := Function.update p.senders rid (some { room := room, started := now })
    order := if (p.senders rid).isSome then p.order else p.order ++ [rid] }

def observe (sender : Sender) (now : Nat) : TransferPoll × Option TransferPoll :=
  match (p.state.rooms.get sender.room).getD .failed with
  | .success => (.success, some .success)
  | .failed => (.failed, some .failed)
  | .bootstrapping =>
    if p.bootstrapTimeout ≤ now - sender.started then (.failed, some .failed) else (.bootstrapping, none)
  | status => (status, none)

/-- Nothing ends a sender on this member: it has not concluded, and its room goes on within the bootstrap
timeout. -/
def undecided (sender : Sender) (now : Nat) : Bool :=
  sender.concluded.isNone && match p.state.rooms.get sender.room with
    | none | some .failed | some .success => false
    | some .bootstrapping => decide (now - sender.started < p.bootstrapTimeout)
    | some _ => true

def pollOne (now : Nat) (p : PrefillPeer) (rid : Nat) : TransferPoll × PrefillPeer :=
  match p.senders rid with
  | none => (.failed, p)
  | some sender =>
    match sender.concluded with
    | some poll => (poll, p)
    | none =>
      let (poll, concluded) := p.observe sender now
      let rooms :=
        if p.state.rooms.get sender.room = some .bootstrapping ∧ poll = .failed then
          p.state.rooms.recordFailure sender.room
            ("Request " ++ toString sender.room ++ " timed out in TransferPoll.Bootstrapping")
        else p.state.rooms
      (poll, { p with
        state := { p.state with rooms := rooms }
        senders := Function.update p.senders rid (some { sender with concluded := concluded }) })

def polls (now : Nat) : PrefillPeer → List Nat → List TransferPoll × PrefillPeer
  | p, [] => ([], p)
  | p, rid :: rids =>
    let (poll, p) := pollOne now p rid
    let (rest, p) := polls now p rids
    (poll :: rest, p)

def conclude (p : PrefillPeer) (rid agreed : Nat) : Bool × PrefillPeer :=
  match p.senders rid with
  | none => (false, p)
  | some sender =>
    let poll := (TransferPoll.fromWire agreed).getD .failed
    if sender.localPoll = .bootstrapping ∧ poll = .bootstrapped then
      (false, { p with senders := Function.update p.senders rid (some { sender with localPoll := .bootstrapped }) })
    else if poll = .failed then (true, p)
    else if sender.localPoll = .bootstrapped ∧ poll = .success then
      (true, { p with senders := Function.update p.senders rid (some { sender with localPoll := .success }) })
    else (false, p)

def concludeAll : PrefillPeer → List (Nat × Nat) → List Nat × PrefillPeer
  | p, [] => ([], p)
  | p, (rid, agreed) :: rest =>
    let (ends, p) := conclude p rid agreed
    let (ended, p) := concludeAll p rest
    ((if ends then [rid] else []) ++ ended, p)

/-- The part of `poll` before the ended requests are forgotten, and those requests. -/
def polled (now : Nat) (others : List Nat) : List Nat × PrefillPeer :=
  let (own, polled) := polls now p p.order
  concludeAll polled (p.order.zip (List.zipWith min (own.map (·.toWire)) others))

def roomsOfRids (rids : List Nat) : List Nat := rids.filterMap fun rid => (p.senders rid).map (·.room)

def forget (rid : Nat) : PrefillPeer :=
  match p.senders rid with
  | none => p
  | some sender =>
    let state := p.state.clear sender.room
    { p with
      senders := Function.update p.senders rid none
      order := p.order.filter (· ≠ rid)
      state := { state with roomsByRid := Function.update state.roomsByRid rid none } }

end PrefillPeer

/-! ## Runs -/

inductive PrefillEvent where
  | registration (session : Nat) (registration : Registration) (rooms : List Nat) (now : Nat)
  /-- a registration that does not plan -/
  | badRegistration (session : Nat) (route : String × Nat) (reason : String) (rooms : List Nat) (now : Nat)
  | preallocation (room session : Nat) (isDummy : Bool) (invalid : Option String) (now : Nat)
  /-- `abort_room` of a failed transfer or of a request the loop aborts -/
  | abort (room : Nat) (reason : String) (now : Nat)
  /-- a worker takes the destinations its transfer of a room goes to -/
  | transfer (room : Nat)
  /-- the transfer of a room with a dummy destination -/
  | join (room : Nat)
  /-- a worker has written a room and tells its destinations -/
  | report (room : Nat)
  /-- and marks the room done -/
  | reported (room : Nat)
  | expire (rooms : List Nat) (now ttl : Nat)
  | register (rid room now : Nat)
  | poll (now : Nat) (others : List Nat)

/-- A Prefill rank with its workers. Since a room was last cleared, `accepted` keeps the sessions whose
pre-allocations were accepted, dummies apart, and `told` the terminal messages sent. -/
structure PrefillRun where
  peer : PrefillPeer
  transferring : Nat → List Nat := fun _ => []
  reporting : Nat → Bool := fun _ => false
  accepted : Nat → List Nat := fun _ => []
  told : Nat → List Notice := fun _ => []

/-- What an event comes to: the rooms whose destinations it drops, the run when it drops them and after it. -/
structure PrefillRun.Outcome where
  dropped : List Nat := []
  atDrop : PrefillRun
  after : PrefillRun

namespace PrefillRun

variable (h : PrefillRun)

def start (bootstrapTimeout : Nat) : PrefillRun := { peer := { bootstrapTimeout := bootstrapTimeout } }

def update (state : PrefillState) (sent : List Notice) : PrefillRun :=
  { h with
    peer := { h.peer with state := state }
    told := fun room => h.told room ++ sent.filter (·.room = room) }

def plain : Outcome := { atDrop := h, after := h }

def dropping (rooms : List Nat) : Outcome := { dropped := rooms, atDrop := h, after := h }

def forgetRooms (rooms : List Nat) : PrefillRun :=
  { h with
    accepted := fun room => if room ∈ rooms then [] else h.accepted room
    told := fun room => if room ∈ rooms then [] else h.told room }

def preallocate (room session : Nat) (isDummy : Bool) (invalid : Option String) (now : Nat) : Outcome :=
  match h.peer.state.acceptPreallocation room session isDummy invalid now with
  | .accepted state =>
    plain { h.update state [] with
      accepted := Function.update h.accepted room (h.accepted room ++ if isDummy then [] else [session]) }
  | .failed => plain (h.update h.peer.state (h.peer.state.notices [session] room .failed))
  | .rejected reason =>
    let (sent, state) := h.peer.state.abortRoom room ("invalid pre-allocation metadata: " ++ reason) now
    let aborted := h.update state sent
    { dropped := [room], atDrop := aborted, after := aborted.update state (state.notices [session] room .failed) }

def step : PrefillEvent → Option Outcome
  | .registration session registration rooms now =>
    let (sent, state) := h.peer.state.handleRegistration session registration rooms now
    let dropped :=
      if (h.peer.state.registrations session).any (· ≠ registration) then h.peer.state.roomsOf session rooms else []
    some ((h.update state sent).dropping dropped)
  | .badRegistration session route reason rooms now =>
    let (sent, state) := h.peer.state.rejectSession session route reason rooms now
    some ((h.update state sent).dropping (h.peer.state.roomsOf session rooms))
  | .preallocation room session isDummy invalid now => some (h.preallocate room session isDummy invalid now)
  | .abort room reason now =>
    let (sent, state) := h.peer.state.abortRoom room reason now
    some ((h.update state sent).dropping [room])
  | .transfer room =>
    some (plain { h with transferring := Function.update h.transferring room (h.peer.state.waiting room) })
  | .join room =>
    if (h.peer.state.destinations room).any (·.isDummy) then some (plain (h.update (h.peer.state.joined room) []))
    else none
  | .report room =>
    if h.peer.state.ended room then some h.plain
    else some (plain { h.update h.peer.state ((h.transferring room).map fun session => ⟨session, room, .success⟩) with
      reporting := Function.update h.reporting room true })
  | .reported room =>
    if h.reporting room then
      let done := { h.update (h.peer.state.reported room) [] with reporting := Function.update h.reporting room false }
      some (done.dropping [room])
    else none
  | .expire rooms now ttl =>
    if rooms.Nodup ∧ ∀ room ∈ rooms, (h.peer.state.unclaimed room).any fun since => ttl ≤ now - since then
      let told := h.update h.peer.state (rooms.flatMap h.peer.state.expireRoom)
      some {
        dropped := rooms
        atDrop := told
        after := (told.update (rooms.foldl PrefillState.clear h.peer.state) []).forgetRooms rooms }
    else none
  | .register rid room now => some (plain { h with peer := h.peer.register rid room now })
  | .poll now others =>
    let (ended, peer) := h.peer.polled now others
    let rooms := peer.roomsOfRids ended
    some {
      dropped := rooms
      atDrop := { h with peer := peer }
      after := { h with peer := ended.foldl PrefillPeer.forget peer }.forgetRooms rooms }

/-! ## What is asked of a drop -/

def timesTold (told : List Notice) (session : Nat) : Nat := (told.map (·.session)).count session

def Told (room : Nat) : Prop :=
  ∀ session ∈ h.accepted room, (h.peer.state.routeOf session).isSome → timesTold (h.told room) session = 1

/-- A session pre-allocates a room once, a poll finds no room ended, timed out or failed by another member while
a destination waits for it, a transfer reports to the destinations the room has, and nothing else ends a room
between the two halves of a report. -/
def Orderly : PrefillEvent → Prop
  | .registration session _ rooms _ => ∀ room ∈ h.peer.state.roomsOf session rooms, h.reporting room = false
  | .badRegistration session _ _ rooms _ => ∀ room ∈ h.peer.state.roomsOf session rooms, h.reporting room = false
  | .preallocation room session _ _ _ => session ∉ h.accepted room ∧ h.reporting room = false
  | .abort room _ _ => h.reporting room = false
  | .transfer _ => True
  | .join room => h.peer.state.waiting room = []
  | .report room => h.transferring room = h.peer.state.waiting room ∧ h.reporting room = false
  | .reported _ => True
  | .expire rooms _ _ => ∀ room ∈ rooms, h.reporting room = false
  | .register .. => True
  | .poll now others =>
    ∀ rid ∈ h.peer.order, ∀ sender ∈ h.peer.senders rid, h.peer.state.waiting sender.room ≠ [] →
      h.peer.undecided sender now = true ∧ (rid, TransferPoll.failed.toWire) ∉ h.peer.order.zip others

def Step (h h' : PrefillRun) : Prop :=
  ∃ event outcome, h.Orderly event ∧ h.step event = some outcome ∧ outcome.after = h'

instance (event : PrefillEvent) : Decidable (h.Orderly event) :=
  match event with
  | .registration .. | .badRegistration .. | .expire .. => inferInstanceAs (Decidable (∀ room ∈ _, _ = _))
  | .poll .. => inferInstanceAs (Decidable (∀ rid ∈ _, ∀ sender ∈ _, _ ≠ _ → _ = _ ∧ _ ∉ _))
  | .preallocation .. | .report _ => inferInstanceAs (Decidable (_ ∧ _ = _))
  | .abort .. | .join _ => inferInstanceAs (Decidable (_ = _))
  | .transfer _ | .reported _ | .register .. => .isTrue trivial

def run : PrefillRun → List PrefillEvent → Option PrefillRun
  | h, [] => some h
  | h, event :: events =>
    if h.Orderly event then (h.step event).bind fun outcome => run outcome.after events else none

end PrefillRun

end TokenSpeed.Transfer

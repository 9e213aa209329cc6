import TokenSpeed.Transfer.Status
import Mathlib.Data.Finset.Card

/-!
# A Decode rank's transfers

`State` and `DecodePeer` of `ts-pd/src/decode.rs` on one member of a replica. The connect thread, the
status thread, the heartbeat and the scheduling loop each take the lock for one of the events below. What
the member sends on its sockets and the routes it caches are left out.
-/

namespace TokenSpeed.Transfer

open Function

structure Landed where
  bootstrapToken : Option Int := none
  specCandidateIds : Option (List Token) := none
  bootstrapLogprob : Option (BitVec 64) := none
  deriving DecidableEq, Repr

structure DecodeState where
  rooms : RoomTable := {}
  tracked : Nat → Bool := fun _ => false
  roomsByRid : Nat → Option Nat := fun _ => none
  expected : Nat → Option (Finset Int) := fun _ => none
  responses : Nat → Finset Int := fun _ => ∅
  pending : Nat → Option Landed := fun _ => none
  landed : Nat → Option Landed := fun _ => none
  cachedTokens : Nat → Option Int := fun _ => none
  admissions : Nat → Option Int := fun _ => none
  waitingSince : Nat → Option Nat := fun _ => none
  addrRooms : String → List Nat := fun _ => []

namespace DecodeState

variable (s : DecodeState)

variable (room : Nat) (addr : String)

def fail (reason : String) : DecodeState :=
  if s.tracked room then { s with rooms := (s.rooms.recordFailure room reason).update room .failed } else s

def firstToken (token : Int) : Option (Option Int) :=
  if token = -1 then some none else if 0 ≤ token ∧ token < 2 ^ 31 then some (some token) else none

def collect (pending : Landed) (token : Option Int) (message : StatusMessage) : Landed where
  bootstrapToken := pending.bootstrapToken.or token
  specCandidateIds := pending.specCandidateIds.or message.specCandidateIds
  bootstrapLogprob := pending.bootstrapLogprob.or message.bootstrapLogprob

def land (payload : Landed) : DecodeState :=
  let s := { s with pending := update s.pending room none }
  if payload.bootstrapToken.isNone then
    s.fail room "Every Prefill rank reported the KV landed without the request's first token"
  else { s with landed := update s.landed room (some payload), rooms := s.rooms.update room .success }

def complete (expected : Finset Int) (message : StatusMessage) : DecodeState :=
  let room := message.room
  let arrived := insert message.prefillRank (s.responses room)
  let s := { s with
    responses := update s.responses room arrived
    cachedTokens := update s.cachedTokens room
      (some (max ((s.cachedTokens room).getD 0) message.cachedTokens)) }
  match firstToken message.bootstrapToken with
  | none => s.fail room ("Received KV completion with an invalid first token " ++ toString message.bootstrapToken)
  | some token =>
    let payload := collect ((s.pending room).getD {}) token message
    let s := { s with pending := update s.pending room (some payload) }
    if arrived.card < expected.card then s
    else if arrived ≠ expected then s.fail room "Prefill TP completion set disagrees with the transfer route"
    else s.land room payload

def apply (message : StatusMessage) : DecodeState :=
  let room := message.room
  if s.tracked room then
    match message.status with
    | .success =>
      match s.expected room with
      | none => s.fail room "Received KV completion before its transfer route was registered"
      | some expected =>
        if message.prefillRank ∈ expected then s.complete expected message
        else s.fail room "Received KV completion from an unexpected Prefill TP rank"
    | .failed => s.fail room "Failed to get kvcache from prefill instance, it might be dead"
    | status => { s with rooms := s.rooms.update room status }
  else s

/-- `attach`, with the ranks its route expects. -/
def attach (ranks : Finset Int) : DecodeState :=
  if s.tracked room then
    { s with
      expected := update s.expected room (some ranks)
      addrRooms := update s.addrRooms addr (room :: s.addrRooms addr)
      rooms := s.rooms.update room .bootstrapped }
  else s

def loseRoom (s : DecodeState) (room : Nat) : DecodeState :=
  if (s.rooms.get room).all (fun poll => poll = .success ∨ poll = .failed) ∨ s.rooms.hasFailure room then s
  else s.fail room ("Losing connection with prefill instance (bootstrap_addr: " ++ addr ++ ")")

def loseNode : DecodeState :=
  (s.addrRooms addr).foldl (loseRoom addr) { s with addrRooms := update s.addrRooms addr [] }

def prune : DecodeState :=
  { s with addrRooms := update s.addrRooms addr ((s.addrRooms addr).filter fun room => (s.rooms.get room).isSome) }

def clear : DecodeState :=
  { s with
    rooms := s.rooms.remove room
    tracked := update s.tracked room false
    expected := update s.expected room none
    responses := update s.responses room ∅
    pending := update s.pending room none
    landed := update s.landed room none
    cachedTokens := update s.cachedTokens room none
    admissions := update s.admissions room none
    waitingSince := update s.waitingSince room none
    addrRooms := update s.addrRooms addr ((s.addrRooms addr).filter (· ≠ room)) }

/-- The state's part of `receive`: the request's pages are admitted. -/
def receive (requestPoolIndex : Int) (now : Nat) : DecodeState :=
  if s.tracked room then
    { s with
      admissions := update s.admissions room (some requestPoolIndex)
      waitingSince := update s.waitingSince room (some now)
      rooms := s.rooms.update room .waitingForInput }
  else s

end DecodeState

structure Receiver where
  room : Nat
  addr : String
  localPoll : TransferPoll := .bootstrapping
  concluded : Option TransferPoll := none
  deriving DecidableEq, Repr

structure RemotePrefill where
  rid : Nat
  bootstrapToken : Int
  cachedTokens : Int
  bootstrapLogprob : Option (BitVec 64)
  specCandidateIds : Option (List Token)
  requestPoolIndex : Int
  deriving DecidableEq, Repr

/-- `PdEvent`, as a Decode rank emits it. -/
inductive PdEvent where
  | bootstrapped (rid : Nat)
  | failed (rid : Nat)
  | remotePrefillDone (done : RemotePrefill)
  deriving DecidableEq, Repr

/-- `DecodePeer` with the state it shares and the rooms its connect thread has still to connect. -/
structure DecodePeer where
  state : DecodeState := {}
  order : List Nat := []
  receivers : Nat → Option Receiver := fun _ => none
  connects : List (Nat × String) := []
  waitingTimeout : Nat

namespace DecodePeer

variable (p : DecodePeer)

def register (rid room : Nat) (addr : String) : DecodePeer :=
  { p with
    state := { p.state with
      tracked := update p.state.tracked room true
      roomsByRid := update p.state.roomsByRid rid (some room)
      rooms := p.state.rooms.update room .bootstrapping }
    receivers := update p.receivers rid (some { room := room, addr := addr })
    order := if (p.receivers rid).isSome then p.order else p.order ++ [rid]
    connects := p.connects ++ [(room, addr)] }

def forget (rid : Nat) : DecodePeer :=
  match p.receivers rid with
  | none => p
  | some receiver =>
    let state := p.state.clear receiver.room receiver.addr
    { p with
      receivers := update p.receivers rid none
      order := p.order.filter (· ≠ rid)
      state := { state with roomsByRid := update state.roomsByRid rid none } }

def observe (receiver : Receiver) (now : Nat) : TransferPoll × Option TransferPoll :=
  match (p.state.rooms.get receiver.room).getD .failed with
  | .success => (.success, some .success)
  | .failed => (.failed, some .failed)
  | .waitingForInput =>
    match p.state.waitingSince receiver.room with
    | some since => if p.waitingTimeout ≤ now - since then (.failed, some .failed) else (.waitingForInput, none)
    | none => (.waitingForInput, none)
  | status => (status, none)

/-- Nothing fails a receiver on this member: it did not conclude so, and its room goes on within the waiting
timeout. -/
def goesOn (receiver : Receiver) (now : Nat) : Bool :=
  match receiver.concluded, p.state.rooms.get receiver.room with
  | some poll, _ => decide (poll ≠ .failed)
  | none, none | none, some .failed => false
  | none, some .waitingForInput =>
    (p.state.waitingSince receiver.room).all fun since => decide (now - since < p.waitingTimeout)
  | none, some _ => true

def timesOut (receiver : Receiver) (now : Nat) : Bool :=
  decide (p.state.rooms.get receiver.room = some .waitingForInput) && decide ((p.observe receiver now).1 = .failed)

def pollOne (now : Nat) (p : DecodePeer) (rid : Nat) : TransferPoll × DecodePeer :=
  match p.receivers rid with
  | none => (.failed, p)
  | some receiver =>
    match receiver.concluded with
    | some poll => (poll, p)
    | none =>
      let (poll, concluded) := p.observe receiver now
      let rooms :=
        if p.timesOut receiver now then
          p.state.rooms.recordFailure receiver.room
            ("Request " ++ toString receiver.room ++ " timed out in TransferPoll.WaitingForInput")
        else p.state.rooms
      (poll, { p with
        state := { p.state with rooms := rooms }
        receivers := update p.receivers rid (some { receiver with concluded := concluded }) })

def polls (now : Nat) : DecodePeer → List Nat → List TransferPoll × DecodePeer
  | p, [] => ([], p)
  | p, rid :: rids =>
    let (poll, p) := pollOne now p rid
    let (rest, p) := polls now p rids
    (poll :: rest, p)

def takeLanded (rid : Nat) (receiver : Receiver) : Except String (PdEvent × DecodePeer) :=
  let room := receiver.room
  let payload := (p.state.landed room).getD {}
  let cachedTokens := (p.state.cachedTokens room).getD 0
  match p.state.admissions room, payload.bootstrapToken with
  | none, _ => .error (toString rid ++ "'s KV landed before its pages were admitted")
  | some _, none => .error (toString rid ++ "'s KV landed without its first token")
  | some requestPoolIndex, some token =>
    .ok (.remotePrefillDone
        { rid := rid
          bootstrapToken := token
          cachedTokens := cachedTokens
          bootstrapLogprob := payload.bootstrapLogprob
          specCandidateIds := payload.specCandidateIds
          requestPoolIndex := requestPoolIndex },
      { p with
        receivers := update p.receivers rid (some { receiver with localPoll := .success })
        state := { p.state with
          landed := update p.state.landed room none
          cachedTokens := update p.state.cachedTokens room none } })

def conclude (p : DecodePeer) (rid agreed : Nat) : Except String (List PdEvent × Bool × DecodePeer) :=
  match p.receivers rid with
  | none => .ok ([], false, p)
  | some receiver =>
    let poll := (TransferPoll.fromWire agreed).getD .failed
    if receiver.localPoll = .bootstrapping ∧ poll = .bootstrapped then
      .ok ([.bootstrapped rid], false,
        { p with receivers := update p.receivers rid (some { receiver with localPoll := .bootstrapped }) })
    else if poll = .failed then .ok ([.failed rid], true, p)
    else if receiver.localPoll = .bootstrapped ∧ poll = .success then do
      let (event, p) ← p.takeLanded rid receiver
      pure ([event], true, p)
    else .ok ([], false, p)

def concludeAll : DecodePeer → List (Nat × Nat) → Except String (List PdEvent × List Nat × DecodePeer)
  | p, [] => .ok ([], [], p)
  | p, (rid, agreed) :: rest => do
    let (events, ends, p) ← conclude p rid agreed
    let (more, ended, p) ← concludeAll p rest
    pure (events ++ more, (if ends then [rid] else []) ++ ended, p)

/-- `poll`; `others` holds the smallest poll of the other members for each tracked request. -/
def poll (now : Nat) (others : List Nat) : Except String (List PdEvent × DecodePeer) := do
  let (own, polled) := polls now p p.order
  let agreed := List.zipWith min (own.map (·.toWire)) others
  let (events, ended, p) ← concludeAll polled (p.order.zip agreed)
  pure (events, ended.foldl forget p)

end DecodePeer

/-! ## Runs -/

inductive DecodeEvent where
  | register (rid room : Nat) (addr : String)
  /-- the connect thread reaches its next room and attaches it to a route that expects these ranks -/
  | connected (ranks : Finset Int)
  | connectFailed (reason : String)
  | status (message : StatusMessage)
  | loseNode (addr : String)
  | prune (addr : String)
  | receive (room : Nat) (requestPoolIndex : Int) (now : Nat)
  | poll (now : Nat) (others : List Nat)

structure DecodeRun where
  peer : DecodePeer
  used : Nat → Bool := fun _ => false
  heard : Nat → List StatusMessage := fun _ => []

namespace DecodeRun

variable (h : DecodeRun)

def start (waitingTimeout : Nat) : DecodeRun := { peer := { waitingTimeout := waitingTimeout } }

def setState (state : DecodeState) : DecodeRun := { h with peer := { h.peer with state := state } }

def step : DecodeEvent → Option (List PdEvent × DecodeRun)
  | .register rid room addr =>
    some ([], { h with
      peer := h.peer.register rid room addr
      used := update h.used room true
      heard := update h.heard room [] })
  | .connected ranks =>
    match h.peer.connects with
    | [] => none
    | (room, addr) :: rest =>
      some ([], { h with peer := { h.peer with connects := rest, state := h.peer.state.attach room addr ranks } })
  | .connectFailed reason =>
    match h.peer.connects with
    | [] => none
    | (room, _) :: rest =>
      some ([], { h with peer := { h.peer with connects := rest, state := h.peer.state.fail room reason } })
  | .status message =>
    some ([], { h.setState (h.peer.state.apply message) with
      heard := update h.heard message.room (h.heard message.room ++ [message]) })
  | .loseNode addr => some ([], h.setState (h.peer.state.loseNode addr))
  | .prune addr => some ([], h.setState (h.peer.state.prune addr))
  | .receive room requestPoolIndex now => some ([], h.setState (h.peer.state.receive room requestPoolIndex now))
  | .poll now others =>
    match h.peer.poll now others with
    | .ok (events, peer) => some (events, { h with peer := peer })
    | .error _ => none

/-- A room is registered once, and a room that landed gets no further completion without a first token. -/
def Sound : DecodeEvent → Prop
  | .register _ room _ => h.used room = false
  | .status message =>
    message.status = .success → message.bootstrapToken = -1 → h.peer.state.rooms.get message.room ≠ some .success
  | _ => True

def Step (h h' : DecodeRun) : Prop := ∃ event out, h.Sound event ∧ h.step event = some (out, h')

instance (event : DecodeEvent) : Decidable (h.Sound event) :=
  match event with
  | .register .. => inferInstanceAs (Decidable (_ = _))
  | .status _ => inferInstanceAs (Decidable (_ → _ → _ ≠ _))
  | .connected _ | .connectFailed _ | .loseNode _ | .prune _ | .receive .. | .poll .. => .isTrue trivial

def run : DecodeRun → List DecodeEvent → Option DecodeRun
  | h, [] => some h
  | h, event :: events =>
    if h.Sound event then (h.step event).bind fun next => run next.2 events else none

end DecodeRun

end TokenSpeed.Transfer

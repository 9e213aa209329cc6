import TokenSpeed.Transfer.Decode

/-!
# The copies of a transfer

A Decode rank with the Prefill ranks that serve it: pre-allocations travel one way and terminal statuses
the other, over a lossless FIFO channel per Prefill rank, while the transfer workers of `ts-pd/src/prefill.rs`
(`run_worker`, `transfer_layerwise`, `transfer_full`) write to the Decode rank's pages. A Prefill rank is seen
from this Decode rank alone, one room at a time. A chunk is the number of writes it takes.
-/

namespace TokenSpeed.Transfer

open Function

/-- `Chunk`: the writes it still takes, and whether the room is done after it. -/
structure Chunk where
  writes : Nat
  isLast : Bool
  deriving DecidableEq, Repr

structure RoomWork where
  /-- the Decode rank is among the room's destinations -/
  destination : Bool := false
  /-- the room is in the rank's table -/
  known : Bool := false
  /-- and has failed -/
  failed : Bool := false
  queue : List Chunk := []
  /-- the chunk a worker has taken -/
  current : Option Chunk := none
  /-- a write of it is under way -/
  writing : Bool := false
  /-- success was sent and the room is not marked yet -/
  reporting : Bool := false
  /-- the room's last chunk was queued -/
  closed : Bool := false
  deriving DecidableEq

inductive WorkEvent where
  /-- the loop registers the room's request -/
  | register
  /-- a pre-allocation arrives; `valid` says whether its metadata passes, `complete` whether it is the room's last -/
  | preallocation (valid complete : Bool)
  | enqueue (chunk : Chunk)
  /-- a worker takes the next chunk -/
  | take
  | issue
  | complete
  /-- the chunk in the worker is sent and another one follows -/
  | sent
  /-- the last chunk is sent: `report_success` -/
  | report (token : Int)
  | reported
  /-- the chunk in the worker fails -/
  | giveUp
  /-- `abort_room` of another thread -/
  | abort
  /-- the loop forgets the room, or its bootstrap times out -/
  | drop
  /-- nobody claimed the room in time -/
  | expire
  deriving DecidableEq

abbrev Sent := List (TransferPoll × Int)

namespace RoomWork

variable (w : RoomWork)

def ended : Bool := w.failed || !w.known

/-- `abort_room`: the destinations are told and dropped. -/
def abortRoom : Sent × RoomWork :=
  (if w.destination then [(.failed, -1)] else [], { w with known := true, failed := true, destination := false })

def clear : RoomWork := { w with known := false, failed := false, destination := false }

def step : WorkEvent → Option (Sent × RoomWork)
  | .register => some ([], { w with known := true })
  | .preallocation valid complete =>
    -- a room that was cleared is not refused, only one that failed
    if w.failed then some ([(.failed, -1)], w)
    else if valid && !w.destination then some ([], { w with destination := true, known := w.known || complete })
    else
      let (sent, w) := w.abortRoom
      some (sent ++ [(.failed, -1)], w)
  | .enqueue chunk =>
    if w.ended || !w.destination then some ([], w)
    else some ([], { w with queue := w.queue ++ [chunk], closed := w.closed || chunk.isLast })
  | .take =>
    match w.current, w.queue with
    | none, chunk :: rest =>
      let taken := { w with queue := rest }
      if w.destination then some ([], { taken with current := some chunk })
      -- the room has no destinations
      else if w.ended then some ([], taken)
      else some taken.abortRoom
    | _, _ => none
  | .issue =>
    match w.current with
    | some chunk => if !w.writing && decide (0 < chunk.writes) then some ([], { w with writing := true }) else none
    | none => none
  | .complete =>
    match w.current with
    | some chunk =>
      if w.writing then some ([],
        { w with writing := false, current := some { chunk with writes := chunk.writes - 1 } })
      else none
    | none => none
  | .sent =>
    match w.current with
    | some chunk =>
      if !w.writing && decide (chunk.writes = 0) && !chunk.isLast then some ([], { w with current := none }) else none
    | none => none
  | .report token =>
    match w.current with
    | some chunk =>
      if !w.writing && decide (chunk.writes = 0) && chunk.isLast then
        if w.ended then some ([], { w with current := none })
        else some ([(.success, token)], { w with current := none, reporting := true })
      else none
    | none => none
  | .reported =>
    if w.reporting then some ([], { w with reporting := false, known := true, destination := false }) else none
  | .giveUp =>
    match w.current with
    | some _ =>
      if w.writing then none
      else if w.ended then some ([], { w with current := none })
      else some { w with current := none }.abortRoom
    | none => none
  | .abort => some w.abortRoom
  | .drop => some ([], w.clear)
  | .expire => some (if w.destination && !w.failed then [(.failed, -1)] else [], w.clear)

end RoomWork

/-! ## The Decode rank and its Prefill ranks -/

def PdEvent.ends : PdEvent → Option Nat
  | .bootstrapped _ => none
  | .failed rid => some rid
  | .remotePrefillDone done => some done.rid

structure Pair where
  /-- the Prefill ranks that write to the Decode rank for a room, as both sides plan them -/
  route : Nat → Finset Int
  decode : DecodeRun
  works : Int → Nat → RoomWork := fun _ _ => {}
  statuses : Int → List StatusMessage := fun _ => []
  preallocations : Int → List Nat := fun _ => []
  /-- the rooms admitted whose pre-allocations are still to be sent -/
  admitted : List Nat := []
  /-- the rooms admitted so far -/
  named : Nat → Bool := fun _ => false
  /-- the rooms of the requests that ended on the Decode rank -/
  released : Nat → Bool := fun _ => false

inductive PairEvent where
  | register (rid room : Nat) (addr : String)
  | connected
  | connectFailed (reason : String)
  | loseNode (addr : String)
  | prune (addr : String)
  | receive (room : Nat) (requestPoolIndex : Int) (now : Nat)
  /-- the pre-allocations of an admitted room go out -/
  | preallocate
  | poll (now : Nat) (others : List Nat)
  /-- the next status of a Prefill rank arrives -/
  | status (rank : Int)
  /-- the next pre-allocation of a Prefill rank arrives -/
  | preallocation (rank : Int) (valid complete : Bool)
  | work (rank : Int) (room : Nat) (event : WorkEvent)

namespace Pair

variable (h : Pair)

def start (route : Nat → Finset Int) (waitingTimeout : Nat) : Pair :=
  { route := route, decode := DecodeRun.start waitingTimeout }

def message (rank : Int) (room : Nat) (sent : TransferPoll × Int) : StatusMessage :=
  { room := room, status := sent.1, prefillRank := rank, bootstrapToken := sent.2 }

def workStep (rank : Int) (room : Nat) (event : WorkEvent) : Option Pair :=
  (h.works rank room).step event |>.map fun (sent, w) =>
    { h with
      works := update h.works rank (update (h.works rank) room w)
      statuses := update h.statuses rank (h.statuses rank ++ sent.map (message rank room)) }

def decodeStep (event : DecodeEvent) : Option Pair := (h.decode.step event).map fun next => { h with decode := next.2 }

def endedRooms (out : List PdEvent) : List Nat :=
  out.filterMap fun event => event.ends.bind fun rid => (h.decode.peer.receivers rid).map (·.room)

/-- `receive`: a tracked room with a route is pre-allocated on the ranks of the route. -/
def admits (room : Nat) : Bool := h.decode.peer.state.tracked room && (h.decode.peer.state.expected room).isSome

def step : PairEvent → Option Pair
  | .register rid room addr => h.decodeStep (.register rid room addr)
  | .connected => h.decode.peer.connects.head?.bind fun next => h.decodeStep (.connected (h.route next.1))
  | .connectFailed reason => h.decodeStep (.connectFailed reason)
  | .loseNode addr => h.decodeStep (.loseNode addr)
  | .prune addr => h.decodeStep (.prune addr)
  | .receive room index now =>
    (h.decodeStep (.receive room index now)).map fun h' =>
      if h.admits room then { h' with admitted := h.admitted ++ [room], named := update h.named room true }
      else h'
  | .preallocate =>
    match h.admitted with
    | [] => none
    | room :: rest =>
      some { h with
        admitted := rest
        preallocations := fun rank => h.preallocations rank ++ if rank ∈ h.route room then [room] else [] }
  | .poll now others =>
    (h.decode.step (.poll now others)).map fun (out, decode) =>
      { h with decode := decode, released := fun room => h.released room || decide (room ∈ h.endedRooms out) }
  | .status rank =>
    match h.statuses rank with
    | [] => none
    | m :: rest => { h with statuses := update h.statuses rank rest }.decodeStep (.status m)
  | .preallocation rank valid complete =>
    match h.preallocations rank with
    | [] => none
    | room :: rest =>
      { h with preallocations := update h.preallocations rank rest }.workStep rank room (.preallocation valid complete)
  | .work _ _ (.preallocation ..) => none
  | .work rank room event => h.workStep rank room event

def Heard (room : Nat) : Prop := ∀ rank ∈ h.route room, ∃ m ∈ h.decode.heard room, m.prefillRank = rank

instance (room : Nat) : Decidable (h.Heard room) :=
  inferInstanceAs (Decidable (∀ rank ∈ h.route room, ∃ m ∈ h.decode.heard room, _))

/-- A room is registered and received once, nothing follows a room's last chunk, and a rank fails a room from
outside its worker only while the worker holds no chunk of it. A request whose pages were named to the Prefill
ranks is neither failed nor overdue at a poll, on this member or another, until all of them have answered. -/
def Orderly : PairEvent → Prop
  | .register _ room _ => h.decode.used room = false
  | .receive room _ _ => h.named room = false
  | .poll now others =>
    ∀ rid ∈ h.decode.peer.order, ∀ receiver ∈ h.decode.peer.receivers rid,
      h.named receiver.room = true → ¬ h.Heard receiver.room → h.decode.peer.goesOn receiver now = true ∧
        (rid, TransferPoll.failed.toWire) ∉ h.decode.peer.order.zip others
  | .work rank room (.enqueue _) => (h.works rank room).closed = false
  | .work rank room .abort | .work rank room .expire => (h.works rank room).current = none
  | _ => True

def Step (h h' : Pair) : Prop := ∃ event, h.Orderly event ∧ h.step event = some h'

instance (event : PairEvent) : Decidable (h.Orderly event) :=
  match event with
  | .register .. | .receive .. => inferInstanceAs (Decidable (_ = _))
  | .poll .. => inferInstanceAs (Decidable (∀ rid ∈ _, ∀ receiver ∈ _, _ = _ → ¬ h.Heard _ → _ = _ ∧ _ ∉ _))
  | .work _ _ (.enqueue _) | .work _ _ .abort | .work _ _ .expire => inferInstanceAs (Decidable (_ = _))
  | .work _ _ .register | .work _ _ (.preallocation ..) | .work _ _ .take | .work _ _ .issue | .work _ _ .complete
  | .work _ _ .sent | .work _ _ (.report _) | .work _ _ .reported | .work _ _ .giveUp | .work _ _ .drop =>
    .isTrue trivial
  | .connected | .connectFailed _ | .loseNode _ | .prune _ | .preallocate | .status _ | .preallocation .. =>
    .isTrue trivial

def steps : Pair → List PairEvent → Option Pair
  | h, [] => some h
  | h, event :: events => (h.step event).bind fun h' => steps h' events

def run : Pair → List PairEvent → Option Pair
  | h, [] => some h
  | h, event :: events => if h.Orderly event then (h.step event).bind fun h' => run h' events else none

end Pair

end TokenSpeed.Transfer

import TokenSpeed.Scheduler.Events

/-!
# The life of a request

The scheduler without its caches, its clock and its storage: the requests, the request-pool rows, the
blob slots and the transfers in flight. `Move` is what one step of any call may do to them. Its labels
are the rows scheduled and the rows reported. `may` says whether a request may be torn down while a
forward of its is out, and whether one may join.
-/

namespace TokenSpeed

def ResumeShape.kind : ResumeShape → StateKind
  | .prefilling _ _ => .prefilling
  | .prefillDone _ _ => .prefillDone
  | .decoding _ => .decoding

namespace RequestState

def row? (state : RequestState) : Option Nat := state.resources?.bind (·.reqPoolIndex)

def blob? : RequestState → Option Nat
  | .retracted image => some image.blobSlot
  | .restoring restore => some restore.blobSlot
  | _ => none

def forwardsOut (state : RequestState) : Nat := state.resources?.elim 0 (·.resultsInFlight)

def awaits : RequestState → Bool
  | .bootstrapping _ => true
  | .prefetching awaitsBootstrap _ _ => awaitsBootstrap
  | _ => false

def pendingOps : RequestState → List Nat
  | .retracted image => image.pendingStoreOps
  | _ => []

def resumesAs? : RequestState → Option StateKind
  | .retracted image => some image.shape.kind
  | .restoring restore => some restore.shape.kind
  | _ => none

end RequestState

namespace TierTransferManager

variable (m : TierTransferManager)

def addWriteBack (ticket : InFlightWriteBack) : TierTransferManager :=
  { m with writeBacks := m.writeBacks ++ [(m.nextOpId, ticket)], nextOpId := m.nextOpId + 1 }

def addLoadBack (pairs : List BlockTransfer) : TierTransferManager :=
  { m with loadBacks := m.loadBacks ++ [(m.nextOpId, pairs)], nextOpId := m.nextOpId + 1 }

def addSnapshotStore (ticket : InFlightSnapshotStore) : TierTransferManager :=
  { m with snapshotStores := m.snapshotStores ++ [(m.nextOpId, ticket)], nextOpId := m.nextOpId + 1 }

def addSnapshotRestore (ticket : InFlightSnapshotRestore) : TierTransferManager :=
  { m with snapshotRestores := m.snapshotRestores ++ [(m.nextOpId, ticket)], nextOpId := m.nextOpId + 1 }

end TierTransferManager

structure Core where
  config : EngineConfig
  requests : List Request
  rows : ReqPoolAllocator
  blobs : SharedSlots
  transfers : TierTransferManager
  maxSingleRequestTokens : Int

def Scheduler.core (s : Scheduler) : Core :=
  ⟨s.config, s.requests, s.reqPool, s.snapshotSlots, s.transfers, s.maxSingleRequestTokens⟩

namespace Core

variable (c : Core)

def find (id : Nat) : Option Request := c.requests.find? fun r => r.id == id

def setRequest (r : Request) : Core := { c with requests := c.requests.map fun x => if x.id == r.id then r else x }

def returnRow (row : Option Nat) : Core :=
  match row with
  | none => c
  | some slot => { c with rows := c.rows.deallocate slot }

def releaseBlob (blob : Option Nat) : Core :=
  match blob with
  | none => c
  | some slot => { c with blobs := c.blobs.release slot }

def setTransfers (transfers : TierTransferManager) : Core := { c with transfers := transfers }

def Unawaited (op : Nat) : Prop := ∀ r ∈ c.requests, op ∉ r.state.pendingOps

end Core

def StateKind.Follows : StateKind → StateKind → Prop
  | .prefilling, k => k ∈ [.prefilling, .prefillAwaitingResult, .prefillDone]
  | .remotePrefilling, k => k ∈ [.remotePrefilling, .prefillDone]
  | .prefillAwaitingResult, k => k ∈ [.prefillAwaitingResult, .prefillDone, .decoding, .finishing]
  | .prefillDone, k => k ∈ [.prefillDone, .decoding, .finishing]
  | .decoding, k => k ∈ [.decoding, .finishing]
  | .finishing, k => k = .finishing
  | _, _ => False

instance (k k' : StateKind) : Decidable (k.Follows k') := by
  cases k <;> simp only [StateKind.Follows] <;> infer_instance

inductive Local : RequestState → RequestState → Prop
  | refl (a : RequestState) : Local a a
  | waiting {a b : RequestState} (before : a.admission?.isSome) (after : b.admission?.isSome)
      (awaits : b.awaits = true → a.awaits = true) : Local a b
  | paged {a b : RequestState} {held held' : ForwardResources} (before : a.resources? = some held)
      (after : b.resources? = some held') (row : held'.reqPoolIndex = held.reqPoolIndex)
      (out : held'.resultsInFlight = held.resultsInFlight) (kind : a.kind.Follows b.kind) : Local a b

inductive Forward where
  | scheduled (id : Nat)
  | reported (id : Nat)
  deriving DecidableEq, Repr

/-- What a call may do beside: tear a request down while a forward of its is out, and submit requests. -/
structure May where
  tear : Prop
  join : Prop

def May.all : May := ⟨True, True⟩

inductive Move (may : May) : Core → List Forward → Core → Prop
  /-- A request moves on with what it has. -/
  | keep {c : Core} {r r' : Request} (find : c.find r.id = some r) (id : r'.id = r.id)
      (state : Local r.state r'.state) :
      Move may c [] (c.setRequest r')
  /-- A forward of a page-holding request joins the batch. -/
  | track {c : Core} {r : Request} {held : ForwardResources} (find : c.find r.id = some r)
      (holds : r.state.resources? = some held) :
      Move may c [.scheduled r.id] (c.setRequest (r.toState (r.state.withResources
        { held with resultsInFlight := held.resultsInFlight + 1 })))
  /-- A forward is reported. -/
  | report {c : Core} {r : Request} {held : ForwardResources} (find : c.find r.id = some r)
      (holds : r.state.resources? = some held) (out : 0 < held.resultsInFlight) :
      Move may c [.reported r.id] (c.setRequest (r.toState (r.state.withResources
        { held with resultsInFlight := held.resultsInFlight - 1 })))
  /-- A first chunk takes a row. -/
  | enter {c : Core} {r r' : Request} {held : ForwardResources} {row : Nat} {rest : List Nat}
      (find : c.find r.id = some r) (id : r'.id = r.id) (kind : r.state.kind = .submitted)
      (rows : c.rows.freeSlots = row :: rest) (holds : r'.state.resources? = some held)
      (owns : held.reqPoolIndex = some row) (out : held.resultsInFlight = 0)
      (kind' : r'.state.kind ∈ [.prefilling, .remotePrefilling, .prefillAwaitingResult, .prefillDone]) :
      Move may c [] ({ c with rows := { c.rows with freeSlots := rest } }.setRequest r')
  /-- A request ends and lets go of all it holds. -/
  | leave {c : Core} {r r' : Request} (find : c.find r.id = some r) (id : r'.id = r.id) (state : r'.state = .finished)
      (quiet : r.state.forwardsOut = 0 ∨ r.state.kind = .restoring ∨ may.tear) :
      Move may c [] (((c.releaseBlob r.state.blob?).returnRow r.state.row?).setRequest r')
  /-- A victim is imaged: its row returns, and its image shares a blob slot with the store. -/
  | retract {c : Core} {r r' : Request} {held : ForwardResources} {retracted : Retracted} {blob : Nat} {rest : List Nat}
      {destinations : List CacheBlockLocation}
      (find : c.find r.id = some r) (id : r'.id = r.id)
      (kind : r.state.kind ∈ [.prefilling, .prefillDone, .decoding]) (holds : r.state.resources? = some held)
      (out : held.resultsInFlight = 0) (blobs : c.blobs.slots.freeSlots = blob :: rest)
      (state : r'.state = .retracted retracted) (slot : retracted.blobSlot = blob)
      (resumes : r'.state.resumesAs? = some r.state.kind)
      (waits : ∀ op ∈ retracted.pendingStoreOps, op = c.transfers.nextOpId ∨ op ∈ c.transfers.writeBacks.map (·.1)) :
      Move may c [] ({ c.returnRow held.reqPoolIndex with
        blobs := ⟨{ c.blobs.slots with freeSlots := rest }, Function.update c.blobs.owners blob 2⟩
        transfers := c.transfers.addSnapshotStore ⟨r.id, destinations, blob⟩ }.setRequest r')
  /-- A victim that could not be imaged: the blob slot it was given returns. -/
  | spin {c : Core} {blob : Nat} {rest : List Nat} (blobs : c.blobs.slots.freeSlots = blob :: rest) :
      Move may c [] { c with blobs :=
        ⟨{ c.blobs.slots with freeSlots := rest ++ [blob] }, Function.update c.blobs.owners blob 0⟩ }
  /-- A suspended request notes that a store landed. -/
  | note {c : Core} {r r' : Request} {retracted : Retracted} {image : Nat → ImageTable} {op : Nat}
      (find : c.find r.id = some r) (id : r'.id = r.id) (state : r.state = .retracted retracted)
      (state' : r'.state = .retracted
        { retracted with image := image, pendingStoreOps := retracted.pendingStoreOps.filter (· != op) }) :
      Move may c [] (c.setRequest r')
  /-- A landed image is read back into fresh pages: the restore owns a row and shares the blob slot. -/
  | restore {c : Core} {r r' : Request} {retracted : Retracted} {restoring : Restoring} {row : Nat} {rest : List Nat}
      {loads snapshots : List BlockTransfer} (find : c.find r.id = some r) (id : r'.id = r.id)
      (state : r.state = .retracted retracted) (lands : retracted.pendingStoreOps = [])
      (rows : c.rows.freeSlots = row :: rest) (state' : r'.state = .restoring restoring)
      (slot : restoring.blobSlot = retracted.blobSlot) (shape : restoring.shape = retracted.shape)
      (op : restoring.restoreOp = c.transfers.nextOpId) (owns : restoring.resources.reqPoolIndex = none)
      (out : restoring.resources.resultsInFlight = 0) :
      Move may c [] ({ c with
        rows := { c.rows with freeSlots := rest }
        blobs := c.blobs.share retracted.blobSlot
        transfers := c.transfers.addSnapshotRestore ⟨r.id, loads, snapshots, retracted.blobSlot, row⟩ }.setRequest r')
  /-- A restore lands: its request resumes in the row the ticket owned. -/
  | resume {c : Core} {r r' : Request} {restoring : Restoring} {ticket : InFlightSnapshotRestore}
      {held : ForwardResources} (find : c.find r.id = some r) (id : r'.id = r.id)
      (state : r.state = .restoring restoring)
      (issued : findOp c.transfers.snapshotRestores restoring.restoreOp = some ticket)
      (mine : ticket.requestId = r.id) (holds : r'.state.resources? = some held)
      (owns : held.reqPoolIndex = some ticket.requestPoolIndex)
      (out : held.resultsInFlight = restoring.resources.resultsInFlight)
      (kind : r.state.resumesAs? = some r'.state.kind) :
      Move may c [] ({ ((c.releaseBlob (some ticket.blobSlot)).releaseBlob (some restoring.blobSlot)) with
        transfers := { c.transfers with
          snapshotRestores := eraseOp c.transfers.snapshotRestores restoring.restoreOp } }.setRequest r')
  /-- A restore lands whose request is gone: its row and its share return. -/
  | abandon {c : Core} {op : Nat} {ticket : InFlightSnapshotRestore}
      (issued : findOp c.transfers.snapshotRestores op = some ticket)
      (gone : ∀ r ∈ c.requests, ∀ restoring, r.state = .restoring restoring → r.id = ticket.requestId →
        restoring.restoreOp ≠ op) :
      Move may c [] { ((c.releaseBlob (some ticket.blobSlot)).returnRow (some ticket.requestPoolIndex)) with
        transfers := { c.transfers with snapshotRestores := eraseOp c.transfers.snapshotRestores op } }
  /-- A snapshot store lands: its share returns, and its request notes it. -/
  | stored {c : Core} {op : Nat} {ticket : InFlightSnapshotStore}
      (issued : findOp c.transfers.snapshotStores op = some ticket)
      (noted : ∀ r ∈ c.requests, r.id = ticket.requestId → op ∉ r.state.pendingOps) :
      Move may c [] { (c.releaseBlob (some ticket.blobSlot)) with
        transfers := { c.transfers with snapshotStores := eraseOp c.transfers.snapshotStores op } }
  /-- A write-back starts. -/
  | store {c : Core} {writeBack : InFlightWriteBack} :
      Move may c [] (c.setTransfers (c.transfers.addWriteBack writeBack))
  /-- A write-back lands. -/
  | writtenBack {c : Core} {op : Nat} (noted : c.Unawaited op) :
      Move may c [] (c.setTransfers { c.transfers with writeBacks := eraseOp c.transfers.writeBacks op })
  /-- A load-back starts. -/
  | load {c : Core} {pairs : List BlockTransfer} : Move may c [] (c.setTransfers (c.transfers.addLoadBack pairs))
  /-- A load-back lands. -/
  | loaded {c : Core} {op : Nat} :
      Move may c [] (c.setTransfers { c.transfers with loadBacks := eraseOp c.transfers.loadBacks op })
  /-- A request is submitted. -/
  | submit {c : Core} {r : Request} (join : may.join) (fresh : c.find r.id = none) (state : r.state.admission?.isSome) :
      Move may c [] { c with requests := c.requests ++ [r] }
  /-- Finished requests are erased. -/
  | erase {c : Core} : Move may c [] { c with requests := c.requests.filter fun r => !r.is .finished }

inductive Moves (may : May) : Core → List Forward → Core → Prop
  | refl (c : Core) : Moves may c [] c
  | tail {c c' c'' : Core} {out out' : List Forward} (moves : Moves may c out c') (move : Move may c' out' c'') :
      Moves may c (out ++ out') c''

end TokenSpeed

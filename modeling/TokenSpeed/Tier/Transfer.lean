import TokenSpeed.Coordinator.Image

/-!
# Transfers between Device and Host

`TierTransferManager` of `cache/tier/transfer_manager.{h,cpp}`. Each map of operations in flight is the
list of its entries in the order of their ids. A ticket names the blocks it pins. The coordinator the
source refers to is passed beside the manager.
-/

namespace TokenSpeed

structure CacheTransfer where
  groupId : Nat
  sourcePage : Nat
  destinationPage : Nat
  contentHash : ContentHash := []
  pageOffset : Nat := 0
  deriving DecidableEq, Repr

inductive StoreSourceGuard where
  | pinnedUntilAck
  | streamOrdered
  deriving DecidableEq, Repr

inductive HostTier where
  | l2
  | snapshotPool
  deriving DecidableEq, Repr

structure WriteBackOperation where
  opId : Nat
  transfers : List CacheTransfer
  sourcePinned : Bool
  deriving DecidableEq, Repr

structure LoadBackOperation where
  opId : Nat
  transfers : List CacheTransfer
  deriving DecidableEq, Repr

structure SnapshotStoreOperation where
  opId : Nat
  requestId : Nat
  requestPoolIndex : Nat
  snapshotSlot : Nat
  transfers : List CacheTransfer
  deriving DecidableEq, Repr

structure SnapshotRestoreOperation where
  opId : Nat
  requestId : Nat
  requestPoolIndex : Nat
  snapshotSlot : Nat
  transfers : List CacheTransfer
  sourceTier : List HostTier
  deriving DecidableEq, Repr

structure StoreTicket where
  key : CacheKey
  deviceBlock : Option CacheBlockLocation
  hostBlock : CacheBlockLocation
  deriving DecidableEq, Repr

structure InFlightWriteBack where
  guard : StoreSourceGuard
  tickets : List StoreTicket
  deriving DecidableEq, Repr

structure InFlightSnapshotStore where
  requestId : Nat
  destinations : List CacheBlockLocation
  blobSlot : Nat
  deriving DecidableEq, Repr

/-- `InFlightSnapshotRestore`: the Host L2 rows, then the snapshot pool's. -/
structure InFlightSnapshotRestore where
  requestId : Nat
  loads : List BlockTransfer
  snapshots : List BlockTransfer
  blobSlot : Nat
  requestPoolIndex : Nat
  deriving DecidableEq, Repr

structure TierTransferManager where
  writeBacks : List (Nat × InFlightWriteBack) := []
  loadBacks : List (Nat × List BlockTransfer) := []
  snapshotStores : List (Nat × InFlightSnapshotStore) := []
  snapshotRestores : List (Nat × InFlightSnapshotRestore) := []
  nextOpId : Nat := 0
  deriving DecidableEq, Repr

structure RetractionStores where
  image : Nat → ImageTable
  hostStore : Option WriteBackOperation
  snapshotStore : SnapshotStoreOperation
  pendingStoreOps : List Nat

def findOp {α : Type} (ops : List (Nat × α)) (id : Nat) : Option α := (ops.find? fun x => x.1 == id).map (·.2)

def eraseOp {α : Type} (ops : List (Nat × α)) (id : Nat) : List (Nat × α) := ops.filter fun x => !(x.1 == id)

namespace TierTransferManager

variable (m : TierTransferManager)

def resolveTransfer (message : String) (c : CacheCoordinator) (pair : BlockTransfer) : Result CacheTransfer := do
  let g := pair.groupId
  assert (c.pool.bucketOf g pair.source == c.pool.bucketOf g pair.destination) message
  let source ← GroupAllocator.resolveCacheBlockId (c.pool.packing g) pair.source
  let destination ← GroupAllocator.resolveCacheBlockId (c.pool.packing g) pair.destination
  pure
    { groupId := g
      sourcePage := source
      destinationPage := destination
      contentHash := pair.key.contentHash
      pageOffset := pair.key.pageOffset }

variable (x : (Nat × ImageSlot) × CacheBlockLocation) (c : CacheCoordinator) (opId : Nat) (guard : StoreSourceGuard)
  (pairs : List BlockTransfer)

def resolveTransfers : Result (List CacheTransfer) :=
  pairs.mapM (resolveTransfer "cache transfer pairs blocks of different owners" c)

/-! ## Stores of published blocks -/

def storingKeys : List CacheKey := m.writeBacks.flatMap fun x => x.2.tickets.map (·.key)

def storable (c : CacheCoordinator) : List CacheKey → List CacheKey → List (CacheKey × CacheBlockLocation)
  | [], _ => []
  | key :: rest, storing =>
    if c.containsHostCachedBlock key || decide (key ∈ storing) then storable c rest storing
    else
      match c.deviceCachedBlock key with
      | none => storable c rest (key :: storing)
      | some l => (key, l) :: storable c rest (key :: storing)

def storePair (candidate : (CacheKey × CacheBlockLocation) × CacheBlockLocation) : BlockTransfer :=
  { groupId := candidate.1.1.groupId
    source := candidate.1.2
    destination := candidate.2
    key := candidate.1.1 }

def pinSource (c : CacheCoordinator) (pair : BlockTransfer) : Result CacheCoordinator :=
  match guard with
  | .pinnedUntilAck => c.retainDevice pair.source
  | .streamOrdered => pure c

def storeTicket (pair : BlockTransfer) : StoreTicket :=
  { key := pair.key
    deviceBlock := if guard = .pinnedUntilAck then some pair.source else none
    hostBlock := pair.destination }

def startWriteBack (transfers : List CacheTransfer) : WriteBackOperation × TierTransferManager :=
  ({ opId := m.nextOpId, transfers := transfers, sourcePinned := guard == .pinnedUntilAck }, { m with
      writeBacks := m.writeBacks ++ [(m.nextOpId, ⟨guard, pairs.map (storeTicket guard)⟩)]
      nextOpId := m.nextOpId + 1 })

def storePairs (candidates : List (CacheKey × CacheBlockLocation)) (blocks : List (Option CacheBlockLocation)) :
    List BlockTransfer :=
  (candidates.zip blocks).filterMap fun x => x.2.map fun host => storePair (x.1, host)

def startPendingStores : Result (Option WriteBackOperation × TierTransferManager × CacheCoordinator) := do
  let (pending, c) := c.takePendingStores
  let candidates := storable c pending m.storingKeys
  if candidates.isEmpty then
    return (none, m, c)
  let (blocks, c) ← c.acquireHostBlocks
    (candidates.map fun x => (x.1.groupId, c.pool.bucketOf x.1.groupId x.2))
  let pairs := storePairs candidates blocks
  let transfers ← pairs.mapM (resolveTransfer "Host store pairs blocks of different owners" c)
  let c ← pairs.foldlM (pinSource guard) c
  if pairs.isEmpty then
    return (none, m, c)
  let (op, m) := m.startWriteBack guard pairs transfers
  return (some op, m, c)

def hasPinnedStoresInFlight : Bool := m.writeBacks.any fun x => x.2.guard == .pinnedUntilAck

def hasAnyInFlight : Bool :=
  !m.writeBacks.isEmpty || !m.loadBacks.isEmpty || !m.snapshotStores.isEmpty || !m.snapshotRestores.isEmpty

def publishTicket (s : List HostPublication × CacheCoordinator) (ticket : StoreTicket) :
    Result (List HostPublication × CacheCoordinator) := do
  let (block, c) ← s.2.cacheHostBlock ticket.hostBlock ticket.key
  pure (s.1 ++ [⟨ticket.key, block⟩], c)

def unpinSource (ticket : StoreTicket) : Result CacheCoordinator :=
  match ticket.deviceBlock with
  | none => pure c
  | some l => c.dropDevice l

/-- `CompleteWriteBack`: every ticket's entry is published and its Device source let go. The
publications hold their blocks until the caller drops them. -/
def completeWriteBack : Result (List HostPublication × TierTransferManager × CacheCoordinator) :=
  match findOp m.writeBacks opId with
  | none => pure ([], m, c)
  | some writeBack => do
    let (published, c) ← writeBack.tickets.foldlM publishTicket ([], c)
    let c ← writeBack.tickets.foldlM unpinSource c
    pure (published, { m with writeBacks := eraseOp m.writeBacks opId }, c)

/-! ## Loads of a prefix -/

def startPrefixLoad : Result (LoadBackOperation × TierTransferManager) := do
  assert (!pairs.isEmpty) "prefix load requires at least one block transfer"
  assert (pairs.all fun pair => c.isHostCachedBlock pair.source)
    "pinned Host block lost its cache entry before load emission"
  let transfers ← resolveTransfers c pairs
  pure (⟨m.nextOpId, transfers⟩,
    { m with loadBacks := m.loadBacks ++ [(m.nextOpId, pairs)], nextOpId := m.nextOpId + 1 })

def dropLoad (pair : BlockTransfer) : Result CacheCoordinator := do
  let c ← c.dropDevice pair.destination
  c.dropHost pair.source

def completeLoadBack : Result (TierTransferManager × CacheCoordinator) :=
  match findOp m.loadBacks opId with
  | none => pure (m, c)
  | some pairs => do
    let c ← pairs.foldlM dropLoad c
    pure ({ m with loadBacks := eraseOp m.loadBacks opId }, c)

/-! ## Retraction images -/

/-- `inFlightHostBlocks`, looked up: the Host block a store carries for a key, with the store. -/
def inFlightHostBlock (key : CacheKey) : Option (CacheBlockLocation × Nat) :=
  m.writeBacks.findSome? fun x =>
    (x.2.tickets.find? fun ticket => ticket.key == key).map fun ticket => (ticket.hostBlock, x.1)

def waitFor (ops : List Nat) (opId : Nat) : List Nat := if opId ∈ ops then ops else ops ++ [opId]

structure HostLeg where
  coord : CacheCoordinator
  served : List (Nat × ImageSlot) := []
  waiting : List Nat := []
  toAllocate : List (Nat × ImageSlot) := []

def serveSlot (leg : HostLeg) (entry : Nat × ImageSlot) : Result HostLeg := do
  let (cached, c) ← leg.coord.findHostCachedBlock entry.2.key
  match cached with
  | some host =>
    return { leg with coord := c, served := leg.served ++ [(entry.1, { entry.2 with block := host })] }
  | none =>
    match m.inFlightHostBlock entry.2.key with
    | some (host, opId) =>
      let c ← c.retainHost host
      return { leg with
        coord := c
        served := leg.served ++ [(entry.1, { entry.2 with block := host })]
        waiting := waitFor leg.waiting opId }
    | none => return { leg with coord := c, toAllocate := leg.toAllocate ++ [entry] }

def serveSlots (published : Nat → List ImageSlot) : Result HostLeg :=
  if c.hostPool.isNone then pure { coord := c }
  else ((List.range c.groups.length).flatMap fun i => (published i).map fun slot => (i, slot)).foldlM m.serveSlot
    { coord := c }

def allocateLeg (leg : HostLeg) : Result (List ((Nat × ImageSlot) × CacheBlockLocation) × CacheCoordinator) :=
  if leg.toAllocate.isEmpty then pure ([], leg.coord)
  else do
    let (blocks, c) ← leg.coord.acquireHostBlocks
      (leg.toAllocate.map fun x => (x.1, leg.coord.pool.bucketOf x.1 x.2.block))
    pure ((leg.toAllocate.zip blocks).filterMap fun x => x.2.map fun host => (x.1, host), c)

def allocatedSlot : Nat × ImageSlot :=
  (x.1.1, { x.1.2 with block := x.2 })

/-- The slots of group `i` the Host serves. -/
def servedSlots (leg : HostLeg) (allocated : List ((Nat × ImageSlot) × CacheBlockLocation)) (i : Nat) :
    List ImageSlot :=
  CacheCoordinator.sortSlots
    (((leg.served ++ allocated.map allocatedSlot).filter (·.1 == i)).map (·.2))

def legPair : BlockTransfer :=
  { groupId := x.1.1, source := x.1.2.block, destination := x.2, key := x.1.2.key }

def startHostLeg : Result (Option WriteBackOperation × TierTransferManager × CacheCoordinator) :=
  if pairs.isEmpty then pure (none, m, c)
  else do
    let transfers ← resolveTransfers c pairs
    let c ← (pairs.map (·.destination)).foldlM CacheCoordinator.retainHost c
    let (op, m) := m.startWriteBack .streamOrdered pairs transfers
    pure (some op, m, c)

def startSnapshotStore (requestId requestPoolIndex blobSlot : Nat)
    (pairs : List BlockTransfer) : Result (SnapshotStoreOperation × TierTransferManager × CacheCoordinator) := do
  let transfers ← resolveTransfers c pairs
  let destinations := pairs.map (·.destination)
  let c ← destinations.foldlM CacheCoordinator.retainSnapshot c
  pure (⟨m.nextOpId, requestId, requestPoolIndex, blobSlot, transfers⟩, { m with
      snapshotStores := m.snapshotStores ++ [(m.nextOpId, ⟨requestId, destinations, blobSlot⟩)]
      nextOpId := m.nextOpId + 1 }, c)

/-- `StartRetractionStores`; `none` when the snapshot pool cannot hold the rest of the image, and then
the Host blocks pinned for it are let go. -/
def startRetractionStores (requestId requestPoolIndex blobSlot : Nat) (tables : Nat → BlockTable) (numTokens : Nat) :
    Result (Option RetractionStores × TierTransferManager × CacheCoordinator) := do
  let published ← c.publishedDataSlots tables numTokens
  let leg ← m.serveSlots c published
  let (allocated, c) ← allocateLeg leg
  let served := servedSlots leg allocated
  match ← c.takeImage tables numTokens served with
  | none =>
    let c ← ((List.range c.groups.length).flatMap served).foldlM
      (fun c slot => c.dropHost slot.block) c
    return (none, m, c)
  | some (image, storePairs, c) =>
    let (hostStore, m, c) ← m.startHostLeg c (allocated.map legPair)
    let waiting := hostStore.elim leg.waiting fun op => waitFor leg.waiting op.opId
    let (snapshotStore, m, c) ← m.startSnapshotStore c requestId requestPoolIndex blobSlot storePairs
    return (some
      { image := image
        hostStore := hostStore
        snapshotStore := snapshotStore
        pendingStoreOps := waitFor waiting snapshotStore.opId }, m, c)

/-- `CompleteSnapshotStore`: the request the store belonged to and the blob slot it lets go. -/
def completeSnapshotStore : Result (Option InFlightSnapshotStore × TierTransferManager × CacheCoordinator) :=
  match findOp m.snapshotStores opId with
  | none => pure (none, m, c)
  | some store => do
    let c ← store.destinations.foldlM CacheCoordinator.dropSnapshot c
    pure (some store, { m with snapshotStores := eraseOp m.snapshotStores opId }, c)

/-! ## Restores -/

def startSnapshotRestore (requestId requestPoolIndex blobSlot : Nat)
    (loads snapshots : List BlockTransfer) : Result (SnapshotRestoreOperation × TierTransferManager) := do
  assert (loads.all fun pair => c.isHostCachedBlock pair.source)
    "a restore's Host L2 row must come from a published Host entry"
  let loadRows ← resolveTransfers c loads
  let poolRows ← resolveTransfers c snapshots
  pure
    ({ opId := m.nextOpId
       requestId := requestId
       requestPoolIndex := requestPoolIndex
       snapshotSlot := blobSlot
       transfers := loadRows ++ poolRows
       sourceTier := loads.map (fun _ => .l2) ++ snapshots.map fun _ => .snapshotPool },
      { m with
        snapshotRestores := m.snapshotRestores ++
          [(m.nextOpId, ⟨requestId, loads, snapshots, blobSlot, requestPoolIndex⟩)]
        nextOpId := m.nextOpId + 1 })

def republish (s : List BlockTransfer × CacheCoordinator) (pair : BlockTransfer) :
    Result (List BlockTransfer × CacheCoordinator) :=
  if pair.key.contentHash.isEmpty then pure (s.1 ++ [pair], s.2)
  else do
    let (block, c) ← s.2.cacheDeviceBlock pair.destination pair.key pair.logicalBlockIndex pair.boundaryKind
    pure (s.1 ++ [{ pair with destination := block }], c)

def republishRows (publish : Bool) (pairs : List BlockTransfer) : Result (List BlockTransfer × CacheCoordinator) :=
  if publish then pairs.foldlM republish ([], c) else pure (pairs, c)

def dropSnapshotRow (pair : BlockTransfer) : Result CacheCoordinator := do
  let c ← c.dropDevice pair.destination
  c.dropSnapshot pair.source

def snapshotRestoreRequest : Option Nat := (findOp m.snapshotRestores opId).map (·.requestId)

/-- `CompleteSnapshotRestore`: the ticket, whose row and blob slot are the caller's to place. -/
def completeSnapshotRestore (publish : Bool) :
    Result (Option InFlightSnapshotRestore × TierTransferManager × CacheCoordinator) :=
  match findOp m.snapshotRestores opId with
  | none => pure (none, m, c)
  | some restore => do
    let (loads, c) ← republishRows c publish restore.loads
    let (snapshots, c) ← republishRows c publish restore.snapshots
    let c ← loads.foldlM dropLoad c
    let c ← snapshots.foldlM dropSnapshotRow c
    pure (some restore, { m with snapshotRestores := eraseOp m.snapshotRestores opId }, c)

end TierTransferManager

end TokenSpeed

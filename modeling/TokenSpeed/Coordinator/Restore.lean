import TokenSpeed.Coordinator.Admission

/-!
# Restore

`CacheCoordinator::Restore` of `cache/coordinator/cache_admission.cpp`: a retracted request's tables
are rebuilt from their image. A published slot the request will not write again is claimed from the
Device index when its key is still cached there; every other slot gets a fresh block in its bucket.
-/

namespace TokenSpeed.CacheCoordinator

open GroupGeometry GroupAllocator

variable (c : CacheCoordinator) (image : Nat → ImageTable) (i : Nat) (shape : ImageTable) (slot : ImageSlot)

/-- `writableImageSlot`: the slots of the page the computed frontier ends inside, and a State
table's live slot. -/
def writableImageSlot (slotIndex : Nat) : Bool :=
  if c.groupIsState i then slotIndex == 1
  else
    let g := c.granularity i
    let numTokens := shape.numBlocks * g - shape.availableTokens
    decide ((numTokens - numTokens % c.prefixGranularity) / g ≤ slotIndex)

def claimable : Bool :=
  slot.inHostCache && !c.writableImageSlot i shape slot.slotIndex

def claimedBlock : Option CacheBlockLocation :=
  if c.claimable i shape slot then ((c.deviceEntries i).findKey slot.key).map (·.block) else none

def plannedShape : PlannedShape where
  blocksByBucket := fun b => (image i).slots.countP fun slot =>
    (c.claimedBlock i (image i) slot).isNone && c.pool.bucketOf i slot.block == b
  availableTokens := (image i).availableTokens

def claimedLocations : List Victim :=
  (List.range c.groups.length).flatMap fun i =>
    (image i).slots.filterMap fun slot =>
      (c.claimedBlock i (image i) slot).map fun l => (i, l)

/-- The claims of group `i`, one entry per imaged slot. -/
def claimShape (epoch i : Nat) (shape : ImageTable) : List ImageSlot → CacheCoordinator →
    Result (List (Option CacheBlockLocation) × CacheCoordinator)
  | [], c => pure ([], c)
  | slot :: slots, c =>
    match c.claimedBlock i shape slot with
    | none => do
      let (claimed, c) ← claimShape epoch i shape slots c
      pure (none :: claimed, c)
    | some _ => do
      let (blocks, es, pool) ← acquireHits epoch [slot.key] 0 [true] (c.deviceEntries i) c.pool
      let (claimed, c) ← claimShape epoch i shape slots
        ({ c with pool := pool }.setDeviceEntries i es)
      pure (blocks.getD 0 none :: claimed, c)

structure RestoreTxn extends Txn where
  claimed : Nat → List (Option CacheBlockLocation) := fun _ => []

def claimImageGroup (epoch : Nat) (t : RestoreTxn) (i : Nat) : Result RestoreTxn := do
  let (claimed, coord) ← claimShape epoch i (image i) (image i).slots t.coord
  pure { t with coord := coord, claimed := Function.update t.claimed i claimed }

def retainImageSource : Result CacheCoordinator :=
  if slot.inHostCache then
    match c.hostPool with
    | none => pure c
    | some pool => do
      let pool ← pool.retain slot.block
      pure { c with hostPool := some pool }
  else
    match c.snapshotPool with
    | none => pure c
    | some pool => do
      let pool ← pool.retain slot.block
      pure { c with snapshotPool := some pool }

def transferSlot (t : Txn) (slot : ImageSlot) : Result Txn :=
  match (t.holding.tables i).block slot.slotIndex with
  | none => pure t
  | some destination =>
    if slot.inHostCache && t.coord.deviceCached i destination then pure t
    else do
      let coord ← t.coord.retainImageSource slot
      let pool ← coord.pool.retain destination
      let transfer : BlockTransfer :=
        { groupId := i
          source := slot.block
          destination := destination
          key := if t.coord.claimable i shape slot then slot.key else {}
          logicalBlockIndex := slot.logicalBlockIndex
          boundaryKind := slot.boundaryKind }
      let t := { t with coord := { coord with pool := pool } }
      if slot.inHostCache then
        pure { t with result := { t.result with loadPairs := t.result.loadPairs ++ [transfer] } }
      else
        pure { t with
          result := { t.result with snapshotPairs := t.result.snapshotPairs ++ [transfer] } }

def growRestored (demands : Nat → GroupDemand) (t : Txn) (i : Nat) : Result Txn :=
  if t.coord.groupIsState i then pure t
  else growGroup "restore plan no longer fits the block pool" demands t i

def restoreGroup (demands : Nat → GroupDemand) (t : RestoreTxn) (i : Nat) : Result RestoreTxn := do
  match ← acquireShape t.coord.pool i (t.holding.tables i) (image i) (t.claimed i) with
  | none => .error (.fatal "restore plan no longer fits the block pool")
  | some (pool, table) =>
    let txn := (t.toTxn.setPool pool).setTable i table
    let txn ← (image i).slots.foldlM (transferSlot i (image i)) txn
    let txn ← growRestored demands txn i
    pure { t with toTxn := txn }

/-- `Restore`; `none` when the pool cannot hold the image. -/
def restore (c : CacheCoordinator) (image : Nat → ImageTable) (demands : Nat → GroupDemand)
    (holding : Holding) (requestEpoch : Nat) : Result (Option Txn) := do
  let groups := List.range c.groups.length
  assert (0 < requestEpoch && requestEpoch ≤ c.nextAccessEpoch)
    "request access epoch was not issued by this coordinator"
  assert (groups.all fun i => (holding.tables i).numBlocks == 0)
    "a restore rebuilds into an empty table"
  let probe ← c.probePromptPrefix {}
  match ← c.planAdmission
      { tables := holding.tables
        demands := demands
        progress := {}
        probe := probe
        shapes := some (c.plannedShape image)
        claimed := c.claimedLocations image } with
  | none => return none
  | some victims =>
    let t : RestoreTxn :=
      { coord := c, holding := holding, result := { accessEpoch := requestEpoch } }
    let t ← groups.foldlM (claimImageGroup image requestEpoch) t
    let txn ← victims.foldlM
      (evictProspective "restore victim changed before acquisition") t.toTxn
    let t ← groups.foldlM (restoreGroup image demands) { t with toTxn := txn }
    return some t.toTxn

end TokenSpeed.CacheCoordinator

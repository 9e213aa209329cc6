import TokenSpeed.Coordinator.Restore
import TokenSpeed.Coordinator.Storage

/-!
# Images of retracted tables

What a retraction keeps of a request's tables: `PublishedDataSlots`, `planSnapshotPool` and
`TakeImage` of `cache/coordinator/cache_coordinator.cpp`, with the smaller operations on a request's
tables the scheduler calls between admissions.
-/

namespace TokenSpeed

structure HostPublication where
  key : CacheKey
  block : CacheBlockLocation
  deriving DecidableEq, Repr

def ImageSlot.follow (published : List HostPublication) (slot : ImageSlot) : ImageSlot :=
  if slot.inHostCache then
    published.foldl (fun s entry => if entry.key = s.key then { s with block := entry.block } else s) slot
  else slot

namespace CacheCoordinator

open GroupAllocator

variable (c : CacheCoordinator)

def perGroup {α : Type} (default : α) (f : Nat → Result α) : Result (Nat → α) := do
  let rows ← (List.range c.groups.length).mapM f
  pure fun i => rows.getD i default

def sortSlots (slots : List ImageSlot) : List ImageSlot :=
  slots.insertionSort fun a b => a.slotIndex ≤ b.slotIndex

/-! ## The data of a table -/

structure DataSpan where
  blocks : Nat := 0
  tailTokens : Nat := 0
  deriving DecidableEq, Repr

def dataSpan (i : Nat) (table : BlockTable) (numTokens : Nat) : Result DataSpan :=
  if c.groupIsState i then pure { blocks := table.numBlocks, tailTokens := 0 }
  else do
    let covering := blocksCovering (c.granularity i) numTokens
    assert (covering ≤ table.numBlocks) "snapshot token count exceeds the table's logical fill"
    pure { blocks := covering, tailTokens := covering * c.granularity i - numTokens }

def publishedSlot (i : Nat) (block : Option CacheBlockLocation) (slot : Nat) : Option ImageSlot :=
  match block with
  | none => none
  | some l =>
    ((c.deviceEntries i).findLocation l).map fun e =>
      { slotIndex := slot
        block := l
        key := e.key
        logicalBlockIndex := e.logicalBlockIndex
        boundaryKind := e.boundaryKind }

variable (c : CacheCoordinator) (l : CacheBlockLocation) (tables : Nat → BlockTable) (numTokens : Nat)
  (served : Nat → List ImageSlot)

variable (published : List HostPublication) (progress : RequestProgress) (holding : Holding)
  (contentHashes : List ContentHash) (s : Holding × CacheCoordinator) (i : Nat)

def publishedGroupSlots : Result (List ImageSlot) := do
  let span ← c.dataSpan i (tables i) numTokens
  pure (((tables i).blocks.take span.blocks).zipIdx.filterMap fun x => c.publishedSlot i x.1 x.2)

/-- `PublishedDataSlots`. The slots name Device blocks the tables own. -/
def publishedDataSlots : Result (Nat → List ImageSlot) :=
  c.perGroup [] (c.publishedGroupSlots tables numTokens)

def addPublishable (table : BlockTable) (span : DataSpan) (kind : CacheBoundaryKind)
    (slots : List ImageSlot) (entry : CacheKey × Nat) : List ImageSlot :=
  match table.block entry.2 with
  | none => slots
  | some l =>
    if span.blocks ≤ entry.2 ∨ slots.any (·.slotIndex == entry.2) then slots
    else
      slots ++ [{ slotIndex := entry.2
                  block := l
                  key := entry.1
                  logicalBlockIndex := entry.2
                  boundaryKind := kind }]

def publishedGroupSlotsAfter : Result (List ImageSlot) := do
  let slots ← c.publishedGroupSlots tables numTokens i
  match progress.completedPages with
  | none => return slots
  | some completed =>
    let ranges ← c.completedBlockRanges i completed
    if ranges.isEmpty then
      return slots
    let span ← c.dataSpan i (tables i) numTokens
    return sortSlots (ranges.foldl (fun slots range =>
      (range.keys.zipIdx range.firstCacheBlock).foldl
        (addPublishable (tables i) span range.boundaryKind) slots) slots)

def publishedDataSlotsAfter : Result (Nat → List ImageSlot) :=
  c.perGroup [] (c.publishedGroupSlotsAfter tables numTokens progress)

/-! ## The snapshot pool's share -/

/-- What `planSnapshotPool` decides for one group: its span and the slots, with their buckets, the
snapshot pool has to hold. -/
structure GroupImagePlan where
  span : DataSpan := {}
  privateSlots : List (Nat × CacheBlockLocation) := []

def privateSlots (table : BlockTable) (span : DataSpan) (served : List ImageSlot) : List (Nat × CacheBlockLocation) :=
  (table.blocks.take span.blocks).zipIdx.filterMap fun x =>
    match x.1 with
    | none => none
    | some l => if served.any (·.slotIndex == x.2) then none else some (x.2, l)

def planGroupImage : Result GroupImagePlan := do
  let span ← c.dataSpan i (tables i) numTokens
  assert ((served i).all fun slot => slot.inHostCache)
    "a Host-served snapshot slot carries the key it is published under"
  assert ((served i).all fun slot => slot.slotIndex < span.blocks)
    "a Host-served snapshot slot must be a data slot"
  pure { span := span, privateSlots := privateSlots (tables i) span (served i) }

def imageParents (snapshotPool : BlockPool) (plan : Nat → GroupImagePlan) (i : Nat) : Nat :=
  parentsNeededForBuckets (c.pool.shardCount i)
    (fun b => (plan i).privateSlots.countP fun slot => c.pool.bucketOf i slot.2 == b)
    (snapshotPool.freeSlotsByBucket i) 0 (c.pool.packing i)

/-- `planSnapshotPool`; nothing is acquired. -/
def planSnapshotPool : Result (Option (Nat → GroupImagePlan)) :=
  match c.snapshotPool with
  | none => pure none
  | some snapshotPool => do
    let plan ← c.perGroup {} (c.planGroupImage tables numTokens served)
    if snapshotPool.numEmptyLcmBlocks <
        ∑ i ∈ Finset.range c.groups.length, c.imageParents snapshotPool plan i then
      return none
    return some plan

def snapshotPoolHolds : Result Bool := do
  let plan ← c.planSnapshotPool tables numTokens served
  pure plan.isSome

/-- A running `TakeImage`: the snapshot pool, the tables imaged and the pairs to store. -/
structure ImageTaken where
  snapshotPool : BlockPool
  image : Nat → ImageTable := fun _ => {}
  storePairs : List BlockTransfer := []

def takeGroupImage (plan : Nat → GroupImagePlan)
    (served : Nat → List ImageSlot) (taken : ImageTaken) (i : Nat) : Result ImageTaken := do
  let wanted := (plan i).privateSlots
  let (blocks, snapshotPool) ← taken.snapshotPool.acquireBlocksInBuckets i
    (wanted.map fun slot => c.pool.bucketOf i slot.2)
  fatalCheck (blocks.length == wanted.length) "snapshot pool no longer fits a probed image"
  let fresh := wanted.zip blocks
  pure
    { snapshotPool := snapshotPool
      image := Function.update taken.image i
        { numBlocks := (plan i).span.blocks
          reclaimedPrefixBlocks := min (tables i).reclaimedPrefixBlocks (plan i).span.blocks
          availableTokens := (plan i).span.tailTokens
          slots := sortSlots (served i ++ fresh.map fun x => { slotIndex := x.1.1, block := x.2 }) }
      storePairs := taken.storePairs ++ fresh.map fun x =>
        { groupId := i, source := x.1.2, destination := x.2 } }

/-- `TakeImage`; `none` when the snapshot pool cannot hold what the Host does not serve. The image
owns its blocks; the pairs name them. -/
def takeImage : Result (Option ((Nat → ImageTable) × List BlockTransfer × CacheCoordinator)) := do
  assert ((List.range c.groups.length).all fun i => (served i).isEmpty || c.hostPool.isSome)
    "a Host-cached snapshot slot must carry its Host L2 block"
  match ← c.planSnapshotPool tables numTokens served, c.snapshotPool with
  | some plan, some snapshotPool =>
    let taken ← (List.range c.groups.length).foldlM (c.takeGroupImage tables plan served)
      { snapshotPool := snapshotPool }
    return some (taken.image, taken.storePairs, { c with snapshotPool := some taken.snapshotPool })
  | _, _ => return none

/-! ## References the snapshot pool counts -/

def retainSnapshot : Result CacheCoordinator :=
  match c.snapshotPool with
  | none => .error (.fatal "cannot retain a destroyed or saturated CacheBlockControl")
  | some pool => do
    let pool ← pool.retain l
    pure { c with snapshotPool := some pool }

def dropSnapshot : Result CacheCoordinator :=
  match c.snapshotPool with
  | none => .error (.fatal "CacheBlockControl release requires a live reference")
  | some pool => do
    let pool ← pool.drop l
    pure { c with snapshotPool := some pool }

def retainDevice : Result CacheCoordinator := do
  let pool ← c.pool.retain l
  pure { c with pool := pool }

def dropDevice : Result CacheCoordinator := do
  let pool ← c.pool.drop l
  pure { c with pool := pool }

def dropImageSlot (slot : ImageSlot) : Result CacheCoordinator :=
  if slot.inHostCache then c.dropHost slot.block else c.dropSnapshot slot.block

def dropImage (image : Nat → ImageTable) : Result CacheCoordinator :=
  ((List.range c.groups.length).flatMap fun i => (image i).slots).foldlM dropImageSlot c

/-- One slot of `FollowPublished`: it takes the canonical block and lets go of its own. -/
def followSlot (c : CacheCoordinator) (slot : ImageSlot) : Result CacheCoordinator :=
  let block := (slot.follow published).block
  if block = slot.block then pure c
  else do
    let c ← c.retainHost block
    c.dropHost slot.block

def followPublished (image : Nat → ImageTable) :
    Result ((Nat → ImageTable) × CacheCoordinator) := do
  let c ← ((List.range c.groups.length).flatMap fun i => (image i).slots).foldlM (followSlot published) c
  pure (fun i => { image i with slots := (image i).slots.map (ImageSlot.follow published) }, c)

/-! ## Cached blocks by key -/

/-- `AcquireDeviceCachedBlock`: the key's block; the caller retains it. -/
def deviceCachedBlock (key : CacheKey) : Option CacheBlockLocation :=
  if key.groupId < c.groups.length then ((c.deviceEntries key.groupId).findKey key).map (·.block) else none

def findHostCachedBlock (key : CacheKey) : Result (Option CacheBlockLocation × CacheCoordinator) :=
  if c.hostPool.isNone then pure (none, c)
  else do
    assert (key.groupId < c.groups.length) "host cache key group id out of range"
    match (c.hostEntries key.groupId).findKey key with
    | none => pure (none, c)
    | some e => do
      let c ← c.retainHost e.block
      pure (some e.block, c)

def isHostCachedBlock : Bool :=
  c.hostPool.isSome && (List.range c.groups.length).any fun i => (c.hostEntries i).containsBlock l

/-- `CacheDeviceBlock`: the block becomes the key's entry, or the caller now holds the key's canonical
block. -/
def cacheDeviceBlock (block : CacheBlockLocation) (key : CacheKey) (logicalBlockIndex : Int)
    (kind : CacheBoundaryKind) : Result (CacheBlockLocation × CacheCoordinator) := do
  assert (key.groupId < c.groups.length) "CacheDeviceBlock group id out of range"
  let (es, pool, block, inserted) ← (c.deviceEntries key.groupId).register c.pool key.groupId block key
    (c.nextAccessEpoch + 1) logicalBlockIndex kind
  let c := { c with pool := pool, nextAccessEpoch := c.nextAccessEpoch + 1 }.setDeviceEntries key.groupId es
  pure (block, if inserted then c.report key .stored else c)

def takePendingStores : List CacheKey × CacheCoordinator := (c.pendingStores, { c with pendingStores := [] })

def queueCachedBlocksForStore : CacheCoordinator :=
  if c.hostPool.isNone then c
  else
    { c with
      pendingStores := c.pendingStores ++ (List.range c.groups.length).flatMap fun i =>
        (c.keysForGroup contentHashes i).filter (c.contains .device) }

/-! ## A request's tables -/

def consumeReservedTokens (holding : Holding) (numTokens : Nat) : Result Holding :=
  (List.range c.groups.length).foldlM (fun h i =>
    if c.groupIsState i then pure h
    else do
      let table ← GroupAllocator.consumeReservedTokens (h.tables i) numTokens
      pure (h.setTable i table)) holding

def releaseStateInputOf : Result (Holding × CacheCoordinator) :=
  if s.2.groupIsState i && (s.1.tables i).numBlocks == 2 then do
    let (pool, table) ← releaseStateInput s.2.pool (s.1.tables i)
    pure (s.1.setTable i table, { s.2 with pool := pool })
  else pure s

def releaseStateInputs : Result (Holding × CacheCoordinator) :=
  (List.range c.groups.length).foldlM releaseStateInputOf (holding, c)

def freeGroup : Result (Holding × CacheCoordinator) := do
  let (pool, table) ← GroupAllocator.free s.2.pool (s.1.tables i)
  pure (s.1.setTable i table, { s.2 with pool := pool })

def freeTables : Result (Holding × CacheCoordinator) :=
  (List.range c.groups.length).foldlM freeGroup (holding, c)

def cacheFullBlocksOf (epoch firstSlot : Nat) (kind : CacheBoundaryKind)
    (s : Holding × CacheCoordinator) (i : Nat) : Result (Holding × CacheCoordinator) :=
  if s.2.groupIsState i then pure s
  else do
    let (table, c) ← s.2.cacheFullBlocksForGroup i (s.1.tables i)
      ⟨firstSlot * s.2.blocksPerBoundary i, s.2.keysForGroup contentHashes i, kind⟩ epoch false
    pure (s.1.setTable i table, c)

def cacheFullBlocks (epoch firstSlot : Nat)
    (kind : CacheBoundaryKind) : Result (Holding × CacheCoordinator) :=
  if contentHashes.isEmpty then pure (holding, c)
  else (List.range c.groups.length).foldlM (cacheFullBlocksOf contentHashes epoch firstSlot kind) (holding, c)

/-! ## Release estimates and flushes -/

/-- The references of group `i` a request's tables would let go. -/
def releasedRefs : List CacheBlockLocation :=
  (tables i).blocks.filterMap id

def parentBecomesReclaimable (g id : Nat) : Bool :=
  (List.range (c.pool.packing g)).all fun slot =>
    let l : CacheBlockLocation := ⟨id, slot⟩
    !c.pool.isOccupied l ||
      (decide (l ∈ releasedRefs tables g) &&
        c.pool.useCount l - (releasedRefs tables g).count l == if c.deviceCached g l then 1 else 0)

def numNewlyReleasableLcmBlocks : Nat :=
  let parents := ((List.range c.groups.length).flatMap fun i =>
    (releasedRefs tables i).map (·.lcmBlockId)).dedup
  parents.countP fun id => (c.pool.boundGroup id).any fun g => c.parentBecomesReclaimable tables g id

/-- `CacheIsClearable`: no entry is pinned. -/
def cacheIsClearable (includeHost : Bool) : Bool :=
  (List.range c.groups.length).all fun i =>
    (c.deviceEntries i).all (fun e => c.pool.unique e.block) &&
      (!includeHost || match c.hostPool with
        | none => true
        | some hostPool => (c.hostEntries i).all fun e => hostPool.unique e.block)

/-- One entry of `ClearDeviceCache`; an earlier eviction may have taken it. -/
def clearDeviceEntry (v : Victim) : Result CacheCoordinator := do
  let (_, c) ← c.evictCachedBlock v.1 v.2
  fatalCheck (!c.pool.isOccupied v.2) "clearable Device cache entry disappeared"
  pure c

def tierEntries (tier : CacheTier) : List Victim :=
  (List.range c.groups.length).flatMap fun i => (c.entries tier i).map fun e => (i, e.block)

def clearDeviceCache : Result (Bool × CacheCoordinator) :=
  if c.cacheIsClearable false then do
    let c ← (c.tierEntries .device).foldlM clearDeviceEntry { c with pendingStores := [] }
    pure (true, c)
  else pure (false, c)

def clearHostEntry (v : Victim) : Result CacheCoordinator :=
  match c.hostPool with
  | none => pure c
  | some hostPool => do
    match ← (c.hostEntries v.1).evict hostPool v.2 with
    | none => .error (.assertion "clearable Host cache entry disappeared")
    | some (_, es, pool) =>
      pure { c with hostPool := some pool, hostEntries := Function.update c.hostEntries v.1 es }

def clearCache : Result (Bool × CacheCoordinator) :=
  if c.hostPool.isNone then c.clearDeviceCache
  else if c.cacheIsClearable true then do
    let hosts := c.tierEntries .host
    let (_, c) ← c.clearDeviceCache
    let c ← hosts.foldlM clearHostEntry c
    pure (true, { c with tails := {} })
  else pure (false, c)

end CacheCoordinator

end TokenSpeed

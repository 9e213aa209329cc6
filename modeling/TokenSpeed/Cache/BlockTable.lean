import TokenSpeed.Cache.BlockPool

/-!
# Block tables

`cache/core/block_table.h`, the token arithmetic of `cache/coordinator/group_geometry.h` and the
placement of `cache/allocator/group_allocator.h`. A slot of a table holds a reference or is a hole;
an operation that drops a reference says so to the pool.
-/

namespace TokenSpeed

structure BlockTable where
  blocks : List (Option CacheBlockLocation) := []
  availableTokens : Nat := 0
  reclaimedPrefixBlocks : Nat := 0
  deriving DecidableEq, Repr

namespace BlockTable

def numBlocks (t : BlockTable) : Nat := t.blocks.length

def block (t : BlockTable) (slot : Nat) : Option CacheBlockLocation := (t.blocks.getD slot none)

end BlockTable

/-- `StateStep::Kind`. -/
inductive StateStepKind where
  | rotate
  | release
  | keep
  | land
  deriving DecidableEq, Repr

/-- `GroupExtent`: `DenseGrowth`, `SparseSuffix` or `StateStep`. -/
inductive GroupExtent where
  | dense (numTokens : Nat)
  | sparse (extentTokens firstBlock : Nat)
  | state (kind : StateStepKind) (checkpoint : Bool)
  deriving DecidableEq, Repr

/-- Whether the extent is a `StateStep`. -/
def GroupExtent.isState : GroupExtent → Bool
  | .state _ _ => true
  | _ => false

/-- `GroupDemand`; the table it grows is passed beside it. -/
structure GroupDemand where
  extent : GroupExtent := .dense 0
  reserveTokens : Nat := 0
  deriving DecidableEq, Repr

/-- `ImageSlot`: an imaged block of a retracted request's table; an empty key is a private slot. -/
structure ImageSlot where
  slotIndex : Nat
  block : CacheBlockLocation
  key : CacheKey := {}
  logicalBlockIndex : Int := -1
  boundaryKind : CacheBoundaryKind := .chunk
  deriving DecidableEq, Repr

def ImageSlot.inHostCache (slot : ImageSlot) : Bool := !slot.key.contentHash.isEmpty

structure ImageTable where
  numBlocks : Nat := 0
  reclaimedPrefixBlocks : Nat := 0
  availableTokens : Nat := 0
  slots : List ImageSlot := []
  deriving DecidableEq, Repr

/-- `AcquirePlan`; no `suffixStart` is a dense append. -/
structure AcquirePlan where
  numBlocks : Nat := 0
  suffixStart : Option Nat := none
  tableBlocksAfter : Nat := 0
  availableTokensAfter : Nat := 0
  deriving DecidableEq, Repr

/-! ## Geometry -/

namespace GroupGeometry

variable (granularity : Nat) (table : BlockTable)

def blocksNeededBeyond (availableTokens numTokens : Nat) : Nat :=
  if numTokens ≤ availableTokens then 0
  else (numTokens - availableTokens + granularity - 1) / granularity

def sparseSuffixBlocks (extentTokens firstBlock reserveTokens : Nat) : Result Nat := do
  assert (table.numBlocks ≤ firstBlock) "sparse suffix overlaps the existing block table"
  assert (0 < extentTokens) "sparse suffix materialization requires a positive extent"
  assert (extentTokens + reserveTokens ≤ int32Max) "sparse suffix extent exceeds int32 range"
  pure ((extentTokens + reserveTokens - 1) / granularity + 1 - firstBlock)

def blocksNeededFor (demand : GroupDemand) : Result Nat :=
  match demand.extent with
  | .dense numTokens =>
    pure (blocksNeededBeyond granularity table.availableTokens (numTokens + demand.reserveTokens))
  | .sparse extentTokens firstBlock =>
    sparseSuffixBlocks granularity table extentTokens firstBlock demand.reserveTokens
  | .state kind checkpoint => do
    assert (granularity == 0 && demand.reserveTokens == 0) "a StateStep shapes a State group"
    pure ((if kind = .rotate ∨ kind = .land then 1 else 0) + if checkpoint then 1 else 0)

def planAcquire (demand : GroupDemand) : Result AcquirePlan :=
  match demand.extent with
  | .dense numTokens =>
    let numBlocks :=
      blocksNeededBeyond granularity table.availableTokens (numTokens + demand.reserveTokens)
    pure
      { numBlocks := numBlocks
        suffixStart := none
        tableBlocksAfter := table.numBlocks + numBlocks
        availableTokensAfter := table.availableTokens + numBlocks * granularity - numTokens }
  | .sparse extentTokens firstBlock => do
    let numBlocks ← sparseSuffixBlocks granularity table extentTokens firstBlock
      demand.reserveTokens
    let logicalBlocks := (extentTokens + demand.reserveTokens + granularity - 1) / granularity
    assert (0 < numBlocks || table.numBlocks == logicalBlocks)
      "an empty sparse suffix leaves the table at the extent"
    pure
      { numBlocks := numBlocks
        suffixStart := some firstBlock
        tableBlocksAfter := logicalBlocks
        availableTokensAfter := logicalBlocks * granularity - extentTokens }
  | .state _ _ => .error (.fatal "a StateStep has no token-spanned acquire plan")

def expiredBlocksAt (spec : CacheGroupSpec) (numComputedTokens : Nat) : Nat :=
  if spec.attnKind = .slidingWindow then
    (numComputedTokens + 1 - spec.slidingWindow) / granularity
  else 0

end GroupGeometry

/-! ## Placement -/

namespace GroupAllocator

/-- `ResolveCacheBlockId`: the kernel page id of a block of a group with this packing. -/
def resolveCacheBlockId (packing : Nat) (l : CacheBlockLocation) : Result Nat := do
  assert (0 < l.lcmBlockId) "LCM block id must be > 0"
  assert (l.slotIndex < packing) "cache block slot is out of range"
  let pageId := 1 + (l.lcmBlockId - 1) * packing + l.slotIndex
  assert (pageId ≤ int32Max) "kernel page id exceeds int32 range"
  pure pageId

variable (pool : BlockPool) (cached : CacheBlockLocation → Bool) (g : Nat) (table : BlockTable)

def dropSlot (slot : Option CacheBlockLocation) : Result BlockPool :=
  match slot with
  | none => pure pool
  | some l => pool.drop l

/-- `BucketLoads`; one bucket balances nothing. -/
def bucketLoads : Option (Nat → Nat) :=
  if pool.shardCount g = 1 then none
  else some fun b => (table.blocks.filterMap id).countP fun l => pool.bucketOf g l == b

/-- `ClaimHitBlocks`: the hit becomes the table; its leading holes count as reclaimed. -/
def claimHitBlocks (hit : List (Option CacheBlockLocation)) : Result BlockTable := do
  assert table.blocks.isEmpty "ClaimHitBlocks requires a fresh (empty) table"
  pure
    { table with
      blocks := hit
      reclaimedPrefixBlocks := table.reclaimedPrefixBlocks +
        ((hit.drop table.reclaimedPrefixBlocks).takeWhile (·.isNone)).length }

def placed (plan : AcquirePlan) (fresh : List CacheBlockLocation) : Result BlockTable :=
  match plan.suffixStart with
  | none =>
    pure
      { table with
        blocks := table.blocks ++ fresh.map some
        availableTokens := plan.availableTokensAfter }
  | some start => do
    assert (table.numBlocks ≤ start) "sparse suffix overlaps the existing block table"
    assert (start + plan.numBlocks ≤ plan.tableBlocksAfter)
      "sparse suffix exceeds the planned table size"
    pure
      { blocks := table.blocks ++ List.replicate (start - table.numBlocks) none ++
          fresh.map some ++ List.replicate (plan.tableBlocksAfter - start - plan.numBlocks) none
        availableTokens := plan.availableTokensAfter
        reclaimedPrefixBlocks :=
          if table.numBlocks = 0 then start else table.reclaimedPrefixBlocks }

def freshBlocks (num : Nat) : Result (List CacheBlockLocation × BlockPool) :=
  if 0 < num then pool.acquireBlocks g num (bucketLoads pool g table) else pure ([], pool)

/-- `Acquire`: nothing when the pool is short. -/
def acquire (plan : AcquirePlan) : Result (Option (BlockPool × BlockTable)) := do
  let (fresh, pool) ← freshBlocks pool g table plan.numBlocks
  if fresh.length < plan.numBlocks then
    return none
  let table ← placed table plan fresh
  return some (pool, table)

def replacement (current : Option CacheBlockLocation) : Result (List CacheBlockLocation × BlockPool) :=
  match current with
  | some l => pool.acquireBlocksInBuckets g [pool.bucketOf g l]
  | none => pool.acquireBlocks g 1 (bucketLoads pool g table)

/-- `SwapInFreshBlock`: the replaced block is still the caller's to drop. -/
def swapInFreshBlock (slot availableTokens : Nat) : Result
    (Option CacheBlockLocation × CacheBlockLocation × BlockPool × BlockTable) := do
  assert (slot < table.numBlocks) "swapped slot lies inside the table"
  let (fresh, pool) ← replacement pool g table (table.block slot)
  match fresh with
  | [destination] =>
    pure (table.block slot, destination, pool, { table with
        blocks := table.blocks.set slot (some destination)
        availableTokens := availableTokens })
  | _ => .error (.fatal "admission plan no longer fits the block pool")

def hostExtension : List (Option CacheBlockLocation) → List CacheBlockLocation →
    List (Option CacheBlockLocation) × List (CacheBlockLocation × CacheBlockLocation)
  | [], _ => ([], [])
  | none :: hosts, destinations =>
    let (slots, pairs) := hostExtension hosts destinations
    (none :: slots, pairs)
  | some _ :: _, [] => ([], [])
  | some host :: hosts, destination :: destinations =>
    let (slots, pairs) := hostExtension hosts destinations
    (some destination :: slots, (host, destination) :: pairs)

/-- `AppendHostExtension`: one destination per Host hit, in its bucket. Each load row keeps its own
reference to its destination. -/
def appendHostExtension (hostBlocks : List (Option CacheBlockLocation)) (tailAvailableTokens : Nat) : Result
    (List (CacheBlockLocation × CacheBlockLocation) × BlockPool × BlockTable) := do
  assert (table.availableTokens == 0) "host extension must append on a full-page boundary"
  let hosts := hostBlocks.filterMap id
  let (destinations, pool) ← pool.acquireBlocksInBuckets g (hosts.map (pool.bucketOf g))
  fatalCheck (destinations.length == hosts.length) "admission plan no longer fits the block pool"
  let (slots, pairs) := hostExtension hostBlocks destinations
  let pool ← destinations.foldlM BlockPool.retain pool
  pure (pairs, pool,
    { table with blocks := table.blocks ++ slots, availableTokens := tailAvailableTokens })

def placeShape : List (ImageSlot × Option CacheBlockLocation) → List CacheBlockLocation →
    BlockPool → List (Option CacheBlockLocation) → Result (BlockPool × List (Option CacheBlockLocation))
  | [], _, pool, blocks => pure (pool, blocks)
  | (slot, some l) :: rest, fresh, pool, blocks => do
    let pool ← dropSlot pool (blocks.getD slot.slotIndex none)
    placeShape rest fresh pool (blocks.set slot.slotIndex (some l))
  | (slot, none) :: rest, l :: fresh, pool, blocks => do
    let pool ← dropSlot pool (blocks.getD slot.slotIndex none)
    placeShape rest fresh pool (blocks.set slot.slotIndex (some l))
  | (_, none) :: _, [], pool, blocks => pure (pool, blocks)

def acquireShape (shape : ImageTable)
    (claimed : List (Option CacheBlockLocation)) : Result (Option (BlockPool × BlockTable)) := do
  assert (table.numBlocks == 0) "AcquireShape requires a fresh (empty) table"
  assert (claimed.length == shape.slots.length) "claimed blocks must parallel the recorded slots"
  assert (shape.slots.all fun slot => slot.slotIndex < shape.numBlocks)
    "image slot must hold a block inside the recorded table"
  let slots := shape.slots.zip claimed
  let buckets := (slots.filter (·.2.isNone)).map fun slot => pool.bucketOf g slot.1.block
  let (fresh, pool) ← pool.acquireBlocksInBuckets g buckets
  if fresh.length ≠ buckets.length then
    return none
  let (pool, blocks) ← placeShape slots fresh pool (List.replicate shape.numBlocks none)
  return some (pool,
    { blocks := blocks
      availableTokens := shape.availableTokens
      reclaimedPrefixBlocks := shape.reclaimedPrefixBlocks })

/-! ### State tables -/

def shapeStateTable (input : Option CacheBlockLocation) : Result BlockTable := do
  assert table.blocks.isEmpty "ShapeStateTable requires a fresh (empty) table"
  pure { blocks := [input, none], availableTokens := 0, reclaimedPrefixBlocks := 0 }

def releaseStateInput : Result (BlockPool × BlockTable) := do
  assert (table.numBlocks == 2) "a State table has exactly two slots"
  let pool ← dropSlot pool (table.block 0)
  pure (pool, { table with blocks := table.blocks.set 0 none })

def rotateState : Result (BlockPool × BlockTable) := do
  assert (table.numBlocks == 2) "a State table has exactly two slots"
  let pool ← dropSlot pool (table.block 0)
  pure (pool, { table with blocks := [table.block 1, none] })

def installStateInput (input : CacheBlockLocation) : Result BlockTable := do
  assert (table.numBlocks == 2) "a State table has exactly two slots"
  assert (table.block 0).isNone "the input slot is installed only when empty"
  pure { table with blocks := table.blocks.set 0 (some input) }

/-- `acquireStateSlot` for an empty slot, under the message its caller asserts. -/
def acquireStateSlot (slot : Nat)
    (message : String) : Result (Option (CacheBlockLocation × BlockPool × BlockTable)) := do
  assert (table.numBlocks == 2) "a State table has exactly two slots"
  assert (table.block slot).isNone message
  let (fresh, pool) ← pool.acquireBlocks g 1 (bucketLoads pool g table)
  match fresh with
  | [l] => return some (l, pool, { table with blocks := table.blocks.set slot (some l) })
  | _ => return none

def acquireStateLive : Result (Option (CacheBlockLocation × BlockPool × BlockTable)) :=
  acquireStateSlot pool g table 1 "the live slot is acquired only once per step"

def acquireStateInput : Result (Option (CacheBlockLocation × BlockPool × BlockTable)) :=
  acquireStateSlot pool g table 0 "the input slot is acquired only when empty"

def acquireStateCheckpoint : Result (Option (CacheBlockLocation × BlockPool)) := do
  assert (table.numBlocks == 2) "a State table has exactly two slots"
  let (fresh, pool) ← pool.acquireBlocks g 1 (bucketLoads pool g table)
  match fresh with
  | [l] => return some (l, pool)
  | _ => return none

/-! ### Release -/

/-- `ReclaimExpired`: the slots from the reclaimed frontier to the expired one become holes. -/
def reclaimExpired (numExpiredBlocks : Nat) : Result (BlockPool × BlockTable) := do
  let expired := min numExpiredBlocks table.numBlocks
  let frontier := table.reclaimedPrefixBlocks
  let pool ← (table.blocks.take expired |>.drop frontier).foldlM dropSlot pool
  pure (pool, { table with
      blocks := table.blocks.zipIdx.map fun (slot, i) =>
        if frontier ≤ i ∧ i < expired then none else slot
      reclaimedPrefixBlocks := max frontier expired })

def onlyTableAndCache (entries : CacheBlockLocation → Bool) (l : CacheBlockLocation) : Bool :=
  if entries l then pool.useCount l == 2 else pool.unique l

def reclaimableBlockLocationsAt (numExpiredBlocks : Nat) : List CacheBlockLocation :=
  (table.blocks.take (min numExpiredBlocks table.numBlocks) |>.drop table.reclaimedPrefixBlocks
    |>.filterMap id).filter (onlyTableAndCache pool cached)

def releasableStateInput (kind : StateStepKind) : Option CacheBlockLocation :=
  if kind = .keep then none else (table.block 0).filter (onlyTableAndCache pool cached)

def consumeReservedTokens (numTokens : Nat) : Result BlockTable := do
  assert (numTokens ≤ table.availableTokens) "token demand exceeds the available capacity"
  pure { table with availableTokens := table.availableTokens - numTokens }

/-- `Free`: the logical suffix first. -/
def free : Result (BlockPool × BlockTable) := do
  let pool ← table.blocks.reverse.foldlM dropSlot pool
  pure (pool, {})

end GroupAllocator

end TokenSpeed

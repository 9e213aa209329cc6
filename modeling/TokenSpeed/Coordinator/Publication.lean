import TokenSpeed.Cache.BlockTable
import TokenSpeed.Coordinator.Eviction

/-!
# Publication

What a request publishes at an admission, a finish or a retraction (`CompletedPages`), which slots of
which table that is, and the registration that may swap a slot for the key's canonical block.
-/

namespace TokenSpeed

structure TailPublication where
  tailTokens : Nat
  hash : ContentHash
  deriving DecidableEq, Repr

/-- `CompletedPages`. The in-forward checkpoint blocks are the request's own and are passed beside
it, since a publication may replace them. -/
structure CompletedPages where
  prefixHashes : List ContentHash := []
  firstNewPrefixPage : Nat := 0
  tail : Option TailPublication := none
  ownerContinues : Bool := false
  publishState : Bool := false
  stateCheckpointPages : Nat := 0
  boundaryKind : CacheBoundaryKind := .chunk
  streamCompletedToHost : Bool := false
  deriving DecidableEq, Repr

structure RequestProgress where
  completedPages : Option CompletedPages := none
  numComputedTokens : Option Nat := none
  deriving DecidableEq, Repr

structure PublishedRange where
  firstCacheBlock : Nat
  keys : List CacheKey
  boundaryKind : CacheBoundaryKind

namespace CacheCoordinator

variable (c : CacheCoordinator)

def validateProgress (progress : RequestProgress) : Result Unit :=
  match progress.completedPages with
  | none => pure ()
  | some completed => do
    let hashedPages := completed.prefixHashes.length
    assert (completed.firstNewPrefixPage ≤ hashedPages)
      "completed page range lies inside the hashed prefix"
    assert (completed.firstNewPrefixPage < hashedPages || completed.tail.isSome ||
        (completed.publishState && 0 < hashedPages) || 0 < completed.stateCheckpointPages)
      "a publication point without new pages publishes a tail or a state checkpoint"
    assert (completed.stateCheckpointPages ≤ hashedPages)
      "an in-forward State checkpoint lies inside the hashed prefix"
    match completed.tail with
    | none =>
      assert progress.numComputedTokens.isSome
        "completed pages require the request's computed progress"
    | some tail => do
      assert (0 < tail.tailTokens && tail.tailTokens < c.prefixGranularity)
        "a tail lies strictly inside a prefix page"
      assert (!tail.hash.isEmpty) "a tail is published under its hash"
      assert progress.numComputedTokens.isSome
        "completed pages require the request's computed progress"
      assert (progress.numComputedTokens == some (hashedPages * c.prefixGranularity + tail.tailTokens))
        "the tail ends at the request's computed frontier"

variable (i : Nat) (completed : CompletedPages)

def historyBlockKey (block : Nat) : Result CacheKey :=
  let perPage := c.blocksPerBoundary i
  let fullBlocks := completed.prefixHashes.length * perPage
  if block < fullBlocks then
    pure { groupId := i
           contentHash := completed.prefixHashes.getD (block / perPage) []
           pageOffset := block % perPage }
  else
    match completed.tail with
    | some tail => do
      assert (block - fullBlocks < c.tailBlocksFor i tail.tailTokens)
        "a published slot beyond the full pages belongs to the tail"
      pure { groupId := i, contentHash := tail.hash, pageOffset := block - fullBlocks }
    | none => .error (.assertion "a published slot beyond the full pages belongs to the tail")

def historyRange (firstBlock pastEndBlock : Nat) : Result PublishedRange := do
  let keys ← (List.range' firstBlock (pastEndBlock - firstBlock)).mapM
    (c.historyBlockKey i completed)
  pure ⟨firstBlock, keys, completed.boundaryKind⟩

def slidingBoundaries : List Nat :=
  let pages := completed.prefixHashes.length
  (if completed.firstNewPrefixPage < pages then [pages * c.prefixGranularity] else []) ++
    match completed.tail with
    | none => []
    | some tail => [pages * c.prefixGranularity + tail.tailTokens]

/-- The tail blocks a publication ends with in group `i`. -/
def publishedTailBlocks : Nat :=
  match completed.tail with
  | none => 0
  | some tail => c.tailBlocksFor i tail.tailTokens

def completedBlockRanges : Result (List PublishedRange) :=
  if c.groupIsReplayable i then pure []
  else
    match (c.spec i).attnKind with
    | .full => do
      let firstBlock := completed.firstNewPrefixPage * c.blocksPerBoundary i
      let pastEndBlock := completed.prefixHashes.length * c.blocksPerBoundary i +
        c.publishedTailBlocks i completed
      if firstBlock < pastEndBlock then
        return [← c.historyRange i completed firstBlock pastEndBlock]
      else return []
    | .state =>
      -- Slot 1 holds the state at the publication point.
      match completed.publishState, completed.tail, completed.prefixHashes.getLast? with
      | true, some tail, _ => pure [⟨1, [⟨0, i, tail.hash, 0⟩], completed.boundaryKind⟩]
      | true, none, some hash => pure [⟨1, [⟨0, i, hash, 0⟩], completed.boundaryKind⟩]
      | _, _, _ => pure []
    | .slidingWindow =>
      let windows := (c.slidingBoundaries completed).map (c.slidingWindowBlocks i)
      (windows.filter fun w => w.first < w.pastEnd).mapM fun w =>
        c.historyRange i completed w.first w.pastEnd

/-! ## Registration -/

/-- One `Register` on the Device, with its report and its queued store. -/
def registerBlock (block : CacheBlockLocation) (key : CacheKey) (epoch : Nat) (logicalBlockIndex : Nat)
    (kind : CacheBoundaryKind) (streams : Bool) : Result (CacheBlockLocation × CacheCoordinator) := do
  let (es, pool, block, inserted) ← (c.deviceEntries i).register c.pool i block key epoch
    logicalBlockIndex kind
  let c := { c with pool := pool }.setDeviceEntries i es
  if inserted then
    let c := c.report key .stored
    return (block, if streams then { c with pendingStores := c.pendingStores ++ [key] } else c)
  else return (block, c)

/-- `cacheBlocksForGroup` on the Device: `RegisterFullBlocks` over a window of slots. -/
def cacheBlocksForGroup (i : Nat) (kind : CacheBoundaryKind) (epoch : Nat) (streams : Bool) :
    CacheCoordinator → Nat → List (Option CacheBlockLocation × CacheKey) →
      Result (List (Option CacheBlockLocation) × CacheCoordinator)
  | c, _, [] => pure ([], c)
  | c, logical, (none, _) :: rest => do
    let (blocks, c) ← cacheBlocksForGroup i kind epoch streams c (logical + 1) rest
    pure (none :: blocks, c)
  | c, logical, (some block, key) :: rest => do
    let (block, c) ← c.registerBlock i block key epoch logical kind streams
    let (blocks, c) ← cacheBlocksForGroup i kind epoch streams c (logical + 1) rest
    pure (some block :: blocks, c)

/-- `automatically_streams_to_host`. -/
def streamsToHost (streamCompletedToHost : Bool) : Bool :=
  c.streamDeviceCacheToHost &&
    ((c.spec i).attnKind == .slidingWindow || streamCompletedToHost)

/-- `cacheFullBlocksForGroup`: the window `BlocksToPublish` issues, published and written back. -/
def cacheFullBlocksForGroup (table : BlockTable) (range : PublishedRange) (epoch : Nat)
    (streamCompletedToHost : Bool) : Result (BlockTable × CacheCoordinator) := do
  if c.groupIsReplayable i then
    return (table, c)
  let last := range.firstCacheBlock + range.keys.length
  assert (last ≤ table.numBlocks) "publish window exceeds table size"
  let window := (table.blocks.drop range.firstCacheBlock).take range.keys.length
  let (blocks, c) ← cacheBlocksForGroup i range.boundaryKind epoch
    (c.streamsToHost i streamCompletedToHost) c range.firstCacheBlock (window.zip range.keys)
  return ({ table with
      blocks := table.blocks.take range.firstCacheBlock ++ blocks ++ table.blocks.drop last }, c)

/-- The in-forward State checkpoint of `cacheCompletedBlocksForGroup`. -/
def cacheStateCheckpoint (checkpoint : Option CacheBlockLocation) (epoch : Nat) : Result
    (Option CacheBlockLocation × CacheCoordinator) :=
  match checkpoint with
  | some block =>
    if c.groupIsState i && 0 < completed.stateCheckpointPages then do
      assert (completed.stateCheckpointPages ≤ completed.prefixHashes.length)
        "an in-forward State checkpoint lies inside the hashed prefix"
      let hash := completed.prefixHashes.getD (completed.stateCheckpointPages - 1) []
      let (block, c) ← c.registerBlock i block ⟨0, i, hash, 0⟩ epoch 1 .endpoint
        (c.streamsToHost i completed.streamCompletedToHost)
      pure (some block, c)
    else pure (some block, c)
  | none => pure (none, c)

/-- `cacheCompletedBlocksForGroup` on the Device. -/
def cacheCompletedBlocksForGroup (table : BlockTable)
    (checkpoint : Option CacheBlockLocation) (completed : CompletedPages) (epoch : Nat) :
    Result (BlockTable × Option CacheBlockLocation × CacheCoordinator) := do
  let ranges ← c.completedBlockRanges i completed
  let publish (s : BlockTable × CacheCoordinator) (range : PublishedRange) :=
    s.2.cacheFullBlocksForGroup i s.1 range epoch completed.streamCompletedToHost
  let (table, c) ← ranges.foldlM publish (table, c)
  let (checkpoint, c) ← c.cacheStateCheckpoint i completed checkpoint epoch
  pure (table, checkpoint, c)

def recordPublishedTail : Result CacheCoordinator :=
  match completed.tail with
  | none => pure c
  | some tail =>
    c.recordTail (completed.prefixHashes.getLast?.getD []) tail.tailTokens tail.hash

structure Holding where
  tables : Nat → BlockTable := fun _ => {}
  checkpoints : Nat → Option CacheBlockLocation := fun _ => none

def Holding.setTable (h : Holding) (i : Nat) (table : BlockTable) : Holding :=
  { h with tables := Function.update h.tables i table }

def Holding.setCheckpoint (h : Holding) (i : Nat) (block : Option CacheBlockLocation) : Holding :=
  { h with checkpoints := Function.update h.checkpoints i block }

def publishGroup (epoch : Nat) (s : Holding × CacheCoordinator) (i : Nat) : Result (Holding × CacheCoordinator) := do
  let (table, checkpoint, c) ← s.2.cacheCompletedBlocksForGroup i (s.1.tables i)
    (s.1.checkpoints i) completed epoch
  pure ((s.1.setTable i table).setCheckpoint i checkpoint, c)

def cacheCompletedBlocks (h : Holding) (progress : RequestProgress) (epoch : Nat) :
    Result (Holding × CacheCoordinator) :=
  match progress.completedPages with
  | none => .error (.assertion "publication requires completed pages")
  | some completed => do
    assert (!completed.ownerContinues)
      "a publication outside an admission has no capacity for the owner's fresh block"
    c.validateProgress progress
    let (h, c) ← (List.range c.groups.length).foldlM (publishGroup completed epoch) (h, c)
    let c ← c.recordPublishedTail completed
    pure (h, c)

end CacheCoordinator

end TokenSpeed

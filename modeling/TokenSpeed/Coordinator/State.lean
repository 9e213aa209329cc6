import TokenSpeed.Cache.PrefixIndex

/-!
# The cache coordinator's state

The members of `CacheCoordinator` (`cache/coordinator/cache_coordinator.h`) and the geometry every
operation reads. A block reference is the location it owns, in the pool of the place that holds it.
`mutations` is what was reported to the mutation sink, oldest first.
-/

namespace TokenSpeed

inductive CacheMutation where
  | stored
  | removed
  deriving DecidableEq, Repr

structure CacheCoordinator where
  groups : List CacheGroupSpec
  prefixGranularity : Nat
  sha256 : List Nat → List Nat
  pool : BlockPool
  hostPool : Option BlockPool
  snapshotPool : Option BlockPool
  streamDeviceCacheToHost : Bool
  enableL3Storage : Bool
  deviceEntries : Nat → CacheEntries
  hostEntries : Nat → CacheEntries
  tails : TailTable
  pendingStores : List CacheKey
  nextAccessEpoch : Nat
  mutations : List (CacheKey × CacheMutation)

namespace CacheCoordinator

def make (groups : List CacheGroupSpec) (prefixGranularity : Nat) (sha256 : List Nat → List Nat)
    (numDeviceBlocks : Nat) (numHostBlocks numSnapshotBlocks : Option Nat)
    (streamDeviceCacheToHost enableL3Storage : Bool) : CacheCoordinator :=
  let newPool (n : Nat) : BlockPool := BlockPool.make n
    (fun i => (groups.getD i {}).cacheBlocksPerLcmBlock) (fun i => (groups.getD i {}).shardCount)
  { groups := groups
    prefixGranularity := prefixGranularity
    sha256 := sha256
    pool := newPool numDeviceBlocks
    hostPool := numHostBlocks.map newPool
    snapshotPool := numSnapshotBlocks.map newPool
    streamDeviceCacheToHost := streamDeviceCacheToHost
    enableL3Storage := enableL3Storage
    deviceEntries := fun _ => []
    hostEntries := fun _ => []
    tails := {}
    pendingStores := []
    nextAccessEpoch := 0
    mutations := [] }

variable (c : CacheCoordinator)

variable (tier : CacheTier) (i : Nat)

def spec : CacheGroupSpec := c.groups.getD i {}

def groupIsState : Bool := (c.spec i).attnKind == .state

/-- `Matcher().IsPrefixClosed()`: full attention alone. -/
def groupIsClosed : Bool := (c.spec i).attnKind == .full

def groupIsReplayable : Bool := (c.spec i).replayable

def granularity : Nat := (c.spec i).blockGranularity

def blocksPerBoundary : Nat :=
  if c.groupIsState i then 1 else c.prefixGranularity / c.granularity i

/-- `match_order_`: the closed groups, then the others; replayable groups take no part. -/
def matchOrder : List Nat :=
  (List.range c.groups.length).filter (fun i => c.groupIsClosed i) ++
    (List.range c.groups.length).filter (fun i => !c.groupIsClosed i && !c.groupIsReplayable i)

/-- `replay_window_tokens_`: the largest window over the replayable groups. -/
def replayWindowTokens : Nat :=
  (c.groups.map fun s => if s.replayable then s.slidingWindow else 0).foldr max 0

def replayTokens (hitTokens : Nat) : Nat := min c.replayWindowTokens hitTokens

def hashPage (tokens : List Token) (prior : ContentHash) : ContentHash :=
  hashPrefixPage c.sha256 tokens prior

def entries : CacheEntries :=
  match tier with
  | .device => c.deviceEntries i
  | .host => c.hostEntries i

def contains (key : CacheKey) : Bool :=
  (c.entries tier key.groupId).containsKey key

/-! ## Block arithmetic -/

/-- Rounding up: the blocks of `granularity` tokens that cover `tokens`. -/
def blocksCovering (granularity tokens : Nat) : Nat := (tokens + granularity - 1) / granularity

def tailBlocksFor (tailTokens : Nat) : Nat :=
  if c.groupIsState i then 1 else blocksCovering (c.granularity i) tailTokens

def keysForGroup (contentHashes : List ContentHash) (i : Nat) : List CacheKey :=
  contentHashes.flatMap fun h =>
    (List.range (c.blocksPerBoundary i)).map fun offset =>
      { groupId := i, contentHash := h, pageOffset := offset }

def tailKeysForGroup (hash : ContentHash) (tailTokens : Nat) : List CacheKey :=
  (List.range (c.tailBlocksFor i tailTokens)).map fun offset =>
    { groupId := i, contentHash := hash, pageOffset := offset }

structure BlockRange where
  first : Nat
  pastEnd : Nat
  deriving DecidableEq, Repr

/-- `SlidingWindowBlocks`: the blocks holding rows `[T - W + 1, T)`. -/
def slidingWindowBlocks (boundaryTokens : Nat) : BlockRange :=
  let pastEnd := blocksCovering (c.granularity i) boundaryTokens
  let firstRow := boundaryTokens + 1 - (c.spec i).slidingWindow
  if firstRow ≥ boundaryTokens then ⟨pastEnd, pastEnd⟩
  else ⟨firstRow / c.granularity i, pastEnd⟩

def firstTailBlockNeeded (tailTokens : Nat) : Nat :=
  if (c.spec i).attnKind = .slidingWindow then
    (tailTokens + 1 - (c.spec i).slidingWindow) / c.granularity i
  else 0

/-! ## What the constructor checks -/

/-- The assertions of `MakeCoordinator` and the constructor about one group. -/
structure GroupOk (i : Nat) : Prop where
  state_span : c.groupIsState i = true → c.granularity i = 0
  span_pos : c.groupIsState i = false → 0 < c.granularity i
  span_dvd : c.groupIsState i = false → c.granularity i ∣ c.prefixGranularity
  window_pos : (c.spec i).attnKind = .slidingWindow → 0 < (c.spec i).slidingWindow
  replayable_sliding : c.groupIsReplayable i = true → (c.spec i).attnKind = .slidingWindow
  packing_pos : 0 < (c.spec i).cacheBlocksPerLcmBlock
  shard_pos : 0 < (c.spec i).shardCount
  shard_dvd : (c.spec i).shardCount ∣ (c.spec i).cacheBlocksPerLcmBlock

structure ConfigOk : Prop where
  granularity_pos : 0 < c.prefixGranularity
  group_ok : ∀ i < c.groups.length, c.GroupOk i

end CacheCoordinator

end TokenSpeed

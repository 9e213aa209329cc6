import TokenSpeed.Coordinator.HostAllocation
import TokenSpeed.Coordinator.Probe

/-!
# The coordinator's side of L3 storage

`AcquireHostCachedBlock`, `CacheHostBlock`, `CacheHostTail`, `MissingStorageKeys` and
`ReserveStoragePrefix` of `cache/coordinator/cache_coordinator.cpp`.
-/

namespace TokenSpeed

structure StorageReservation where
  keys : List CacheKey := []
  blocks : List CacheBlockLocation := []
  tailPrior : ContentHash := []
  tail : Option TailPublication := none

structure StorageQuery where
  keys : List CacheKey := []
  maxTokens : Nat := 0

namespace CacheCoordinator

variable (c : CacheCoordinator)

def retainHost (c : CacheCoordinator) (l : CacheBlockLocation) : Result CacheCoordinator :=
  match c.hostPool with
  | none => .error (.fatal "cannot retain a destroyed or saturated CacheBlockControl")
  | some hostPool => do
    let hostPool ← hostPool.retain l
    pure { c with hostPool := some hostPool }

def dropHost (c : CacheCoordinator) (l : CacheBlockLocation) : Result CacheCoordinator :=
  match c.hostPool with
  | none => .error (.fatal "CacheBlockControl release requires a live reference")
  | some hostPool => do
    let hostPool ← hostPool.drop l
    pure { c with hostPool := some hostPool }

def acquireHostCachedBlock (key : CacheKey) : Result (Option CacheBlockLocation × CacheCoordinator) :=
  if c.hostPool.isNone then pure (none, c)
  else do
    assert (key.groupId < c.groups.length) "vector::_M_range_check"
    match (c.hostEntries key.groupId).findKey key with
    | none => pure (none, c)
    | some e => do
      let c ← c.retainHost e.block
      pure (some e.block, c)

def containsHostCachedBlock (key : CacheKey) : Bool := c.hostPool.isSome && c.contains .host key

/-- `CacheHostBlock`: the block becomes the key's entry, or the caller now holds the key's canonical
block. -/
def cacheHostBlock (block : CacheBlockLocation) (key : CacheKey) : Result (CacheBlockLocation × CacheCoordinator) :=
  match c.hostPool with
  | none => .error (.assertion "CacheHostBlock requires a host pool")
  | some hostPool => do
    assert (key.groupId < c.groups.length) "CacheHostBlock group id out of range"
    let (es, hostPool, block, _) ← (c.hostEntries key.groupId).register hostPool key.groupId block key
      (c.nextAccessEpoch + 1) (-1) .chunk
    pure (block, { c with
        hostPool := some hostPool
        hostEntries := Function.update c.hostEntries key.groupId es
        nextAccessEpoch := c.nextAccessEpoch + 1 })

/-- `CacheHostTail`: a tail is recorded once the Host holds a block under it. -/
def cacheHostTail (prior : ContentHash) (tail : TailPublication) : Result CacheCoordinator :=
  if (List.range c.groups.length).any fun i =>
      (c.tailKeysForGroup i tail.hash tail.tailTokens).any c.containsHostCachedBlock then
    c.recordTail prior tail.tailTokens tail.hash
  else pure c

/-! ## Dependencies -/

variable (prompt : PromptPrefix) (probe : ProbeTier) (groupKeys : Nat → List CacheKey) (floorTokens : Nat)

/-- `forEachStorageDependency`: the keys a probe relies on with their logical blocks, group by
group. -/
def storageDependencies : List (CacheKey × Nat) :=
  (List.range c.groups.length).flatMap fun i =>
    let first := floorTokens / c.prefixGranularity * c.blocksPerBoundary i
    let pages := (probe.perGroup i).zipIdx.filterMap fun hit =>
      if hit.1 then some ((groupKeys i).getD (first + hit.2) {}, first + hit.2) else none
    let tails := match probe.tail with
      | none => []
      | some tail =>
        let fullBlocks := probe.fullPageTokens /
          (if c.groupIsState i then c.prefixGranularity else c.granularity i)
        (tail.perGroup i).zipIdx.filterMap fun hit =>
          if hit.1 then some ((tail.groupKeys i).getD hit.2 {}, fullBlocks + hit.2) else none
    pages ++ tails

/-- The candidates of `MissingStorageKeys`: the boundaries above the local match, a tail only when its
hash is the prompt's own. -/
def storageCandidates (localTokens : Nat) : List CandidateBoundary :=
  (c.candidateBoundaries prompt floorTokens prompt.maxTokens (prompt.maxTokens / c.prefixGranularity)).filter
    fun b => decide (localTokens < b.tokens) && (b.tailTokens == 0 ||
      c.hashPage ((prompt.tokens.drop b.pageTokens).take b.tailTokens)
        (priorHash prompt.prefixHashes (b.pageTokens / c.prefixGranularity)) == b.hash)

def possibleKeys (candidates : List CandidateBoundary) : List CacheKey :=
  c.matchOrder.flatMap fun i =>
    let perPrefix := c.blocksPerBoundary i
    let first := floorTokens / c.prefixGranularity * perPrefix
    let last := prompt.maxTokens / c.prefixGranularity * perPrefix
    (((groupKeys i).take last).drop first) ++
      candidates.flatMap fun b => if 0 < b.tailTokens then c.tailKeysForGroup i b.hash b.tailTokens else []

def cutAt (b : CandidateBoundary) : PromptPrefix :=
  { prompt with
    maxTokens := b.tokens
    tail := if 0 < b.tailTokens then some ⟨b.tailTokens, b.hash⟩ else none }

/-- One candidate of `MissingStorageKeys`: its keys join the query when they all fit. -/
def addCandidate (maxKeys : Nat)
    (possible : List CacheKey) (query : StorageQuery) (b : CandidateBoundary) : Result StorageQuery := do
  let probe := c.probeTier .host (cutAt prompt b) groupKeys c.matchOrder floorTokens true fun key =>
    decide (key ∈ possible)
  assert (probe.numCommonTokens == b.tokens) "an optimistic candidate must match completely"
  let additional := ((c.storageDependencies probe groupKeys floorTokens).map (·.1)).filter fun key =>
    !c.containsHostCachedBlock key && decide (key ∉ query.keys)
  let additional := additional.reverse.dedup.reverse
  if query.keys.length + additional.length ≤ maxKeys then
    pure { keys := query.keys ++ additional, maxTokens := max query.maxTokens b.tokens }
  else pure query

def addCandidates (prompt : PromptPrefix) (groupKeys : Nat → List CacheKey) (floorTokens maxKeys : Nat)
    (possible : List CacheKey) : List CandidateBoundary → StorageQuery → Result StorageQuery
  | [], query => pure query
  | b :: rest, query => do
    let next ← c.addCandidate prompt groupKeys floorTokens maxKeys possible query b
    if next.keys.length = maxKeys then pure next
    else addCandidates prompt groupKeys floorTokens maxKeys possible rest next

def missingStorageKeys (maxKeys : Nat) : Result StorageQuery := do
  let probe ← c.probePromptPrefix prompt
  let localTokens := max probe.device.numCommonTokens probe.host.numCommonTokens
  let floorTokens := max probe.device.fullPageTokens probe.host.fullPageTokens
  if maxKeys = 0 ∨ prompt.maxTokens ≤ localTokens then
    return { maxTokens := localTokens }
  let candidates := c.storageCandidates prompt floorTokens localTokens
  c.addCandidates prompt probe.groupKeys floorTokens maxKeys
    (c.possibleKeys prompt probe.groupKeys floorTokens candidates) candidates { maxTokens := localTokens }

/-! ## Reservation -/

/-- What `pin` collects: the warm blocks, and the keys to read with their requests. -/
structure StoragePins where
  coord : CacheCoordinator
  warm : List CacheBlockLocation := []
  keys : List CacheKey := []
  requests : List HostRequest := []

/-- `pin`. -/
def pinDependency (s : StoragePins) (dependency : CacheKey × Nat) : Result StoragePins := do
  let (found, c) ← s.coord.acquireHostCachedBlock dependency.1
  match found with
  | some l => pure { s with coord := c, warm := s.warm ++ [l] }
  | none =>
    pure
      { s with
        coord := c
        keys := s.keys ++ [dependency.1]
        requests := s.requests ++
          [(dependency.1.groupId, dependency.2 % (c.spec dependency.1.groupId).shardCount)] }

def reserveBlocks (s : StoragePins) (maxBlocks : Nat) : Result (Option (List CacheBlockLocation) × CacheCoordinator) :=
  if s.keys.length + s.warm.length ≤ maxBlocks then do
    let (blocks, c) ← s.coord.acquireHostBlocks s.requests
    if blocks.all (·.isSome) then pure (some (blocks.filterMap id), c)
    else do
      let c ← (blocks.filterMap id).foldlM dropHost c
      pure (none, c)
  else pure (none, s.coord)

def reservedTail : ContentHash × Option TailPublication :=
  match probe.tail with
  | none => ([], none)
  | some tail =>
    (priorHash prompt.prefixHashes (probe.fullPageTokens / c.prefixGranularity),
      some { tailTokens := tail.tailTokens, hash := tail.hash })

/-- The loop of `ReserveStoragePrefix`, over a bound on its rounds: the candidate shrinks below the
boundary it matched until its destinations fit. -/
def reserveLoop (prompt : PromptPrefix) (hits : List CacheKey) (maxBlocks deviceTokens floorTokens : Nat)
    (groupKeys : Nat → List CacheKey) :
    Nat → CacheCoordinator → PromptPrefix → Result (StorageReservation × CacheCoordinator)
  | 0, c, _ => pure ({}, c)
  | rounds + 1, c, candidate =>
    if candidate.maxTokens ≤ deviceTokens then pure ({}, c)
    else
      let probe := c.probeTier .host candidate groupKeys c.matchOrder floorTokens true fun key =>
        decide (key ∈ hits)
      if probe.numCommonTokens ≤ deviceTokens then pure ({}, c)
      else do
        let s ← (c.storageDependencies probe groupKeys floorTokens).foldlM pinDependency { coord := c }
        if s.keys.isEmpty then do
          let c ← s.warm.foldlM dropHost s.coord
          pure ({}, c)
        else do
          let (blocks, c) ← reserveBlocks s maxBlocks
          let c ← s.warm.foldlM dropHost c
          match blocks with
          | some blocks =>
            let (tailPrior, tail) := c.reservedTail prompt probe
            pure ({ keys := s.keys, blocks := blocks, tailPrior := tailPrior, tail := tail }, c)
          | none =>
            reserveLoop prompt hits maxBlocks deviceTokens floorTokens groupKeys rounds c
              { candidate with maxTokens := probe.numCommonTokens - 1, tail := none }

def reserveStoragePrefix (hits : List CacheKey) (maxBlocks : Nat) : Result (StorageReservation × CacheCoordinator) := do
  let probe ← c.probePromptPrefix prompt
  reserveLoop prompt hits maxBlocks probe.device.numCommonTokens probe.device.fullPageTokens probe.groupKeys
    (prompt.maxTokens + 1) c prompt

end CacheCoordinator

end TokenSpeed

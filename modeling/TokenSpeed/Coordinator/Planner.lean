import TokenSpeed.Coordinator.Probe

/-!
# The admission planner

`AdmissionPlanner` of `cache/coordinator/cache_admission.cpp`. It counts what each group needs, bucket
by bucket and densely, and removes evictable blocks from shadow counters until the need fits; blocks
whose capacity is not needed after all are put back, newest first.
-/

namespace TokenSpeed

open Function

structure PlannedShape where
  blocksByBucket : Nat → Nat
  availableTokens : Nat

structure TailSlots where
  first : Nat
  pastEnd : Nat
  availableTokens : Nat
  deriving DecidableEq, Repr

def tailSlots (granularity prefixGranularity tokens : Nat) : TailSlots :=
  let pastEnd := (tokens + granularity - 1) / granularity
  { first := (tokens - tokens % prefixGranularity) / granularity
    pastEnd := pastEnd
    availableTokens := pastEnd * granularity - tokens }

abbrev Victim := Nat × CacheBlockLocation

/-- `EvictionTier`, in eviction order. -/
inductive EvictionTier where
  | uncached
  | probationaryBoundary
  | establishedBoundary
  | closedPrefix
  deriving DecidableEq, Repr

def EvictionTier.rank : EvictionTier → Nat
  | uncached => 0
  | probationaryBoundary => 1
  | establishedBoundary => 2
  | closedPrefix => 3

structure VictimCandidate where
  groupId : Nat
  location : CacheBlockLocation
  lastAccessEpoch : Nat
  evictionTier : EvictionTier
  positionRank : Int
  deriving DecidableEq, Repr

def VictimCandidate.evictionKey (v : VictimCandidate) : Nat ×ₗ Nat ×ₗ Int ×ₗ Nat ×ₗ Nat ×ₗ Nat :=
  toLex (v.lastAccessEpoch, toLex (v.evictionTier.rank, toLex (v.positionRank,
    toLex (v.groupId, toLex (v.location.lcmBlockId, v.location.slotIndex)))))

structure Shadow where
  holes : Nat → Nat → Nat
  occupied : Nat → Nat
  emptyParents : Nat

structure PlannerInput where
  tables : Nat → BlockTable
  demands : Nat → GroupDemand
  progress : RequestProgress
  probe : PrefixProbe
  /-- A restore's shapes; an admission has none. -/
  shapes : Option (Nat → PlannedShape) := none
  claimed : List Victim := []

namespace CacheCoordinator

variable (c : CacheCoordinator) (input : PlannerInput)

/-! ## Capacity -/

variable (s : Shadow) (v : Victim) (protectedLocs : List CacheBlockLocation) (i : Nat)

/-- `Index().Contains(block)` on the Device. -/
def deviceCached (l : CacheBlockLocation) : Bool := (c.deviceEntries i).containsBlock l

/-- `MatchedLocations` over a tail's keys. -/
def tailHitLocations (tail : TailHit) : Result (List CacheBlockLocation) :=
  (c.deviceEntries i).matchedLocations ((tail.groupKeys i).zip (tail.perGroup i))

def tailLocations : Option TailHit → Result (List CacheBlockLocation)
  | none => pure []
  | some tail => c.tailHitLocations i tail

def tailGrowth (tail : TailHit) : Result Int :=
  let g := c.granularity i
  match (input.demands i).extent with
  | .dense numTokens =>
    let partialRows := tail.tailTokens % g
    let available := if partialRows = 0 then 0 else g - partialRows
    let growth := numTokens + (input.demands i).reserveTokens
    pure ((GroupGeometry.blocksNeededBeyond g available growth : Int) -
      GroupGeometry.blocksNeededBeyond g (input.tables i).availableTokens growth)
  | .sparse _ firstBlock => do
    assert (tail.tailTokens ≤ firstBlock * g) "a sparse suffix lands past the hit's tail blocks"
    pure 0
  | .state _ _ => .error (.assertion "a sparse suffix lands past the hit's tail blocks")

/-- `tailBlocksNeeded`: the copies of a Device tail by bucket, and the dense blocks it adds to the
growth the live table shows. -/
def tailBlocksNeeded : Result ((Nat → Nat) × Int) :=
  match input.probe.device.tail with
  | none => pure (fun _ => 0, 0)
  | some tail =>
    if c.groupIsState i || (tail.groupKeys i).isEmpty then pure (fun _ => 0, 0)
    else do
      let copied ← c.tailHitLocations i tail
      let holes : Int := (tail.groupKeys i).length - copied.length -
        c.firstTailBlockNeeded i tail.tailTokens
      let growth ← c.tailGrowth input i tail
      pure (fun b => copied.countP fun l => c.pool.bucketOf i l == b, holes + growth)

/-- `collectOwnerCopyBuckets`: the blocks the owner's copy-in reads, as the publication will leave
them, and whether one of them lies in another bucket than the owner's own block. -/
def ownerCopies : List (CacheBlockLocation × CacheBlockLocation) :=
  match input.progress.completedPages, input.progress.numComputedTokens with
  | some completed, some computed =>
    match completed.ownerContinues, completed.tail with
    | true, some tail =>
      if c.groupIsState i || c.groupIsReplayable i then []
      else
        let slots := tailSlots (c.granularity i) c.prefixGranularity computed
        let first := max slots.first
          (GroupGeometry.expiredBlocksAt (c.granularity i) (c.spec i) computed)
        let pastEnd := min slots.pastEnd (input.tables i).numBlocks
        (List.range' first (pastEnd - first)).filterMap fun slot =>
          ((input.tables i).block slot).map fun block =>
            (block, (((c.deviceEntries i).findKey ⟨0, i, tail.hash, slot - slots.first⟩).map (·.block)).getD block)
    | _, _ => []
  | _, _ => []

def ownerCopyChangesBucket : Bool :=
  (List.range c.groups.length).any fun i =>
    (c.ownerCopies input i).any fun copy => c.pool.bucketOf i copy.2 != c.pool.bucketOf i copy.1

def tailAnyHit : Option TailHit → Bool
  | none => false
  | some tail => (tail.perGroup i).any id

def tierAnyHit (tier : ProbeTier) : Bool := (tier.perGroup i).any id || tailAnyHit i tier.tail

def stateCheckpointMatched : Bool :=
  tierAnyHit i input.probe.device || tierAnyHit i input.probe.host ||
    tailAnyHit i input.probe.stateAtPromptEnd

def zeroStateBlocksNeeded : Nat :=
  if c.groupIsState i && (input.tables i).numBlocks == 0 then
    match (input.demands i).extent with
    | .state .rotate _ => if stateCheckpointMatched input i then 0 else 1
    | _ => 0
  else 0

def hostPageHits (probe : PrefixProbe) : List (CacheKey × Bool) :=
  let span := if c.groupIsState i then c.prefixGranularity else c.granularity i
  ((probe.groupKeys i).drop (probe.device.fullPageTokens / span)).zip (probe.host.perGroup i)

/-- `collectHostHitBuckets`: the Host block of each hit; one not there yet takes bucket 0. -/
def hostHitBuckets : Result (List Nat) := do
  let probe := input.probe
  let span := if c.groupIsState i then c.prefixGranularity else c.granularity i
  assert (((probe.host.perGroup i).drop ((probe.groupKeys i).length - probe.device.fullPageTokens / span)).all (! ·))
    "host prefix hit is outside the probed key range"
  let tailHits := match probe.host.tail with
    | none => []
    | some tail => (tail.groupKeys i).zip (tail.perGroup i)
  pure (((c.hostPageHits i probe ++ tailHits).filter (·.2)).map fun hit =>
    match (c.hostEntries i).findKey hit.1 with
    | none => 0
    | some e => c.pool.bucketOf i e.block)

def hostShare : Result (List Nat) :=
  if c.hostPool.isSome then c.hostHitBuckets input i else pure []

def restoredGrowth (shapes : Nat → PlannedShape) (i : Nat) : Result Nat :=
  match (input.demands i).extent with
  | .state kind _ => do
    assert (kind == .keep) "a restore rebuilds a State table as imaged"
    pure 0
  | .dense numTokens =>
    pure (GroupGeometry.blocksNeededBeyond (c.granularity i) (shapes i).availableTokens
      (numTokens + (input.demands i).reserveTokens))
  | .sparse _ _ => .error (.assertion "a restore demand grows the rebuilt table densely")

/-- One group's share of `initializeCapacity`. -/
def groupNeed : Result ((Nat → Nat) × Nat) :=
  match input.shapes with
  | none => do
    let growth ← GroupGeometry.blocksNeededFor (c.granularity i) (input.tables i) (input.demands i)
    let (tailCopies, tailDense) ← c.tailBlocksNeeded input i
    let hostBuckets ← c.hostShare input i
    let owner := c.ownerCopies input i
    assert (0 ≤ growth + tailDense) "dense demand must be non-negative"
    pure (fun b => tailCopies b + owner.countP (fun copy => c.pool.bucketOf i copy.2 == b) + hostBuckets.count b,
      ((growth : Int) + tailDense).toNat + c.zeroStateBlocksNeeded input i)
  | some shapes => do
    assert ((input.tables i).numBlocks == 0) "a restore rebuilds into an empty table"
    let dense ← c.restoredGrowth input shapes i
    pure ((shapes i).blocksByBucket, dense)

/-- `initializeCapacity`: the need of every group. -/
def plannedNeed : Result Need :=
  (List.range c.groups.length).foldlM (fun need i => do
      let (shape, dense) ← c.groupNeed input i
      pure { shape := update need.shape i shape, dense := update need.dense i dense })
    { shape := fun _ _ => 0, dense := fun _ => 0 }

def initialShadow : Shadow where
  holes := c.pool.freeSlotsByBucket
  occupied := c.pool.occupants
  emptyParents := c.pool.numEmptyLcmBlocks

def shadowWithout : Shadow :=
  let last := s.occupied v.2.lcmBlockId == 1
  { holes := update s.holes v.1 fun b =>
      (s.holes v.1 b + if b = c.pool.bucketOf v.1 v.2 then 1 else 0) -
        if last then c.pool.packing v.1 / c.pool.shardCount v.1 else 0
    occupied := update s.occupied v.2.lcmBlockId (s.occupied v.2.lcmBlockId - 1)
    emptyParents := if last then s.emptyParents + 1 else s.emptyParents }

def removeOccupant : Result Shadow := do
  assert (c.pool.boundGroup v.2.lcmBlockId == some v.1)
    "released admission location belongs to another group"
  assert (0 < s.occupied v.2.lcmBlockId) "admission released the same location twice"
  pure (c.shadowWithout s v)

def shadowWith : Shadow :=
  let reopened := s.occupied v.2.lcmBlockId == 0
  { holes := update s.holes v.1 fun b =>
      (s.holes v.1 b + if reopened then c.pool.packing v.1 / c.pool.shardCount v.1 else 0) -
        if b = c.pool.bucketOf v.1 v.2 then 1 else 0
    occupied := update s.occupied v.2.lcmBlockId (s.occupied v.2.lcmBlockId + 1)
    emptyParents := if reopened then s.emptyParents - 1 else s.emptyParents }

def restoreOccupant : Result Shadow := do
  if s.occupied v.2.lcmBlockId = 0 then
    assert (0 < s.emptyParents) "restoring an admission victim underflowed empty parents"
  else
    assert (s.occupied v.2.lcmBlockId < c.pool.packing v.1)
      "restoring an admission victim overflowed its parent"
  pure (c.shadowWith s v)

def fits (need : Need) (s : Shadow) : Bool :=
  ∑ i ∈ Finset.range c.groups.length,
    parentsNeededForBuckets (c.pool.shardCount i) (need.shape i) (s.holes i) (need.dense i)
      (c.pool.packing i) ≤ s.emptyParents

/-! ## Candidates -/

def makeVictimCandidate (l : CacheBlockLocation) (entry : Option CacheEntry) : VictimCandidate :=
  let epoch := (entry.map (·.lastAccessEpoch)).getD 0
  let logical : Int := (entry.map (·.logicalBlockIndex)).getD (-1)
  let kind := (entry.map (·.boundaryKind)).getD .chunk
  let acquired := (entry.map (·.wasAcquired)).getD false
  let closed := c.groupIsClosed i
  let probationary := !closed && kind == .chunk && !acquired && decide (0 ≤ logical)
  { groupId := i
    location := l
    lastAccessEpoch := epoch
    evictionTier :=
      if epoch = 0 then .uncached
      else if probationary then .probationaryBoundary
      else if closed then .closedPrefix else .establishedBoundary
    positionRank :=
      if probationary then logical else if closed && decide (0 ≤ logical) then -logical else 0 }

/-- `protectDedupedTail`. -/
def dedupedTailLocations : List CacheBlockLocation :=
  if c.ownerCopyChangesBucket input then
    match input.progress.completedPages.bind (·.tail) with
    | none => []
    | some tail => (List.range c.groups.length).flatMap fun i =>
      (c.tailKeysForGroup i tail.hash tail.tailTokens).filterMap fun key =>
        ((c.deviceEntries i).findKey key).map (·.block)
  else []

/-- The hits of the probe in group `i`: pages, tail and the state at the prompt's end. -/
def probeHitLocations : Result (List CacheBlockLocation) := do
  let es := c.deviceEntries i
  let pages ← es.matchedLocations
    ((input.probe.groupKeys i).zip (input.probe.device.perGroup i))
  let tail ← c.tailLocations i input.probe.device.tail
  let state ← c.tailLocations i input.probe.stateAtPromptEnd
  pure (pages ++ tail ++ state)

def protectedLocations : Result (List CacheBlockLocation) := do
  let hits ← (List.range c.groups.length).mapM (c.probeHitLocations input)
  pure (hits.flatten ++ c.dedupedTailLocations input ++ input.claimed.map (·.2))

/-- The slots of group `i` this admission's own reclaim frees. -/
def requestReclaimable (computed : Nat) : List CacheBlockLocation :=
  match (input.demands i).extent with
  | .state kind _ => (GroupAllocator.releasableStateInput c.pool (c.deviceCached i) (input.tables i) kind).toList
  | _ => GroupAllocator.reclaimableBlockLocationsAt c.pool (c.deviceCached i) (input.tables i)
      (GroupGeometry.expiredBlocksAt (c.granularity i) (c.spec i) computed)

def firstByLocation (victims : List Victim) : List Victim :=
  victims.foldl (fun kept v => if kept.any (·.2 == v.2) then kept else kept ++ [v]) []

/-- `request_reclaim_candidates_`. -/
def requestReclaims : List Victim :=
  match input.progress.numComputedTokens with
  | none => []
  | some computed =>
    let all := (List.range c.groups.length).flatMap fun i =>
      (c.requestReclaimable input i computed).map fun l => (i, l)
    firstByLocation (all.filter fun v => v.2 ∉ protectedLocs)

def indexCandidates (excluded : List CacheBlockLocation) : List Victim :=
  (List.range c.groups.length).flatMap fun i =>
    ((c.deviceEntries i).filter fun e => c.pool.unique e.block && decide (e.block ∉ excluded)).map
      fun e => (i, e.block)

/-- The candidates in eviction order: the source's merge of the request's own candidates with each group's
entries, epoch by epoch, is this sort. -/
def victimOrder : List Victim :=
  let reclaims := c.requestReclaims input protectedLocs
  let candidates := (reclaims ++ c.indexCandidates (protectedLocs ++ reclaims.map (·.2))).map
    fun v => c.makeVictimCandidate v.1 v.2 ((c.deviceEntries v.1).findLocation v.2)
  (candidates.insertionSort fun a b => a.evictionKey ≤ b.evictionKey).map fun v =>
    (v.groupId, v.location)

/-! ## The plan -/

def takeVictims (need : Need) : List Victim → Shadow → List Victim → Result (Option (Shadow × List Victim))
  | candidates, s, taken =>
    if c.fits need s then pure (some (s, taken))
    else
      match candidates with
      | [] => pure none
      | v :: rest => do
        let s ← c.removeOccupant s v
        takeVictims need rest s (v :: taken)

def keepRequired (need : Need) : List Victim → Shadow → Result (List Victim)
  | [], _ => pure []
  | v :: rest, s => do
    let restored ← c.restoreOccupant s v
    if c.fits need restored then keepRequired need rest restored
    else do
      let s ← c.removeOccupant restored v
      let required ← keepRequired need rest s
      pure (required ++ [v])

/-- `Plan`: the victims of an admission that fits, oldest first. -/
def planAdmission : Result (Option (List Victim)) := do
  let need ← c.plannedNeed input
  let s := c.initialShadow
  if c.fits need s then
    return some []
  let protectedLocs ← c.protectedLocations input
  match ← c.takeVictims need (c.victimOrder input protectedLocs) s [] with
  | none => return none
  | some (s, taken) => return some (← c.keepRequired need taken s)

end CacheCoordinator

end TokenSpeed

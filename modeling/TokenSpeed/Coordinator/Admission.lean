import TokenSpeed.Coordinator.Planner

/-!
# Admission

`CacheCoordinator::Admit` of `cache/coordinator/cache_admission.cpp`, phase by phase. A running
transaction carries the coordinator, the request's holding, the prefix blocks acquired but not yet
placed, and the result.
-/

namespace TokenSpeed

open Function

/-- `BlockTransfer`; an empty key publishes nothing at the ACK. -/
structure BlockTransfer where
  groupId : Nat
  source : CacheBlockLocation
  destination : CacheBlockLocation
  key : CacheKey := {}
  logicalBlockIndex : Int := -1
  boundaryKind : CacheBoundaryKind := .chunk
  deriving DecidableEq, Repr

structure AdmissionResult where
  devicePrefixTokens : Nat := 0
  hostPrefixTokens : Nat := 0
  junctionTokens : Nat := 0
  statePrefixCached : Bool := false
  accessEpoch : Nat := 0
  loadPairs : List BlockTransfer := []
  snapshotPairs : List BlockTransfer := []
  newPageIds : Nat → List Nat := fun _ => []
  pagesToCopy : Nat → List (Nat × Nat) := fun _ => []
  stateCheckpointBlocks : Nat → Option CacheBlockLocation := fun _ => none

/-- `AcquiredPrefix`: the blocks of a probe's hits, held by the transaction. -/
structure AcquiredPrefix where
  deviceTokens : Nat := 0
  hostTokens : Nat := 0
  device : Nat → List (Option CacheBlockLocation) := fun _ => []
  host : Nat → List (Option CacheBlockLocation) := fun _ => []
  stateAtPromptEnd : Nat → Option CacheBlockLocation := fun _ => none

namespace CacheCoordinator

open GroupGeometry GroupAllocator

structure Txn where
  coord : CacheCoordinator
  holding : Holding
  acquired : AcquiredPrefix := {}
  shapedNow : Nat → Bool := fun _ => false
  result : AdmissionResult := {}

namespace Txn

variable (t : Txn)

def setPool (pool : BlockPool) : Txn := { t with coord := { t.coord with pool := pool } }

def setTable (t : Txn) (i : Nat) (table : BlockTable) : Txn :=
  { t with holding := t.holding.setTable i table }

def addNewPage (i pageId : Nat) : Txn :=
  { t with
    result := { t.result with
      newPageIds := update t.result.newPageIds i (t.result.newPageIds i ++ [pageId]) } }

def addCopy (i source destination : Nat) : Txn :=
  { t with
    result := { t.result with
      pagesToCopy :=
        update t.result.pagesToCopy i (t.result.pagesToCopy i ++ [(source, destination)]) } }

def addLoads (i : Nat) (pairs : List (CacheBlockLocation × CacheBlockLocation)) : Txn :=
  { t with
    result := { t.result with
      loadPairs := t.result.loadPairs ++ pairs.map fun p =>
        { groupId := i, source := p.1, destination := p.2 } } }

def resolve (i : Nat) (l : CacheBlockLocation) : Result Nat :=
  resolveCacheBlockId (t.coord.pool.packing i) l

end Txn

/-! ## The demands -/

variable (c : CacheCoordinator) (probe : PrefixProbe) (demands : Nat → GroupDemand) (progress : RequestProgress)
  (epoch : Nat)

def replayDemands (hitTokens : Nat) (tables : Nat → BlockTable)
    (demands : Nat → GroupDemand) : Result (Nat → GroupDemand) :=
  if 0 < c.replayWindowTokens ∧ 0 < hitTokens then
    (List.range c.groups.length).foldlM (fun out i =>
        match c.groupIsReplayable i, (demands i).extent with
        | true, .dense numTokens => do
          assert ((tables i).numBlocks == 0) "a replayable group holds no hit pages at admission"
          let first := (hitTokens - c.replayTokens hitTokens) / c.granularity i
          pure (update out i
            { demands i with extent := .sparse (hitTokens + numTokens) first })
        | _, _ => pure out)
      demands
  else pure demands

def withoutTailPublication : RequestProgress :=
  { progress with
    completedPages := progress.completedPages.bind fun completed =>
      if completed.firstNewPrefixPage < completed.prefixHashes.length then
        some { completed with tail := none, ownerContinues := false, publishState := false }
      else none }

def copiesIn : Bool :=
  match progress.completedPages with
  | none => false
  | some completed => completed.ownerContinues && completed.tail.isSome

def planWithFallback (tables : Nat → BlockTable) (progress : RequestProgress) : Result
    (Option (List Victim × RequestProgress)) := do
  let plan (p : RequestProgress) :=
    c.planAdmission { tables := tables, demands := demands, progress := p, probe := probe }
  match ← plan progress with
  | some victims => return some (victims, progress)
  | none =>
    if copiesIn progress then
      let progress := withoutTailPublication progress
      match ← plan progress with
      | some victims => return some (victims, progress)
      | none => return none
    else return none

/-! ## The prefix -/

/-- `AcquireMatched` over the keys from `beginBlocks` on. -/
def acquireHits (keys : List CacheKey) (beginBlocks : Nat) (hits : List Bool) (es : CacheEntries) (pool : BlockPool) :
    Result (List (Option CacheBlockLocation) × CacheEntries × BlockPool) := do
  assert (beginBlocks + hits.length ≤ keys.length) "matched block range is out of bounds"
  es.acquireMatched epoch ((keys.drop beginBlocks).zip hits) pool

/-- One group of `acquireTierWithKeys`: its pages, then its tail blocks. -/
def acquireTierGroup (floorTokens : Nat) (keys : List CacheKey) (tier : ProbeTier) (i : Nat) (es : CacheEntries)
    (pool : BlockPool) : Result (List (Option CacheBlockLocation) × CacheEntries × BlockPool) := do
  let span := if c.groupIsState i then c.prefixGranularity else c.granularity i
  let (pages, es, pool) ← acquireHits epoch keys (floorTokens / span) (tier.perGroup i) es pool
  match tier.tail with
  | none => pure (pages, es, pool)
  | some tail => do
    let (tailBlocks, es, pool) ← acquireHits epoch (tail.groupKeys i) 0 (tail.perGroup i) es pool
    pure (pages ++ tailBlocks, es, pool)

variable (message : String) (deviceTailTokens hostTailTokens : Nat) (kind : StateStepKind) (t : Txn) (i : Nat)

def acquireDeviceGroup : Result Txn := do
  let c := t.coord
  let (blocks, es, pool) ← c.acquireTierGroup epoch 0 (probe.groupKeys i) probe.device i
    (c.deviceEntries i) c.pool
  pure { t with
    coord := { c with pool := pool }.setDeviceEntries i es
    acquired := { t.acquired with device := update t.acquired.device i blocks } }

def acquireHostGroup : Result Txn :=
  match t.coord.hostPool with
  | none => pure t
  | some hostPool => do
    let c := t.coord
    let (blocks, es, pool) ← c.acquireTierGroup epoch probe.device.fullPageTokens
      (probe.groupKeys i) probe.host i (c.hostEntries i) hostPool
    pure { t with
      coord := { c with
        hostPool := some pool
        hostEntries := update c.hostEntries i es }
      acquired := { t.acquired with host := update t.acquired.host i blocks } }

def acquirePromptEndGroup (tail : TailHit) (epoch : Nat) (t : Txn) (i : Nat) : Result Txn := do
  if (tail.groupKeys i).isEmpty then
    return t
  let c := t.coord
  let (blocks, es, pool) ← acquireHits epoch (tail.groupKeys i) 0 (tail.perGroup i)
    (c.deviceEntries i) c.pool
  return { t with
    coord := { c with pool := pool }.setDeviceEntries i es
    acquired := { t.acquired with
      stateAtPromptEnd := update t.acquired.stateAtPromptEnd i (blocks.getD 0 none) } }

def touchTail (tier : ProbeTier) (c : CacheCoordinator) : CacheCoordinator :=
  match tier.tail with
  | none => c
  | some tail => if 0 < tail.tailTokens then { c with tails := c.tails.touch tail.hash } else c

def acquirePromptEnd : Result Txn :=
  match probe.stateAtPromptEnd with
  | none => pure t
  | some tail => (List.range t.coord.groups.length).foldlM (acquirePromptEndGroup tail epoch) t

def acquirePrefix : Result Txn := do
  let groups := List.range t.coord.groups.length
  let t := { t with coord := touchTail probe.host (touchTail probe.device t.coord) }
  let t ← groups.foldlM (acquireDeviceGroup probe epoch) t
  let t ← groups.foldlM (acquireHostGroup probe epoch) t
  let t ← acquirePromptEnd probe epoch t
  pure { t with
    acquired := { t.acquired with
      deviceTokens := probe.device.numCommonTokens
      hostTokens := if t.coord.hostPool.isSome then probe.host.numCommonTokens else 0 } }

def claimGroup : Result Txn := do
  if t.coord.groupIsState i || t.acquired.deviceTokens == 0 then
    return t
  let table ← claimHitBlocks (t.holding.tables i) (t.acquired.device i)
  return { t.setTable i table with
    acquired := { t.acquired with device := update t.acquired.device i [] } }

def shapeGroup : Result Txn := do
  if !t.coord.groupIsState i || (t.holding.tables i).numBlocks != 0 then
    return t
  match (demands i).extent with
  | .state .rotate _ | .state .land _ =>
    let matched := (t.acquired.device i).filterMap id ++ (t.acquired.stateAtPromptEnd i).toList
    assert (matched.length ≤ 1) "a State group matches one checkpoint"
    let table ← shapeStateTable (t.holding.tables i) matched.head?
    return { t.setTable i table with
      shapedNow := update t.shapedNow i true
      acquired := { t.acquired with
        device := update t.acquired.device i []
        stateAtPromptEnd := update t.acquired.stateAtPromptEnd i none } }
  | _ => return t

/-! ## Eviction, publication and reclaim -/

def evictVictims (t : Txn) : List Victim → Result (List Victim × Txn)
  | [] => pure ([], t)
  | v :: rest => do
    let (evicted, coord) ← t.coord.evictCachedBlock v.1 v.2
    let (prospective, t) ← evictVictims { t with coord := coord } rest
    pure (if evicted then prospective else v :: prospective, t)

def evictProspective (v : Victim) : Result Txn := do
  let (evicted, coord) ← t.coord.evictCachedBlock v.1 v.2
  if !evicted then
    fatalCheck (!coord.pool.isOccupied v.2) message
  pure { t with coord := coord }

def publishInto : Result Txn :=
  match progress.completedPages with
  | none => pure t
  | some completed => do
    let (holding, coord) ← publishGroup completed epoch (t.holding, t.coord) i
    pure { t with holding := holding, coord := coord }

def releaseGroup : Result Txn := do
  let table := t.holding.tables i
  if t.coord.groupIsState i then
    if table.numBlocks = 0 then
      return t
    match (demands i).extent with
    | .state .rotate _ =>
      if t.shapedNow i then return t
      let (pool, table) ← rotateState t.coord.pool table
      return (t.setPool pool).setTable i table
    | .state .release _ =>
      let (pool, table) ← releaseStateInput t.coord.pool table
      return (t.setPool pool).setTable i table
    | _ => return t
  else
    match progress.numComputedTokens with
    | none => return t
    | some computed =>
      let (pool, table) ← reclaimExpired t.coord.pool table
        (expiredBlocksAt (t.coord.granularity i) (t.coord.spec i) computed)
      return (t.setPool pool).setTable i table

def settleGroup : Result Txn := do
  let t ← publishInto progress epoch t i
  releaseGroup demands progress t i

def recordInto : Result Txn :=
  match progress.completedPages with
  | none => pure t
  | some completed => do
    let coord ← t.coord.recordPublishedTail completed
    pure { t with coord := coord }

/-! ## Acquisition -/

def privatizeSlot (availableTokens : Nat) (t : Txn) (slot : Nat) : Result Txn := do
  let (replaced, fresh, pool, table) ← swapInFreshBlock t.coord.pool i (t.holding.tables i) slot
    availableTokens
  let t := (t.setPool pool).setTable i table
  let destination ← t.resolve i fresh
  match replaced with
  | none => return t.addNewPage i destination
  | some old =>
    let source ← t.resolve i old
    let pool ← t.coord.pool.drop old
    return (t.setPool pool).addCopy i source destination

def privatizeCached (t : Txn) (slot : Nat) : Result Txn :=
  match (t.holding.tables i).block slot with
  | some l =>
    if t.coord.deviceCached i l then privatizeSlot i (t.holding.tables i).availableTokens t slot
    else pure t
  | none => pure t

def copyIn : Result Txn :=
  match copiesIn progress, progress.numComputedTokens with
  | true, some computed =>
    if t.coord.groupIsState i then pure t
    else
      let slots := tailSlots (t.coord.granularity i) t.coord.prefixGranularity computed
      (List.range' slots.first
        (min slots.pastEnd (t.holding.tables i).numBlocks - slots.first)).foldlM (privatizeCached i) t
  | _, _ => pure t

def copyTail : Result Txn := do
  let c := t.coord
  if c.groupIsState i || deviceTailTokens == 0 || (t.holding.tables i).numBlocks == 0 then
    return t
  let slots := tailSlots (c.granularity i) c.prefixGranularity t.acquired.deviceTokens
  assert (slots.pastEnd == (t.holding.tables i).numBlocks)
    "the Device tail's blocks end the claimed table"
  let first := slots.first + c.firstTailBlockNeeded i deviceTailTokens
  (List.range' first (slots.pastEnd - first)).foldlM (privatizeSlot i slots.availableTokens) t

def setHost (blocks : List (Option CacheBlockLocation)) : Txn :=
  { t with acquired := { t.acquired with host := update t.acquired.host i blocks } }

def loadStateInput (t : Txn) (host : CacheBlockLocation) : Result Txn := do
  assert ((t.holding.tables i).block 0).isNone "a State group matches one checkpoint"
  let (fresh, pool) ← t.coord.pool.acquireBlocksInBuckets i [t.coord.pool.bucketOf i host]
  match fresh with
  | [l] =>
    let table ← installStateInput (t.holding.tables i) l
    let pool ← pool.retain l
    let t := ((t.setPool pool).setTable i table).addLoads i [(host, l)]
    return setHost t i ((t.acquired.host i).erase (some host))
  | _ => .error (.fatal "admission plan no longer fits the block pool")

def acquireZeroState : Result Txn := do
  match ← acquireStateInput t.coord.pool i (t.holding.tables i) with
  | none => .error (.fatal "admission plan no longer fits the block pool")
  | some (l, pool, table) =>
    let t := (t.setPool pool).setTable i table
    let pageId ← t.resolve i l
    return t.addNewPage i pageId

def acquireLive : Result Txn := do
  match ← acquireStateLive t.coord.pool i (t.holding.tables i) with
  | none => .error (.fatal "admission plan no longer fits the block pool")
  | some (l, pool, table) =>
    let t := (t.setPool pool).setTable i table
    let live ← t.resolve i l
    if kind = .land ∧ t.result.statePrefixCached then
      match table.block 0 with
      | none => .error (.assertion "an exact state hit must have an input checkpoint")
      | some input =>
        let source ← t.resolve i input
        return t.addCopy i source live
    else return t.addNewPage i live

def acquireCheckpoint : Result Txn := do
  assert (kind == .rotate) "an in-forward checkpoint rides a prefill chunk"
  match ← acquireStateCheckpoint t.coord.pool i (t.holding.tables i) with
  | none => .error (.fatal "admission plan no longer fits the block pool")
  | some (l, pool) =>
    let t := t.setPool pool
    let pageId ← t.resolve i l
    let t := t.addNewPage i pageId
    return { t with
      result := { t.result with
        stateCheckpointBlocks := update t.result.stateCheckpointBlocks i (some l) } }

def startState : Result Txn :=
  if kind = .rotate ∧ t.shapedNow i ∧ ((t.holding.tables i).block 0).isNone then acquireZeroState t i
  else pure t

def advanceState : Result Txn :=
  if kind = .rotate ∨ kind = .land then acquireLive kind t i else pure t

def acquireStateGroup (checkpoint : Bool) (t : Txn) (i : Nat) : Result Txn := do
  if (t.holding.tables i).numBlocks = 0 then
    return t
  let t ← ((t.acquired.host i).filterMap id).foldlM (loadStateInput i) t
  let t ← startState kind t i
  let t ← advanceState kind t i
  if checkpoint then acquireCheckpoint kind t i else pure t

def extendFromHost : Result Txn := do
  if (t.acquired.host i).isEmpty then
    return t
  let available :=
    if 0 < hostTailTokens then
      (tailSlots (t.coord.granularity i) t.coord.prefixGranularity t.acquired.hostTokens).availableTokens
    else 0
  let (pairs, pool, table) ← appendHostExtension t.coord.pool i (t.holding.tables i)
    (t.acquired.host i) available
  return setHost (((t.setPool pool).setTable i table).addLoads i pairs) i []

def nameNewBlocks (firstNewBlock : Nat) (t : Txn) : Result Txn :=
  (((t.holding.tables i).blocks.drop firstNewBlock).filterMap id).foldlM (fun t l => do
    let pageId ← t.resolve i l
    pure (t.addNewPage i pageId)) t

def growGroup (demands : Nat → GroupDemand) (t : Txn) (i : Nat) : Result Txn := do
  let table := t.holding.tables i
  let plan ← planAcquire (t.coord.granularity i) table (demands i)
  match ← acquire t.coord.pool i table plan with
  | none => .error (.fatal message)
  | some (pool, grown) => nameNewBlocks i table.numBlocks ((t.setPool pool).setTable i grown)

def acquireGroup : Result Txn := do
  let t ← copyIn progress t i
  let t ← copyTail deviceTailTokens t i
  match (demands i).extent with
  | .state kind checkpoint => acquireStateGroup kind checkpoint t i
  | _ => do
    let t ← extendFromHost hostTailTokens t i
    growGroup "admission plan no longer fits the block pool" demands t i

def dropHostBlocks (blocks : List CacheBlockLocation) : Option BlockPool → Result (Option BlockPool)
  | none => pure none
  | some hostPool => do
    let hostPool ← blocks.foldlM BlockPool.drop hostPool
    pure (some hostPool)

def clearAcquired : Txn :=
  { t with
    acquired := { t.acquired with
      device := update t.acquired.device i []
      host := update t.acquired.host i []
      stateAtPromptEnd := update t.acquired.stateAtPromptEnd i none } }

def dropAcquired : Result Txn := do
  let devices := (t.acquired.device i).filterMap id ++ (t.acquired.stateAtPromptEnd i).toList
  let pool ← devices.foldlM BlockPool.drop t.coord.pool
  let hostPool ← dropHostBlocks ((t.acquired.host i).filterMap id) t.coord.hostPool
  return clearAcquired { t with coord := { t.coord with pool := pool, hostPool := hostPool } } i

/-! ## The transaction -/

def tierTailTokens (tier : ProbeTier) : Nat := (tier.tail.map (·.tailTokens)).getD 0

def admissionEpoch (requestEpoch : Option Nat) : Result (Nat × CacheCoordinator) :=
  match requestEpoch with
  | some epoch => do
    assert (0 < epoch && epoch ≤ c.nextAccessEpoch)
      "request access epoch was not issued by this coordinator"
    pure (epoch, c)
  | none => pure (c.nextAccessEpoch + 1, { c with nextAccessEpoch := c.nextAccessEpoch + 1 })

def reportHit : Txn :=
  let admitted := max probe.device.numCommonTokens probe.host.numCommonTokens
  let kv := max probe.device.kvTokens probe.host.kvTokens
  { t with
    result := { t.result with
      devicePrefixTokens := t.acquired.deviceTokens
      hostPrefixTokens := t.acquired.hostTokens
      junctionTokens := if admitted < kv then kv else 0
      statePrefixCached := probe.stateAtPromptEnd.isSome
      accessEpoch := epoch } }

def openTables : Result Txn := do
  let groups := List.range t.coord.groups.length
  let t ← acquirePrefix probe epoch t
  let t ← groups.foldlM claimGroup (reportHit probe epoch t)
  groups.foldlM (shapeGroup demands) t

/-- The victims evicted, the finished pages published and the request's own slots let go; what was
still owned then is evicted in the second pass. -/
def makeRoom (victims : List Victim) (epoch : Nat) (t : Txn) : Result Txn := do
  let groups := List.range t.coord.groups.length
  let (prospective, t) ← evictVictims t victims
  let t ← groups.foldlM (settleGroup demands progress epoch) t
  let t ← recordInto progress t
  prospective.foldlM (evictProspective "admission victim changed before acquisition") t

/-- `Admit` once the plan accepts. -/
def commitAdmission (holding : Holding) (progress : RequestProgress) (victims : List Victim) (epoch : Nat) : Result Txn
    := do
  let groups := List.range c.groups.length
  let t ← openTables probe demands epoch { coord := c, holding := holding }
  let t ← makeRoom demands progress victims epoch t
  let t ← groups.foldlM
    (acquireGroup demands progress (tierTailTokens probe.device) (tierTailTokens probe.host)) t
  groups.foldlM dropAcquired t

/-- `Admit`; `none` when the pool cannot hold the admission. -/
def admitProbe (holding : Holding) (progress : RequestProgress) (requestEpoch : Option Nat) : Result (Option Txn) := do
  assert ((List.range c.groups.length).all fun i =>
      c.groupIsState i == (demands i).extent.isState)
    "a State group takes a StateStep; a token-spanned group a dense or sparse extent"
  c.validateProgress progress
  let hitTokens := max probe.device.numCommonTokens probe.host.numCommonTokens
  let demands ← c.replayDemands hitTokens holding.tables demands
  match ← c.planWithFallback probe demands holding.tables progress with
  | none => return none
  | some (victims, progress) =>
    let (epoch, c) ← c.admissionEpoch requestEpoch
    return some (← c.commitAdmission probe demands holding progress victims epoch)

end CacheCoordinator

end TokenSpeed

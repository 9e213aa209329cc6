import TokenSpeed.Scheduler.Demands

/-!
# Admitting a request's next step

The per-request layer of `operations/forward.cpp`: the admission probe, a first chunk, a later chunk and
a decode, and the operation each puts into the plan. `Round` is the state of one plan build: the
scheduler, `PlanBuild` and `AdmissionFeedback`.
-/

namespace TokenSpeed

/-! ## Operations and plans -/

/-- `ForwardOperationBase`; the page ids of each group's row. -/
structure ForwardRow where
  requestId : Nat
  requestPoolIndex : Option Nat
  inputLength : Nat
  prefillLength : Nat
  blockTables : Nat → List Nat

structure PrefillOperation extends ForwardRow where
  inputIds : List Token
  shiftedInputIds : List Token
  extendPrefixLen : Nat
  statePrefixCached : Bool := false
  extendReplayLen : Nat := 0
  extendStateCheckpointLen : Nat := 0

structure DecodeOperation extends ForwardRow where
  decodeInputId : Token := -1
  specCandidateIds : List Token := []

inductive ForwardOperation where
  | prefill (op : PrefillOperation)
  | decode (op : DecodeOperation)

def ForwardOperation.row : ForwardOperation → ForwardRow
  | .prefill op => op.toForwardRow
  | .decode op => op.toForwardRow

def ForwardOperation.isPrefill : ForwardOperation → Bool
  | .prefill _ => true
  | .decode _ => false

inductive ImageShortfall where
  | noPool
  | blobSlot
  | snapshotPool
  deriving DecidableEq, Repr

structure SchedulerAbort where
  requestId : Nat
  shortfall : ImageShortfall
  deriving DecidableEq, Repr

/-- `ExecutionPlan`; the operations by kind, in the order the plan carries each kind. -/
structure ExecutionPlan where
  pagesToZero : Nat → List Nat := fun _ => []
  pagesToCopy : Nat → List (Nat × Nat) := fun _ => []
  forward : List ForwardOperation := []
  remoteDecode : List ForwardOperation := []
  remotePrefill : List ForwardOperation := []
  writeBacks : List WriteBackOperation := []
  snapshotStores : List SnapshotStoreOperation := []
  loadBacks : List LoadBackOperation := []
  snapshotRestores : List SnapshotRestoreOperation := []
  storage : List StorageOperation := []
  aborts : List SchedulerAbort := []

structure Round where
  sched : Scheduler
  pagesToZero : Nat → List Nat := fun _ => []
  pagesToCopy : Nat → List (Nat × Nat) := fun _ => []
  aborts : List SchedulerAbort := []
  operations : List ForwardOperation := []
  remoteDecode : List ForwardOperation := []
  remotePrefill : List ForwardOperation := []
  loadBacks : List LoadBackOperation := []
  writeBacks : List WriteBackOperation := []
  snapshotStores : List SnapshotStoreOperation := []
  snapshotRestores : List SnapshotRestoreOperation := []
  scheduled : List Nat := []
  tokenBudget : Int := 0
  pendingPrefillReserve : Nat := 0
  pushedPrefill : Bool := false
  pushedDecode : Bool := false
  admissionFailed : Bool := false
  capacityBlocker : Option Nat := none
  capacityBlocked : List Nat := []

namespace Round

variable (r : Round)

def full : Bool :=
  decide (r.tokenBudget ≤ 0) || decide ((r.operations.length : Int) = r.sched.config.maxBatchSize)

def isScheduled (id : Nat) : Bool := decide (id ∈ r.scheduled)

def markScheduled (id : Nat) : Round := { r with scheduled := r.scheduled ++ [id] }

def noPrefillProgress : Bool := !r.pushedPrefill && r.remotePrefill.isEmpty

def noteCapacityBlocked (id : Nat) : Round :=
  { r with
    capacityBlocker := r.capacityBlocker.or (some id)
    capacityBlocked := r.capacityBlocked ++ [id] }

def pushOperation (id : Nat) (op : ForwardOperation) : Round :=
  { r.markScheduled id with
    tokenBudget := if op.isPrefill || r.sched.config.role != .d then r.tokenBudget -
      op.row.inputLength else r.tokenBudget
    pushedPrefill := r.pushedPrefill || op.isPrefill
    pushedDecode := r.pushedDecode || !op.isPrefill
    operations := r.operations ++ [op] }

def trackScheduledForward (id : Nat) : Round :=
  match r.sched.findRequest id with
  | none => r
  | some req => { r with sched := r.sched.setRequest req.trackScheduledForward }

def recordAdmittedPages (result : AdmissionResult) : Round :=
  { r with
    pagesToZero := fun i => r.pagesToZero i ++ result.newPageIds i
    pagesToCopy := fun i => r.pagesToCopy i ++ result.pagesToCopy i }

end Round

namespace Scheduler

variable (s : Scheduler)

/-! ## The admission probe -/

def retractionSafeSteps : Nat := 4096

structure AdmissionMatch where
  probe : PrefixProbe
  extensionHashes : List ContentHash := []
  prefixHashes : List ContentHash := []

variable (r : Request) (probe : PrefixProbe)

def probeAtAdmission (prompt : PromptPrefix) : Result PrefixProbe :=
  if s.config.role = .d then s.coord.probeDecodeDevicePrefix prompt r.prefillSize else s.coord.probePromptPrefix prompt

def candidatePrefixPages : List (List Token) :=
  let g := s.coord.prefixGranularity
  (r.fullPrefixPages g).take (if s.config.role = .d then r.prefillSize / g else (r.prefillSize - 1) / g)

def maxCacheableTokens : Nat :=
  min (r.prefillSize - (max s.config.prefixReplayTokens 1).toNat) r.maxCachedPrefixTokens

def matchPrefixAtAdmission : Result AdmissionMatch := do
  assert (r.is .submitted) "the admission probe is for a Submitted request"
  let hashes := computePrefixHashes s.coord.sha256 (s.candidatePrefixPages r) []
  if s.config.disablePrefixCache then
    return { probe := ← s.probeAtAdmission r {} }
  let probe ← s.probeAtAdmission r
    { prefixHashes := hashes
      tokens := r.tokenSlice 0 r.prefillSize
      maxTokens := s.maxCacheableTokens r }
  let g := s.coord.prefixGranularity
  let device := probe.device.fullPageTokens
  return { probe := probe
           prefixHashes := hashes.take (max device probe.host.fullPageTokens / g)
           extensionHashes := (hashes.drop (device / g)).take ((probe.host.fullPageTokens - device) / g) }

/-! ## A first chunk -/

/-- `SchedulePrefillFirstChunkEvent` with the rest of `FirstChunkOutcome`. -/
structure FirstChunk where
  tokensThisRound : Nat
  decodeReserve : Nat
  tables : Nat → BlockTable
  hitTokens : Nat
  cacheProgress : CacheProgress
  loadPairs : List BlockTransfer
  statePrefixCached : Bool

structure FirstChunkShape where
  hitTokens : Nat
  unscheduled : Nat
  junctionTokens : Nat
  headroom : Nat
  decodeInputTokens : Nat

def othersHoldPages (id : Nat) : Bool := s.requests.any fun other => other.id != id && other.holdsPages

/-- The reserve of a first chunk of `tokens`. -/
def firstChunkReserve (id : Nat) (shape : FirstChunkShape) (tokens : Nat) : PrefillReserve :=
  let later := if s.config.role = .d then 0 else shape.unscheduled - tokens
  let others := decide (0 < shape.hitTokens ∨ 0 < later) && s.othersHoldPages id
  { decodeInputTokens := shape.decodeInputTokens
    completesPrefill := decide (tokens = shape.unscheduled)
    promptHeadroomTokens := if 0 < shape.headroom then shape.unscheduled - tokens + shape.headroom else 0
    swaHitTokens := if others then shape.hitTokens else 0
    swaLaterChunkTokens := if others then later else 0
    swaPromptAfterHitTokens := shape.unscheduled }

def firstChunkDemands (shape : FirstChunkShape) (tokens : Nat) (checkpoint : Bool) : Nat → GroupDemand :=
  let remote := s.config.role = .d
  let demands := reservePrefillDemands s.config
    (makeGroupDemands s.config tokens (if remote then .land else .rotate) checkpoint)
    (s.firstChunkReserve r.id shape tokens)
  if remote then remoteDemands s.config s.coord demands r.prefillSize shape.hitTokens else demands

/-- The chunk a first admission starts from; `none` when the budget leaves no chunk. -/
def firstChunkTokens (remaining : Int) (shape : FirstChunkShape) : Result Nat :=
  if s.config.role = .d then pure shape.unscheduled
  else prefillChunkTokens s.coord shape.hitTokens true shape.unscheduled remaining shape.junctionTokens

structure FirstAdmission where
  tokens : Nat
  writesCheckpoint : Bool
  txn : CacheCoordinator.Txn

def admitWithCheckpoint (shape : FirstChunkShape) (checkpoint tokens : Nat) : Result (Option CacheCoordinator.Txn) :=
  if writesInForwardCheckpoint checkpoint shape.hitTokens tokens s.coord.prefixGranularity then
    s.coord.admitProbe probe (s.firstChunkDemands r shape tokens true) {} {} none
  else pure none

def tokensWithoutCheckpoint (firstPos checkpoint tokens : Nat) : Nat :=
  if writesInForwardCheckpoint checkpoint firstPos tokens s.coord.prefixGranularity then checkpoint - firstPos
  else tokens

def admitFirstChunk (shape : FirstChunkShape) (checkpoint tokens : Nat) : Result (Option FirstAdmission) := do
  match ← s.admitWithCheckpoint r probe shape checkpoint tokens with
  | some txn => return some ⟨tokens, true, txn⟩
  | none =>
    let tokens := s.tokensWithoutCheckpoint shape.hitTokens checkpoint tokens
    match ← s.coord.admitProbe probe (s.firstChunkDemands r shape tokens false) {} {} none with
    | some txn => return some ⟨tokens, false, txn⟩
    | none => return none

def publishExtension (firstSlot epoch : Nat) (hashes : List ContentHash)
    (t : CacheCoordinator.Holding × CacheCoordinator) : Result (CacheCoordinator.Holding × CacheCoordinator) :=
  (hashes.zipIdx firstSlot).foldlM (fun t x => t.2.cacheFullBlocks t.1 [x.1] epoch x.2 .chunk) t

def firstChunkShape (decodeInputTokens : Nat) : FirstChunkShape :=
  let hit := max probe.device.numCommonTokens probe.host.numCommonTokens
  let kv := max probe.device.kvTokens probe.host.kvTokens
  { hitTokens := hit
    unscheduled := r.prefillSize - hit
    junctionTokens := if hit < kv then kv else 0
    headroom := if s.config.role = .p then 0 else r.admissionHeadroom retractionSafeSteps
    decodeInputTokens := decodeInputTokens }

def stateCheckpointOf : Nat := inForwardStateCheckpoint s.config s.coord r.prefillSize

end Scheduler

namespace Round

variable (r : Round)

def setCoord (c : CacheCoordinator) : Round := { r with sched := r.sched.setCoord c }

def setRequest (req : Request) : Round := { r with sched := r.sched.setRequest req }

def takeFirstChunk (m : Scheduler.AdmissionMatch) (shape : Scheduler.FirstChunkShape) (checkpoint : Nat)
    (admission : Scheduler.FirstAdmission) : Result (Scheduler.FirstChunk × Round) := do
  let result := admission.txn.result
  assert (max result.devicePrefixTokens result.hostPrefixTokens == shape.hitTokens)
    "an admission claims exactly the prefix it probed"
  assert (result.junctionTokens == shape.junctionTokens) "the junction changed between probe and admission"
  let (holding, c) ← Scheduler.publishExtension (m.probe.device.fullPageTokens / admission.txn.coord.prefixGranularity)
    result.accessEpoch m.extensionHashes (admission.txn.holding, admission.txn.coord)
  let completes := decide (admission.tokens = shape.unscheduled)
  pure
    ({ tokensThisRound := admission.tokens
       decodeReserve := if completes then shape.decodeInputTokens else 0
       tables := holding.tables
       hitTokens := shape.hitTokens
       cacheProgress :=
         { prefixHashes := m.prefixHashes
           accessEpoch := result.accessEpoch
           junctionTokens := result.junctionTokens
           stateCheckpointTokens := if admission.writesCheckpoint then checkpoint else 0
           stateCheckpointBlocks := if admission.writesCheckpoint then result.stateCheckpointBlocks else fun _ => none }
       loadPairs := result.loadPairs
       statePrefixCached := result.statePrefixCached }, (r.setCoord c).recordAdmittedPages result)

variable (c : CacheCoordinator) (progress : CacheProgress) (numComputedTokens : Nat) (req : Request)

def schedulePrefillFirstChunk (remaining : Int) (decodeInputTokens : Nat) :
    Result (Option Scheduler.FirstChunk × Round) := do
  let s := r.sched
  if s.config.role = .d && s.reqPool.availableSlots == 0 then
    return (none, r)
  let m ← s.matchPrefixAtAdmission req
  if s.reqPool.availableSlots == 0 then
    return (none, r)
  let shape := s.firstChunkShape req m.probe decodeInputTokens
  assert (shape.junctionTokens == 0 || shape.junctionTokens < req.prefillSize)
    "a junction lies inside the unmatched prompt"
  let tokens ← s.firstChunkTokens remaining shape
  if tokens = 0 then
    return (none, r)
  let checkpoint := s.stateCheckpointOf req
  let tokens := chunkTowardInForwardCheckpoint checkpoint shape.hitTokens tokens shape.junctionTokens
    s.config.maxScheduledTokens.toNat s.coord.prefixGranularity
  match ← s.admitFirstChunk req m.probe shape checkpoint tokens with
  | none => return (none, { r with admissionFailed := true })
  | some admission =>
    let (chunk, r) ← r.takeFirstChunk m shape checkpoint admission
    return (some chunk, r)

/-! ## A later step of a resident request -/

def copyDueCheckpoint : Result CacheCoordinator :=
  if Request.checkpointDue progress numComputedTokens then
    ((List.range c.groups.length).filterMap progress.stateCheckpointBlocks).foldlM CacheCoordinator.retainDevice c
  else pure c

def dropDueCheckpoint : Result CacheCoordinator :=
  if Request.checkpointDue progress numComputedTokens then
    Scheduler.dropCheckpointBlocks c progress.stateCheckpointBlocks
  else pure c

def dropReplaced : Result CacheCoordinator := do
  let c ← Scheduler.dropCheckpointBlocks c progress.publishedStateCheckpointBlocks
  dropDueCheckpoint c progress numComputedTokens

structure ResidentStep where
  request : Request
  resources : ForwardResources
  numComputedTokens : Nat
  progress : CacheProgress
  told : RequestProgress

/-- `admitWithKvEventTracking`; on success the tables are the request's again. -/
def admitResident (step : ResidentStep) (demands : Nat → GroupDemand) : Result (Option CacheCoordinator.Txn) := do
  let c := r.sched.coord
  let probe ← c.probePrefix []
  c.admitProbe probe demands
    { tables := step.resources.blockTables, checkpoints := step.progress.publishedStateCheckpointBlocks } step.told
    (some step.progress.accessEpoch)

def startStep (junctionTokens : Nat) (stream : Bool) (point : Request.PublicationPoint) :
    Result (ResidentStep × Round) := do
  let resources ← req.forwardResources "CacheProgress"
  let computed ← req.numComputedTokens
  let progress := { resources.cacheProgress with junctionTokens := junctionTokens }
  let (advanced, told) ← req.advanceRequestProgress r.sched.coord progress computed stream point
  let c ← copyDueCheckpoint r.sched.coord progress computed
  pure (⟨req, resources, computed, advanced, told⟩, r.setCoord c)

def refuseStep (step : ResidentStep) : Result Round := do
  let c ← dropDueCheckpoint r.sched.coord step.resources.cacheProgress step.numComputedTokens
  pure (r.setCoord c)

def finishStep (step : ResidentStep) (tables : Nat → BlockTable) (progress : CacheProgress) : Result Round := do
  let c ← dropReplaced r.sched.coord step.resources.cacheProgress step.numComputedTokens
  let req := (step.request.setBlockTables tables).setCacheProgress progress
  pure ((r.setCoord c).setRequest req)

def commitStep (step : ResidentStep) (txn : CacheCoordinator.Txn) (progress : CacheProgress) : Result Round :=
  ((r.setCoord txn.coord).recordAdmittedPages txn.result).finishStep step txn.holding.tables
    { progress with publishedStateCheckpointBlocks := txn.holding.checkpoints }

def chunkDemands (config : EngineConfig) (unscheduled reserve tokens : Nat) (checkpoint : Bool) : Nat → GroupDemand :=
  reservePrefillDemands config (makeGroupDemands config tokens .rotate checkpoint)
    { decodeInputTokens := reserve, completesPrefill := decide (tokens = unscheduled), promptHeadroomTokens := 0 }

def admitChunkWithCheckpoint (step : ResidentStep) (unscheduled reserve firstPos checkpoint tokens : Nat) :
    Result (Option CacheCoordinator.Txn) :=
  if writesInForwardCheckpoint checkpoint firstPos tokens r.sched.coord.prefixGranularity then
    r.admitResident step (chunkDemands r.sched.config unscheduled reserve tokens true)
  else pure none

structure Chunk where
  tokens : Nat
  decodeReserve : Nat

def admitChunk (step : ResidentStep) (unscheduled reserve firstPos checkpoint tokens : Nat) :
    Result (Option Chunk × Round) := do
  let chunk (tokens : Nat) : Chunk := ⟨tokens, if tokens = unscheduled then reserve else 0⟩
  match ← r.admitChunkWithCheckpoint step unscheduled reserve firstPos checkpoint tokens with
  | some txn =>
    let r ← r.commitStep step txn
      { step.progress with
        stateCheckpointTokens := checkpoint
        stateCheckpointBlocks := txn.result.stateCheckpointBlocks }
    return (some (chunk tokens), r)
  | none =>
    let tokens := r.sched.tokensWithoutCheckpoint firstPos checkpoint tokens
    match ← r.admitResident step (chunkDemands r.sched.config unscheduled reserve tokens false) with
    | some txn =>
      let r ← r.commitStep step txn step.progress
      return (some (chunk tokens), r)
    | none =>
      let r ← r.refuseStep step
      return (none, { r with admissionFailed := true })

def schedulePrefill (remaining : Int) (reserve : Nat) : Result (Option Chunk × Round) := do
  let s := r.sched
  let unscheduled := req.unscheduledPrefillSize
  let firstPos := req.prefillSize - unscheduled
  let resources ← req.forwardResources "CacheProgress"
  let junction := resources.cacheProgress.junctionTokens
  let tokens ← prefillChunkTokens s.coord firstPos false unscheduled remaining junction
  if tokens = 0 then
    return (none, r)
  let checkpoint := s.stateCheckpointOf req
  let tokens := chunkTowardInForwardCheckpoint checkpoint firstPos tokens junction s.config.maxScheduledTokens.toNat
    s.coord.prefixGranularity
  let natural := decide (0 < junction ∧ firstPos = junction) || decide (0 < checkpoint ∧ firstPos = checkpoint)
  let (step, r) ← r.startStep req (if junction ≤ firstPos then 0 else junction) s.config.streamsDeviceCacheToHost
    (if natural then .ownerContinues else .chunk)
  r.admitChunk step unscheduled reserve firstPos checkpoint tokens

/-! ## A decode -/

def decodeReserve (tables : Nat → BlockTable) (numComputedTokens reserve : Nat) : Nat :=
  let config := r.sched.config
  let c := r.sched.coord
  let dit := config.decodeTokens
  if dit ≤ 1 then reserve
  else
    let pending := if req.is .decoding then min req.resultsInFlight config.overlapScheduleDepth.toNat * dit else 0
    let verifyEnd := numComputedTokens + pending + max dit reserve
    let draftEnd :=
      if req.hasDeclaredBudget then
        min (min (verifyEnd + (CapacityModel.draftWindowTokens config.toSchedulerConfig).toNat) req.tokenLimit) int32Max
      else verifyEnd
    let decodeEnd := max verifyEnd draftEnd
    match (List.range c.groups.length).find? fun i => !c.groupIsState i with
    | none => 0
    | some i => decodeEnd - ((tables i).numBlocks * c.granularity i - (tables i).availableTokens)

def decodeStateStep : StateStepKind :=
  let config := r.sched.config
  if req.is .prefillDone && config.role == .fused && !config.disablePrefixCache then .rotate
  else if req.is .prefillDone && config.role == .d then .keep
  else .release

def releaseInputs (kind : StateStepKind) (t : CacheCoordinator.Holding × CacheCoordinator) :
    Result (CacheCoordinator.Holding × CacheCoordinator) :=
  if kind = .release then t.2.releaseStateInputs t.1 else pure t

def decodeInPlace (step : ResidentStep) (kind : StateStepKind) (reserve : Nat) : Result Round := do
  let c := r.sched.coord
  let holding ← c.consumeReservedTokens { tables := step.resources.blockTables } reserve
  let (holding, c) ← releaseInputs kind (holding, c)
  (r.setCoord c).finishStep step holding.tables step.progress

/-- `scheduleDecode`; whether the decode was granted. -/
def scheduleDecode : Result (Bool × Round) := do
  let s := r.sched
  let resources ← req.forwardResources "BlockTablesRef"
  let computed ← req.numComputedTokens
  let declared ← req.reserveNumTokensInNextScheduleEvent
  let reserve := r.decodeReserve req resources.blockTables computed declared.toNat
  let kind := r.decodeStateStep req
  let first := req.is .prefillDone
  let (step, r) ← r.startStep req resources.cacheProgress.junctionTokens (s.config.streamsDeviceCacheToHost && first)
    (if kind = .rotate then .ownerContinues else .chunk)
  if step.told.completedPages.isNone && kind != .rotate &&
      canConsumeReservedTokensInPlace r.sched.coord resources.blockTables reserve computed then
    let r ← r.decodeInPlace step kind reserve
    return (true, r)
  match ← r.admitResident step (makeGroupDemands s.config reserve kind false) with
  | some txn =>
    let r ← r.commitStep step txn step.progress
    return (true, r)
  | none =>
    let r ← r.refuseStep step
    return (false, { r with admissionFailed := true })

end Round

end TokenSpeed

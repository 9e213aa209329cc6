import TokenSpeed.Scheduler.CapacityModel
import TokenSpeed.Scheduler.Request
import TokenSpeed.Scheduler.Slots

/-!
# The scheduler's state and the events of its requests

The members of `Scheduler` (`scheduler/scheduler.h`) and the transitions of `fsm/forward_events.cpp`
and `fsm/pd_events.cpp`. A transition that ends a state lets go of what it owned: pages and checkpoint
blocks to the Device pool, the row to its allocator, an image to the Host and snapshot pools, a share of
the blob slot. KV-event descriptors, the stall diagnostic and storage counters, on which nothing
scheduled depends, are left out.
-/

namespace TokenSpeed

/-- The limits of `StorageConfig` that bound a request's wait. -/
structure PrefetchLimits where
  minPrefetchTokens : Int := 0
  maxPrefetchTokens : Int := 0
  waitTimeoutUs : Int := 0
  readyTimeoutUs : Int := 0
  deriving DecidableEq, Repr

/-- `SchedulerConfig` with the fields the capacity model does not read. -/
structure EngineConfig extends SchedulerConfig where
  hostTotalPages : Int := 0
  deviceTotalPages : Int := 0
  snapshotTotalPages : Int := 1
  maxRetractedRequests : Int := 0
  debugForceRetractionInterval : Int := 0
  disableL2Cache : Bool := false
  storageConfig : Option (StorageConfig × PrefetchLimits) := none
  enableMixedPrefillDecode : Bool := false
  prefixReplayTokens : Int := 0
  stateCheckpointInForward : Bool := false
  deriving DecidableEq, Repr

namespace EngineConfig

variable (config : EngineConfig)

def hasHostCache : Bool := !config.disableL2Cache && decide (1 < config.hostTotalPages)

def hasSnapshotPool : Bool := decide (1 < config.snapshotTotalPages)

def streamsDeviceCacheToHost : Bool := config.hasHostCache && config.role != .d

def decodeTokens : Nat := config.decodeInputTokens.toNat

def specs : List CacheGroupSpec :=
  config.cacheGroups.map fun group =>
    { attnKind := group.attnKind
      slidingWindow := if group.attnKind = .slidingWindow then (group.slidingWindowTokens.getD 0).toNat else 0
      replayable := group.replayable
      cacheBlocksPerLcmBlock := group.cacheBlocksPerLcmBlock.toNat
      blockGranularity := group.blockGranularity.toNat
      shardCount := group.shardCount.toNat }

/-- `SchedulerConfig::Validate`; the page counts of the groups and the storage limits have checks of
their own, which nothing here reads. -/
def validate : Result Unit := do
  config.validateCapacityInputs
  assert (1 < config.deviceTotalPages) "Scheduler: device cache must contain a null page and usable capacity"
  assert (0 ≤ config.prefixReplayTokens) "Scheduler: prefix_replay_tokens must be >= 0"
  assert (!(config.stateCheckpointInForward && config.disablePrefixCache && config.role != .d))
    "Scheduler: state_checkpoint_in_forward requires prefix caching"
  assert (config.storageConfig.all fun storage => storage.1.maxHostBlocks ≤ config.hostTotalPages - 1)
    "L3 Host credits must not exceed usable Host parents"
  assert (config.storageConfig.isNone || config.hasHostCache) "Scheduler: L3 storage requires Host L2 cache"
  assert (1 ≤ config.snapshotTotalPages)
    ("Scheduler: snapshot_allocator.total_pages (num_snapshot_pages, from --retraction-snapshot-host-gb) " ++
      "must include the null page: 1 means the engine never retracts")
  assert (0 ≤ config.maxRetractedRequests)
    "Scheduler: max_retracted_requests (--retraction-snapshot-max-requests) must be >= 0"
  assert (config.hasSnapshotPool == decide (0 < config.maxRetractedRequests))
    ("Scheduler: a snapshot pool above the null page (num_snapshot_pages > 1, from " ++
      "--retraction-snapshot-host-gb) requires max_retracted_requests > 0 " ++
      "(--retraction-snapshot-max-requests), and max_retracted_requests > 0 requires a snapshot pool")
  assert (!(config.role == .p && config.hasSnapshotPool))
    ("Scheduler: the P role never retracts and takes no snapshot pool (--retraction-snapshot-host-gb " ++
      "must be 0 on the prefill role)")
  assert (config.debugForceRetractionInterval == 0 || config.hasSnapshotPool)
    ("Scheduler: debug_force_retraction_interval (--debug-force-retraction-interval) requires a snapshot " ++
      "pool (--retraction-snapshot-host-gb > 0): without one nothing can be retracted")

def group (i : Nat) : CacheGroupConfig := config.cacheGroups.getD i { groupId := "" }

end EngineConfig

/-- `Scheduler`. The coordinator is the one the storage manager refers to; without L3 storage the
manager stays empty. -/
structure Scheduler where
  config : EngineConfig
  reqPool : ReqPoolAllocator
  snapshotSlots : SharedSlots
  storage : StorageTransferManager
  transfers : TierTransferManager := {}
  storageNowUs : Int := 0
  storageAllowed : Bool := false
  forwardAllowed : Bool := true
  pendingWriteBacks : List WriteBackOperation := []
  maxSingleRequestTokens : Int := 0
  nextRetractionEpoch : Nat := 1
  planCalls : Nat := 0
  forcedVictim : Option Nat := none
  requests : List Request := []

namespace Scheduler

def ofConfig (config : EngineConfig) (sha256 : List Nat → List Nat) (maxSingleRequestTokens : Int) : Scheduler where
  config := config
  reqPool := .make config.maxBatchSize.toNat
  snapshotSlots := .make config.maxRetractedRequests.toNat
  storage :=
    { coordinator := CacheCoordinator.make config.specs config.prefixGranularity.toNat sha256
        (config.deviceTotalPages - 1).toNat
        (if config.hasHostCache then some (config.hostTotalPages - 1).toNat else none)
        (if config.hasSnapshotPool then some (config.snapshotTotalPages - 1).toNat else none)
        config.streamsDeviceCacheToHost config.storageConfig.isSome
      config := (config.storageConfig.map (·.1)).getD ⟨0, 0, 0, 0, ⟨0, 0, 0⟩, ⟨0, 0, 0⟩⟩ }
  maxSingleRequestTokens := maxSingleRequestTokens

def make (config : EngineConfig) (sha256 : List Nat → List Nat) : Result Scheduler := do
  config.validate
  let model ← CapacityModel.make config.toSchedulerConfig
  let tokens ← model.maxSingleRequestTokens (config.deviceTotalPages - 1)
  pure (ofConfig config sha256 tokens)

variable (s : Scheduler)

def coord : CacheCoordinator := s.storage.coordinator

variable (c : CacheCoordinator) (resources : ForwardResources) (r : Request)

def setCoord : Scheduler := { s with storage := { s.storage with coordinator := c } }

/-- Whether `storage_transfers_` is there. -/
def storageEnabled : Bool := s.config.storageConfig.isSome

def findRequest (id : Nat) : Option Request := s.requests.find? fun r => r.id == id

def setRequest : Scheduler :=
  { s with requests := s.requests.map fun x => if x.id == r.id then r else x }

def pdTransferInFlight : Bool :=
  match s.config.role with
  | .d => r.is .remotePrefilling
  | .p => r.holdsPages && !r.is .finishing
  | .fused => false

def retractedSize : Nat := s.requests.countP fun r => r.isAnyOf [.retracted, .restoring]

/-! ## What a state lets go of -/

def dropCheckpointBlocks (blocks : Nat → Option CacheBlockLocation) : Result CacheCoordinator :=
  ((List.range c.groups.length).filterMap blocks).foldlM CacheCoordinator.dropDevice c

/-- A `CacheProgress` is destroyed. -/
def dropProgress (progress : CacheProgress) : Result CacheCoordinator := do
  let c ← dropCheckpointBlocks c progress.publishedStateCheckpointBlocks
  dropCheckpointBlocks c progress.stateCheckpointBlocks

/-- `FreeRequest`, and the progress destroyed with the state. -/
def freeResources : Result CacheCoordinator := do
  let (_, c) ← c.freeTables { tables := resources.blockTables }
  dropProgress c resources.cacheProgress

def returnRow (row : Option Nat) : Scheduler :=
  match row with
  | none => s
  | some slot => { s with reqPool := s.reqPool.deallocate slot }

def releaseResources : Result Scheduler := do
  let c ← freeResources s.coord resources
  pure ((s.setCoord c).returnRow resources.reqPoolIndex)

def releaseBlob (slot : Nat) : Scheduler := { s with snapshotSlots := s.snapshotSlots.release slot }

/-- A `Retracted` state ends with its image. -/
def releaseRetracted (r : Retracted) : Result Scheduler := do
  let c ← s.coord.dropImage r.image
  let c ← dropProgress c r.cacheProgress
  pure ((s.setCoord c).releaseBlob r.blobSlot)

/-- A `Restoring` state ends: its pages return, then the image. -/
def releaseRestoring (r : Restoring) : Result Scheduler := do
  let (_, c) ← s.coord.freeTables { tables := r.resources.blockTables }
  let c ← c.dropImage r.image
  let c ← dropProgress c r.resources.cacheProgress
  pure (((s.setCoord c).releaseBlob r.blobSlot).returnRow r.resources.reqPoolIndex)

/-! ## Events -/

def applyFinish : Result Scheduler :=
  match r.state with
  | .prefillDone resources _ _ _ | .prefillAwaitingResult resources _ _ | .decoding resources _ _ =>
    pure (s.setRequest (r.toState (.finishing resources)))
  | .retracted retracted => do
    let s ← s.releaseRetracted retracted
    pure (s.setRequest (r.toState .finished))
  | .restoring restoring => do
    let s ← s.releaseRestoring restoring
    pure (s.setRequest (r.toState .finished))
  | .finishing _ | .finished => pure s
  | state => state.invalid "FinishEvent"

def applyRelease : Result Scheduler :=
  match r.state with
  | .finishing resources => do
    assert (resources.resultsInFlight == 0) "a request is released only once its forwards have landed"
    let s ← s.releaseResources resources
    pure (s.setRequest (r.toState .finished))
  | state => state.invalid "ReleaseEvent"

def applyAbort : Result Scheduler :=
  match r.state with
  | .bootstrapping _ | .submitted _ | .prefetching _ _ _ => pure (s.setRequest (r.toState .finished))
  | .prefilling resources _ _ | .remotePrefilling resources _ _ | .prefillDone resources _ _ _
  | .prefillAwaitingResult resources _ _ | .decoding resources _ _ | .finishing resources => do
    let s ← s.releaseResources resources
    pure (s.setRequest (r.toState .finished))
  | .retracted retracted => do
    let s ← s.releaseRetracted retracted
    pure (s.setRequest (r.toState .finished))
  | .restoring restoring => do
    let s ← s.releaseRestoring restoring
    pure (s.setRequest (r.toState .finished))
  | .finished => pure s

def resumeShape : RequestState → Option (ForwardResources × ResumeShape)
  | .prefilling resources window reserve => some (resources, .prefilling window reserve)
  | .prefillDone resources window reserve _ => some (resources, .prefillDone window reserve)
  | .decoding resources reserve _ => some (resources, .decoding reserve)
  | _ => none

/-- A `Decoding` victim's reserve is read through its accessor. -/
def checkReserve : ResumeShape → Result Unit
  | .decoding reserve => assert (0 ≤ reserve) "Assertion failed"
  | _ => pure ()

def applyRetract (image : Nat → ImageTable) (blobSlot : Nat) (pendingStoreOps : List Nat) : Result Scheduler :=
  match resumeShape r.state with
  | none => r.state.invalid "SnapshotRetractEvent"
  | some (resources, shape) => do
    checkReserve shape
    assert (resources.resultsInFlight == 0) "a retraction victim must be quiescent"
    let (_, c) ← s.coord.freeTables { tables := resources.blockTables }
    let retracted : Retracted :=
      { cacheProgress := resources.cacheProgress
        image := image
        blobSlot := blobSlot
        shape := shape
        retractionEpoch := s.nextRetractionEpoch
        resumesGeneration := r.hasGeneratedOutput
        pendingStoreOps := pendingStoreOps }
    let s := { s.setCoord c with nextRetractionEpoch := s.nextRetractionEpoch + 1 }
    pure ((s.returnRow resources.reqPoolIndex).setRequest (r.toState (.retracted retracted)))

def applyStoreLanded (opId : Nat) (published : List HostPublication) : Result Scheduler :=
  match r.state with
  | .retracted retracted => do
    let (image, c) ← s.coord.followPublished published retracted.image
    pure ((s.setCoord c).setRequest (r.toState (.retracted { retracted with
        image := image
        pendingStoreOps := retracted.pendingStoreOps.filter (· != opId) })))
  | state => state.invalid "StoreLandedEvent"

def applyScheduleRestore (tables : Nat → BlockTable) (restoreOp : Nat) : Result Scheduler :=
  match r.state with
  | .retracted retracted => do
    assert retracted.imageLanded "a restore is issued only after the image landed"
    let r := { r with generatedTokensAtAdmission := r.generatedTokens }
    pure (s.setRequest (r.toState (.restoring
      { resources :=
          { reqPoolIndex := none
            blockTables := tables
            cacheProgress := retracted.cacheProgress
            resultsInFlight := 0 }
        image := retracted.image
        blobSlot := retracted.blobSlot
        shape := retracted.shape
        restoreOp := restoreOp })))
  | state => state.invalid "ScheduleRestoreEvent"

def resumed : ResumeShape → RequestState
  | .prefilling window reserve => .prefilling resources window reserve
  | .prefillDone window reserve => .prefillDone resources window reserve true
  | .decoding reserve => .decoding resources reserve true

/-- `RestoreDoneEvent`: the request resumes in its new row, and the image dies. -/
def applyRestoreDone (row : Nat) : Result Scheduler :=
  match r.state with
  | .restoring restoring => do
    assert restoring.resources.reqPoolIndex.isNone "a Restoring request holds no row of its own"
    let c ← s.coord.dropImage restoring.image
    let resources := { restoring.resources with reqPoolIndex := some row }
    pure (((s.setCoord c).releaseBlob restoring.blobSlot).setRequest (r.toState (resumed resources restoring.shape)))
  | state => state.invalid "RestoreDoneEvent"

def applyUpdateReserve (value : Int) : Result Scheduler :=
  match r.state with
  | .decoding resources _ resumed => pure (s.setRequest (r.toState (.decoding resources value resumed)))
  | .finished => pure s
  | state => state.invalid "UpdateReserveNumTokensEvent"

def applyExtendResult (tokens : List Token) : Result Scheduler :=
  let extended := { r with tokens := r.tokens ++ tokens }
  match r.state with
  | .prefillDone _ _ _ _ | .decoding _ _ _ | .finishing _ => pure (s.setRequest extended)
  | .prefillAwaitingResult resources window reserve =>
    if tokens.isEmpty then pure (s.setRequest r)
    else pure (s.setRequest (extended.toState (.prefillDone resources window reserve false)))
  | .prefilling _ _ _ => do
    assert tokens.isEmpty "ExtendResultEvent: an intermediate prefill chunk produces no tokens"
    pure (s.setRequest r)
  | .remotePrefilling _ _ _ | .finished => pure (s.setRequest r)
  | state => state.invalid "ExtendResultEvent"

def applyBootstrapped : Result Scheduler :=
  match r.state with
  | .bootstrapping admission => pure (s.setRequest (r.toState (.submitted admission)))
  | .prefetching _ admission prefetch => pure (s.setRequest (r.toState (.prefetching false admission prefetch)))
  | state => state.invalid "BootstrappedEvent"

def applyRemotePrefillDone (token : Token) : Result Scheduler :=
  match r.state with
  | .remotePrefilling resources window reserve =>
    pure (s.setRequest ({ r with tokens := r.tokens ++ [token] }.toState (.prefillDone resources window reserve false)))
  | state => state.invalid "RemotePrefillDoneEvent"

def applyStartPrefetch (prefetch : Prefetch) : Result Scheduler :=
  match r.state with
  | .submitted admission =>
    pure (s.setRequest (r.toState (.prefetching false { admission with storagePrepared := true } prefetch)))
  | .bootstrapping admission =>
    pure (s.setRequest (r.toState (.prefetching true { admission with storagePrepared := true } prefetch)))
  | state => state.invalid "StartPrefetchEvent"

def continuation (awaitsBootstrap : Bool) (admission : AdmissionResources) : RequestState :=
  if awaitsBootstrap then .bootstrapping admission else .submitted admission

def applyFinishPrefetch (hold : Option StorageReadyHold) : Result Scheduler :=
  match r.state with
  | .prefetching awaitsBootstrap admission _ =>
    pure (s.setRequest (r.toState (continuation awaitsBootstrap { admission with storageHold := hold })))
  | state => state.invalid "FinishPrefetchEvent"

end Scheduler

end TokenSpeed

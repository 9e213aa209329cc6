import TokenSpeed.Scheduler.Plan

/-!
# Events and runs

The handlers of `outside_event_handler.cpp`, `SubmitRequests`, `Advance` and the cache flushes of
`scheduler.cpp`, and the runs they make. A call that throws ends a run: the process it happens in is
gone.
-/

namespace TokenSpeed

/-- The events `Advance` is handed. -/
inductive OutsideEvent where
  | bootstrapped (id : Nat)
  | failed (id : Nat)
  | succeeded (id : Nat)
  | remotePrefillDone (id : Nat) (bootstrapToken : Token)
  | finish (id : Nat)
  | updateReserve (id : Nat) (value : Int)
  | extendResult (id : Nat) (tokens : List Token) (specCandidateIds : List Token)
  | abort (id : Nat)
  | writeBackDone (opId : Nat)
  | loadBackDone (opId : Nat)
  | snapshotDone (opId : Nat)
  | restoreDone (opId : Nat)
  | storageTick (nowUs : Int) (pressure : StoragePressure) (allowStorage allowForward : Bool)
  | storageDone (event : StorageDone)
  | storageDetach (id : Nat)
  deriving DecidableEq, Repr

namespace Scheduler

variable (s : Scheduler)

/-! ## Events of the peer -/

variable (includeHost : Bool) (opId : Nat) (published : List HostPublication) (r : Request)

def handleBootstrapped : Result Scheduler :=
  if r.isAnyOf [.bootstrapping, .prefetching] then s.applyBootstrapped r else pure s

def releaseThen (event : Scheduler → Request → Result Scheduler) : Result Scheduler := do
  let s ← s.releaseStorage r
  s.withRequest r.id event

def handleFailed : Result Scheduler :=
  if r.is .finished then pure s else s.releaseThen r applyAbort

def handleSucceeded : Result Scheduler :=
  if r.isAnyOf [.finishing, .finished] then pure s
  else do
    assert (r.isAnyOf [.prefillDone, .decoding]) ("PD SucceededEvent received in state " ++ r.state.kind.name)
    s.releaseThen r applyFinish

def handleRemotePrefillDone (token : Token) (r : Request) : Result Scheduler :=
  if r.is .remotePrefilling then do
    assert (0 ≤ token) "PD RemotePrefillDoneEvent requires a non-negative bootstrap token"
    s.applyRemotePrefillDone r token
  else do
    assert (r.isAnyOf [.prefillDone, .decoding, .finishing, .finished])
      ("PD RemotePrefillDoneEvent received before destination admission; state=" ++ r.state.kind.name)
    pure s

/-! ## Events of this engine's forwards -/

def handleFinish : Result Scheduler := do
  assert (!s.pdTransferInFlight r) "PD Finish received while transfer pages are pinned"
  s.releaseThen r applyFinish

def handleUpdateReserve (value : Int) (r : Request) : Result Scheduler := s.applyUpdateReserve r value

def storeSpecCandidates (ids : List Token) (r : Request) : Result Scheduler :=
  pure (if ids.isEmpty then s else s.setRequest { r with specCandidateIds := ids })

def handleExtendResult (tokens specCandidateIds : List Token) (r : Request) : Result Scheduler := do
  let r ← r.noteResultLanded
  let s ← s.applyExtendResult r tokens
  s.withRequest r.id fun s r => s.storeSpecCandidates specCandidateIds r

def handleAbort : Result Scheduler := s.releaseThen r applyAbort

/-! ## Events of the cache -/

def setTransfers (transfers : TierTransferManager) (c : CacheCoordinator) : Scheduler :=
  { s.setCoord c with transfers := transfers }

def noteStoreLanded : Result Scheduler :=
  match r.state with
  | .retracted retracted => if retracted.waitsForStore opId then s.applyStoreLanded r opId published else pure s
  | _ => pure s

def noteStoreLandedAll : Result Scheduler :=
  (s.requests.map (·.id)).foldlM (fun s id => s.withRequest id fun s r => s.noteStoreLanded opId published r) s

def queuePublished : Scheduler :=
  if s.storageEnabled && s.storageAllowed then s.setStorage (s.storage.queueBackups (published.map (·.key))) else s

def handleWriteBackDone : Result Scheduler := do
  let (published, transfers, c) ← s.transfers.completeWriteBack s.coord opId
  let s ← (s.setTransfers transfers c).noteStoreLandedAll opId published
  let s := s.queuePublished published
  let c ← (published.map (·.block)).foldlM CacheCoordinator.dropHost s.coord
  pure (s.setCoord c)

def handleLoadBackDone : Result Scheduler := do
  let (transfers, c) ← s.transfers.completeLoadBack s.coord opId
  pure (s.setTransfers transfers c)

def noteSnapshotLanded : Result Scheduler :=
  if r.is .retracted then s.applyStoreLanded r opId [] else pure s

def handleSnapshotDone : Result Scheduler := do
  let (store, transfers, c) ← s.transfers.completeSnapshotStore s.coord opId
  match store with
  | none => return s
  | some store =>
    let s := (s.setTransfers transfers c).releaseBlob store.blobSlot
    s.withRequest store.requestId fun s r => s.noteSnapshotLanded opId r

def resumes (requestId opId : Nat) : Bool :=
  (s.findRequest requestId).any fun r =>
    match r.state with
    | .restoring restoring => restoring.restoreOp == opId
    | _ => false

def placeRow (resumed : Bool) (restore : InFlightSnapshotRestore) : Result Scheduler :=
  if resumed then s.withRequest restore.requestId fun s r => s.applyRestoreDone r restore.requestPoolIndex
  else pure (s.returnRow restore.requestPoolIndex)

def handleRestoreDone : Result Scheduler :=
  match s.transfers.snapshotRestoreRequest opId with
  | none => pure s
  | some requestId => do
    let resumed := s.resumes requestId opId
    let (restore, transfers, c) ← s.transfers.completeSnapshotRestore s.coord opId resumed
    match restore with
    | none => pure s
    | some restore => ((s.setTransfers transfers c).releaseBlob restore.blobSlot).placeRow resumed restore

def storageExpired : Bool :=
  (match r.state with
    | .prefetching _ _ prefetch => decide (prefetch.deadlineUs ≤ s.storageNowUs)
    | _ => false) ||
    (r.state.admission?.bind (·.storageHold)).any fun hold => decide (hold.deadlineUs ≤ s.storageNowUs)

def expireIfDue : Result Scheduler := if s.storageExpired r then s.releaseStorage r else pure s

def handleStorageTick (nowUs : Int) (pressure : StoragePressure) (allowStorage allowForward : Bool) :
    Result Scheduler := do
  assert (s.storageNowUs ≤ nowUs) "L3 control clock moved backwards"
  let storage ← if s.storageEnabled then s.storage.updatePressure pressure else pure s.storage
  let s :=
    { s.setStorage storage with
      storageNowUs := nowUs
      storageAllowed := allowStorage
      forwardAllowed := allowForward }
  (s.requests.map (·.id)).foldlM (fun s id => s.withRequest id expireIfDue) s

def handleStorageDone (event : StorageDone) : Result Scheduler := do
  assert s.storageEnabled "storage completion without configured L3"
  let storage ← s.storage.complete event
  pure (s.setStorage storage)

def handleEvent : OutsideEvent → Result Scheduler
  | .bootstrapped id => s.withRequest id handleBootstrapped
  | .failed id => s.withRequest id handleFailed
  | .succeeded id => s.withRequest id handleSucceeded
  | .remotePrefillDone id token => s.withRequest id fun s r => s.handleRemotePrefillDone token r
  | .finish id => s.withRequest id handleFinish
  | .updateReserve id value => s.withRequest id fun s r => s.handleUpdateReserve value r
  | .extendResult id tokens specCandidateIds => s.withRequest id fun s r =>
    s.handleExtendResult tokens specCandidateIds r
  | .abort id => s.withRequest id handleAbort
  | .writeBackDone opId => s.handleWriteBackDone opId
  | .loadBackDone opId => s.handleLoadBackDone opId
  | .snapshotDone opId => s.handleSnapshotDone opId
  | .restoreDone opId => s.handleRestoreDone opId
  | .storageTick nowUs pressure allowStorage allowForward =>
    s.handleStorageTick nowUs pressure allowStorage allowForward
  | .storageDone event => s.handleStorageDone event
  | .storageDetach id => s.withRequest id releaseStorage

/-! ## Settling -/

def publishFinal : Result (List ContentHash × Scheduler) := do
  let resources ← r.forwardResources "CacheProgress"
  let computed ← r.numComputedTokens
  let old := resources.cacheProgress
  let (advanced, told) ← r.advanceRequestProgress s.coord old computed false .final
  let c ← Round.copyDueCheckpoint s.coord old computed
  let (holding, c) ← publishVictim c
    { tables := resources.blockTables, checkpoints := advanced.publishedStateCheckpointBlocks } told old.accessEpoch
  let c ← dropCheckpointBlocks c holding.checkpoints
  let tail := (told.completedPages.bind (·.tail)).map (·.hash)
  pure (advanced.prefixHashes ++ tail.toList, (s.setCoord c).setRequest (r.setBlockTables holding.tables))

def publishCompletedPages : Result Scheduler := do
  let (hashes, s) ← s.publishFinal r
  if s.config.streamsDeviceCacheToHost then
    let (op, transfers, c) ← s.transfers.startPendingStores (s.coord.queueCachedBlocksForStore hashes) .pinnedUntilAck
    pure { s.setTransfers transfers c with pendingWriteBacks := s.pendingWriteBacks ++ op.toList }
  else pure s

def settleFinished : Result Scheduler :=
  if !r.is .finishing || 0 < r.resultsInFlight then pure s
  else do
    let s ← s.publishCompletedPages r
    s.withRequest r.id applyRelease

def settleFinishedRequests : Result Scheduler :=
  (s.requests.map (·.id)).foldlM (fun s id => s.withRequest id settleFinished) s

def advance (events : List OutsideEvent) : Result Scheduler := do
  let s ← events.foldlM handleEvent s
  s.settleFinishedRequests

/-! ## Submission -/

def specTokenLimit (spec : RequestSpec) : Int :=
  spec.tokens.length + if s.config.role = .p then 0 else max spec.maxNewTokens s.config.decodeInputTokens

def checkSpec (submitted : List Nat) (spec : RequestSpec) : Result Unit := do
  assert (!spec.tokens.isEmpty) "Scheduler: request tokens must be non-empty"
  assert (!(s.findRequest spec.requestId).isSome && !decide (spec.requestId ∈ submitted))
    "Scheduler: duplicate request id"
  assert (0 ≤ spec.maxNewTokens) "Scheduler: max_new_tokens must be non-negative"
  assert (0 ≤ spec.maxCachedPrefixTokens) "Scheduler: max_cached_prefix_tokens must be non-negative"
  assert (s.specTokenLimit spec ≤ int32Max) "Scheduler: request token limit exceeds int32 range"
  assert (s.specTokenLimit spec ≤ s.maxSingleRequestTokens)
    ("Scheduler: request token limit " ++ toString (s.specTokenLimit spec) ++ " exceeds cache capacity " ++
      toString s.maxSingleRequestTokens)

def checkedRequests (submitted : List Nat) : List RequestSpec → Result (List Request)
  | [] => pure []
  | spec :: rest => do
    s.checkSpec submitted spec
    let requests ← checkedRequests (submitted ++ [spec.requestId]) rest
    pure (.make spec s.config.role :: requests)

def submitRequests (specs : List RequestSpec) : Result Scheduler := do
  let requests ← s.checkedRequests [] specs
  pure { s with requests := s.requests ++ requests }

/-! ## Flushes -/

def flushRefused : Bool :=
  s.requests.any s.pdTransferInFlight || s.transfers.hasAnyInFlight ||
    (includeHost && s.storageEnabled && !s.storage.operations.isEmpty) || decide (0 < s.retractedSize)

def clearTiers : Result (Bool × CacheCoordinator) :=
  if includeHost then s.coord.clearCache else s.coord.clearDeviceCache

def clearMetadata (includeHost : Bool) : Result Scheduler :=
  if includeHost && s.storageEnabled then do
    let storage ← s.storage.clearMetadata
    pure (s.setStorage storage)
  else pure s

/-- `clearCache`; whether the flush was carried out. -/
def clearCache : Result (Bool × Scheduler) :=
  if s.flushRefused includeHost then pure (false, s)
  else do
    let (cleared, c) ← s.clearTiers includeHost
    if cleared then
      let s ← (s.setCoord c).clearMetadata includeHost
      return (true, s)
    return (false, s.setCoord c)

/-! ## Runs -/

inductive Call where
  | submit (specs : List RequestSpec)
  | plan
  | advance (events : List OutsideEvent)
  | clear (includeHost : Bool)
  deriving DecidableEq, Repr

def call : Call → Result (Option ExecutionPlan × Scheduler)
  | .submit specs => do
    let s ← s.submitRequests specs
    pure (none, s)
  | .plan => do
    let (plan, s) ← s.nextExecutionPlan
    pure (some plan, s)
  | .advance events => do
    let s ← s.advance events
    pure (none, s)
  | .clear includeHost => do
    let (_, s) ← s.clearCache includeHost
    pure (none, s)

def run (s : Scheduler) : List Call → Result (List ExecutionPlan × Scheduler)
  | [] => pure ([], s)
  | c :: calls => do
    let (plan, s) ← s.call c
    let (plans, s) ← s.run calls
    pure (plan.toList ++ plans, s)

def Step (s s' : Scheduler) : Prop := ∃ c plan, s.call c = .ok (plan, s')

def Reachable (s : Scheduler) : Prop :=
  ∃ config sha256 s₀, make config sha256 = .ok s₀ ∧ Relation.ReflTransGen Step s₀ s

end Scheduler

end TokenSpeed

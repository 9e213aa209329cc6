import TokenSpeed.Scheduler.Operations

/-!
# Retraction and readmission

Who gives way when an admission finds no capacity, how its image is taken, and how it comes back:
`chooseVictim`, `retractVictim`, `maybeForceRetraction` and `scheduleReadmission` of
`operations/forward.cpp`.
-/

namespace TokenSpeed

namespace Scheduler

variable (s : Scheduler)

/-! ## Victims -/

def imageFits (req : Request) : Result Bool :=
  if s.snapshotSlots.slots.availableSlots == 0 then pure false
  else do
    let resources ← req.forwardResources "CacheProgress"
    let computed ← req.numComputedTokens
    let (_, told) ← req.advanceRequestProgress s.coord resources.cacheProgress computed false .final
    let published ← s.coord.publishedDataSlotsAfter resources.blockTables computed told
    s.coord.snapshotPoolHolds resources.blockTables computed
      (if s.coord.hostPool.isSome then published else fun _ => [])

def retractable (ignoreExemption : Bool) (req : Request) : Bool :=
  req.isAnyOf [.prefilling, .prefillDone, .decoding] &&
    (ignoreExemption || !req.reserveCoversGeneration retractionSafeSteps)

structure VictimChoice where
  victim : Option Nat := none
  imageFits : Bool := false
  deriving DecidableEq, Repr

def decodeRank (req : Request) : Int ×ₗ Nat ×ₗ Nat :=
  let tables := (req.state.resources?.map (·.blockTables)).getD fun _ => {}
  toLex (-(s.coord.numNewlyReleasableLcmBlocks tables : Int), toLex (req.generatedTokens, req.id))

def rankedVictims (residents : List Request) : List Request :=
  ((residents.filter fun req => req.is .prefilling).insertionSort fun a b => b.tokenSize ≤ a.tokenSize) ++
    ((residents.filter fun req => !req.is .prefilling).insertionSort fun a b => s.decodeRank a ≤ s.decodeRank b)

def firstFitting : List Request → Result (Option Nat)
  | [] => pure none
  | req :: rest => do
    if ← s.imageFits req then return some req.id
    firstFitting rest

def chooseVictim (candidates : List Nat) (ignoreExemption : Bool) : Result VictimChoice := do
  let residents := (candidates.filterMap s.findRequest).filter (retractable ignoreExemption)
  match ← s.firstFitting (s.rankedVictims residents) with
  | some id => return { victim := some id, imageFits := true }
  | none => return { victim := residents.getLast?.map (·.id) }

/-! ## Images -/

def publishVictim (c : CacheCoordinator) (holding : CacheCoordinator.Holding) (told : RequestProgress) (epoch : Nat) :
    Result (CacheCoordinator.Holding × CacheCoordinator) :=
  if told.completedPages.isSome then c.cacheCompletedBlocks holding told epoch else pure (holding, c)

def publishCompletedPrefix (victim : Request) : Result Scheduler := do
  let resources ← victim.forwardResources "CacheProgress"
  let computed ← victim.numComputedTokens
  let old := resources.cacheProgress
  let (advanced, told) ← victim.advanceRequestProgress s.coord old computed false .final
  let c ← Round.copyDueCheckpoint s.coord old computed
  let (holding, c) ← publishVictim c
    { tables := resources.blockTables, checkpoints := advanced.publishedStateCheckpointBlocks } told old.accessEpoch
  let c ← dropCheckpointBlocks c holding.checkpoints
  let c ← Round.dropReplaced c old computed
  let next := (victim.setBlockTables holding.tables).setCacheProgress
    { advanced with publishedStateCheckpointBlocks := fun _ => none }
  pure ((s.setCoord c).setRequest next)

end Scheduler

namespace Round

variable (r : Round)

def takeVictimImage (victim : Request) : Result (Option ImageShortfall × Round) := do
  let s := r.sched
  let resources ← victim.forwardResources "RequestPoolIndex"
  let computed ← victim.numComputedTokens
  let (blob, slots) ← s.snapshotSlots.allocate
  match resources.reqPoolIndex with
  | none => .error (.assertion "snapshot store op must name the victim's request slot and its blob slot")
  | some row =>
    let (stores, transfers, c) ← s.transfers.startRetractionStores s.coord victim.id row blob
      resources.blockTables computed
    let s := { s.setCoord c with transfers := transfers, snapshotSlots := slots }
    match stores with
    | none => return (some .snapshotPool, { r with sched := s.releaseBlob blob })
    | some stores =>
      let victim := { victim with retractionCount := victim.retractionCount + 1 }
      let s := { s with snapshotSlots := s.snapshotSlots.share blob }
      let s ← s.applyRetract victim stores.image blob stores.pendingStoreOps
      return (none, { r with
        sched := s
        writeBacks := r.writeBacks ++ stores.hostStore.toList
        snapshotStores := r.snapshotStores ++ [stores.snapshotStore] })

def retractVictim (victim : Request) : Result (Option ImageShortfall × Round) :=
  if r.sched.snapshotSlots.slots.availableSlots == 0 then pure (some .blobSlot, r)
  else do
    let s ← r.sched.publishCompletedPrefix victim
    match s.findRequest victim.id with
    | none => .error (.assertion "unknown request")
    | some victim => takeVictimImage { r with sched := s } victim

def onImageDoesNotFit (id : Nat) (shortfall : ImageShortfall) : Result Round :=
  match r.sched.findRequest id with
  | none => .error (.assertion "unknown request")
  | some victim => do
    let s ← r.sched.applyAbort victim
    pure { r with sched := s, aborts := r.aborts ++ [⟨id, shortfall⟩] }

/-! ## Forced retraction -/

variable (interval : Int) (req : Request) (retracted : Retracted) (candidates : List Nat)

def isForcedKind : Bool :=
  if 0 < interval then req.is .decoding else req.is .prefilling

def armedRequest : Option Request :=
  (r.sched.forcedVictim.bind r.sched.findRequest).filter (isForcedKind interval)

def armCandidate : Option Request :=
  if r.sched.planCalls % interval.natAbs ≠ 0 then none
  else
    (candidates.filterMap r.sched.findRequest).find? fun req =>
      isForcedKind interval req && !r.sched.pdTransferInFlight req && !r.isScheduled req.id

def forceRetraction (armed : Request) : Result Round :=
  if 0 < armed.resultsInFlight then
    pure ({ r with sched := { r.sched with forcedVictim := some armed.id } }.markScheduled armed.id)
  else do
    let (_, r) ← { r with sched := { r.sched with forcedVictim := none } }.retractVictim armed
    pure r

def maybeForceRetraction : Result Round :=
  let interval := r.sched.config.debugForceRetractionInterval
  if interval = 0 then pure r
  else
    match (r.armedRequest interval).or (r.armCandidate interval candidates) with
    | none => pure { r with sched := { r.sched with forcedVictim := none } }
    | some armed => r.forceRetraction armed

/-! ## Readmission -/

def maxRestoreAttemptsPerRound : Nat := 4

def landedImage : Option Retracted :=
  match req.state with
  | .retracted retracted => if retracted.imageLanded then some retracted else none
  | _ => none

def readmissionRank : Nat ×ₗ Nat :=
  toLex (if retracted.resumesGeneration then 0 else 1, retracted.retractionEpoch)

def rankedReadmissions : List (Request × Retracted) :=
  ((candidates.filterMap r.sched.findRequest).filterMap fun req =>
    (landedImage req).map fun retracted => (req, retracted)).insertionSort
      fun a b => readmissionRank a.2 ≤ readmissionRank b.2

def restoreReserve : PrefillReserve :=
  let headroom := req.admissionHeadroom Scheduler.retractionSafeSteps
  let unscheduled :=
    match retracted.shape with
    | .prefilling window _ => req.prefillSize - window.pastEnd
    | _ => 0
  { decodeInputTokens := (max r.sched.config.decodeInputTokens retracted.shape.reserve).toNat
    completesPrefill :=
      match retracted.shape with
      | .prefilling _ _ => false
      | _ => true
    promptHeadroomTokens := if 0 < headroom then unscheduled + headroom else 0 }

def startRestore (txn : CacheCoordinator.Txn) : Result Round := do
  let s := r.sched.setCoord txn.coord
  let (row, reqPool) ← s.reqPool.allocate
  let (op, transfers) ← s.transfers.startSnapshotRestore s.coord req.id row retracted.blobSlot txn.result.loadPairs
    txn.result.snapshotPairs
  let s := { s with
    reqPool := reqPool
    transfers := transfers
    snapshotSlots := s.snapshotSlots.share retracted.blobSlot }
  let s ← s.applyScheduleRestore req txn.holding.tables op.opId
  pure (({ r with sched := s, snapshotRestores := r.snapshotRestores ++ [op] }.recordAdmittedPages
    txn.result).markScheduled
    req.id)

def scheduleRestore : Result (Bool × Round) := do
  if r.sched.reqPool.availableSlots == 0 then
    return (false, r)
  let config := r.sched.config
  let demands := reservePrefillDemands config (makeGroupDemands config 0 .keep false) (r.restoreReserve req retracted)
  match ← r.sched.coord.restore retracted.image demands {} retracted.cacheProgress.accessEpoch with
  | none => return (false, { r with admissionFailed := true })
  | some txn =>
    let r ← r.startRestore req retracted txn
    return (true, r)

def tryReadmissions : List (Request × Retracted) → Bool → Round → Result (Bool × Round)
  | [], isSealed, r => pure (isSealed, r)
  | (req, retracted) :: rest, isSealed, r => do
    let (restored, r) ← { r with admissionFailed := false }.scheduleRestore req retracted
    if restored || !r.admissionFailed then
      return (isSealed, r)
    tryReadmissions rest true r

/-- `scheduleReadmission`; whether new prompts are sealed. -/
def scheduleReadmission : Result (Bool × Round) :=
  tryReadmissions ((r.rankedReadmissions candidates).take maxRestoreAttemptsPerRound) false r

end Round

end TokenSpeed

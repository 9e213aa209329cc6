import TokenSpeed.Scheduler.Retraction
import TokenSpeed.Scheduler.Storage

/-!
# Building a plan

The role grammars of `operations/forward.cpp`, the capacity retraction they share, and
`NextExecutionPlan` of `scheduler.cpp`.
-/

namespace TokenSpeed

namespace Round

/-! ## The phases -/

def noteDecode (id : Nat) (op : Option DecodeOperation) (r : Round) : Round :=
  match op with
  | some op => (r.pushOperation id (.decode op)).trackScheduledForward id
  | none => if r.admissionFailed then r.noteCapacityBlocked id else r

variable (r : Round) (blocker : Nat)

def skipsDecode (id : Nat) : Bool :=
  !(r.sched.findRequest id).any (fun req => req.isAnyOf [.prefillDone, .decoding]) || r.isScheduled id

def scheduleDecodeBatch : List Nat → Round → Result Round
  | [], r => pure r
  | id :: rest, r =>
    if r.full || decide (r.tokenBudget < r.pendingPrefillReserve + r.sched.config.decodeInputTokens) then pure r
    else if r.skipsDecode id then scheduleDecodeBatch rest r
    else do
      let (op, r) ← { r with admissionFailed := false }.decodeCandidate id
      scheduleDecodeBatch rest (r.noteDecode id op)

def skipsPrefill (resident : Bool) (id : Nat) : Bool :=
  !(r.sched.findRequest id).any (fun req => req.is (if resident then .prefilling else .submitted)) || r.isScheduled id

def holdsHeadOfLine (id : Nat) : Bool := (r.sched.findRequest id).any fun req => req.is .prefilling

def prefillTier (resident : Bool) (decodeReserve : Nat) : List Nat → Round → Result (Bool × Round)
  | [], r => pure (false, r)
  | id :: rest, r =>
    if r.full then pure (true, r)
    else if r.skipsPrefill resident id then prefillTier resident decodeReserve rest r
    else do
      let (op, r) ← { r with admissionFailed := false }.schedulePrefillCandidate id r.tokenBudget decodeReserve
      match op with
      | some op =>
        let r := (r.pushOperation id (.prefill op)).trackScheduledForward id
        if r.holdsHeadOfLine id then return (true, r)
        prefillTier resident decodeReserve rest r
      | none =>
        if r.admissionFailed then
          if resident then return (true, r.noteCapacityBlocked id)
          prefillTier resident decodeReserve rest (r.noteCapacityBlocked id)
        else prefillTier resident decodeReserve rest r

/-- `scheduleLocalPrefillWork`: resident chunks, then new prompts. -/
def scheduleLocalPrefillWork (candidates : List Nat) (newPromptsSealed : Bool) (decodeReserve : Nat) :
    Result Round := do
  let (ended, r) ← prefillTier true decodeReserve candidates r
  if ended || newPromptsSealed then
    return r
  let (_, r) ← prefillTier false decodeReserve candidates r
  return r

/-! ## Capacity retraction -/

def emptyRound : Bool :=
  r.operations.isEmpty && r.snapshotRestores.isEmpty && r.remotePrefill.isEmpty && r.remoteDecode.isEmpty &&
    !r.sched.requests.any fun req => req.is .finishing

def iterationVictim (candidates : List Nat) : Result (Scheduler.VictimChoice × Bool) := do
  let choice ← r.sched.chooseVictim candidates false
  if choice.victim.isNone && r.emptyRound then
    let choice ← r.sched.chooseVictim candidates true
    return (choice, true)
  return (choice, false)

def otherIs (victim : Nat) (kinds : List StateKind) (id : Nat) : Bool :=
  id != victim && (r.sched.findRequest id).any fun req => req.isAnyOf kinds

/-- Whom the victim's pages serve; `none` when retracting it would serve nobody. -/
def nextBlocker (candidates : List Nat) (isEmpty : Bool) (blocker victim : Nat) : Option Nat :=
  if blocker ≠ victim then some blocker
  else
    match r.capacityBlocked.find? (r.otherIs victim [.submitted, .prefilling, .prefillDone, .decoding]) with
    | some blocked => some blocked
    | none =>
      match candidates.find? (r.otherIs victim [.submitted]) with
      | some waiting => some waiting
      | none => if isEmpty && candidates.any (r.otherIs victim [.prefillDone, .decoding]) then some blocker else none

def shortfallOf (s : Scheduler) : ImageShortfall :=
  if !s.config.hasSnapshotPool then .noPool
  else if s.snapshotSlots.slots.availableSlots == 0 then .blobSlot
  else .snapshotPool

def tryRetract (victim : Request) (fits : Bool) : Result (Option ImageShortfall × Round) :=
  if fits then r.retractVictim victim else pure (some (shortfallOf r.sched), r)

def giveWay (victim : Request) (fits : Bool) : Result Round := do
  let (shortfall, r) ← r.tryRetract victim fits
  match shortfall with
  | none => return r
  | some shortfall => r.onImageDoesNotFit victim.id shortfall

def grantDecode : Result (Bool × Round) := do
  let (op, r) ← { r with admissionFailed := false }.decodeCandidate blocker
  match op with
  | some op => return (true, (r.pushOperation blocker (.decode op)).trackScheduledForward blocker)
  | none => return (!r.admissionFailed, r)

def grantPrefill : Result (Bool × Round) := do
  let remote := r.sched.config.role = .d
  let size := ((r.sched.findRequest blocker).map (·.prefillSize)).getD 0
  let (op, r) ← { r with admissionFailed := false }.schedulePrefillCandidate blocker
    (if remote then (size : Int) else r.tokenBudget) r.sched.config.decodeTokens
  match op with
  | some op =>
    if remote then
      return (true, { r.markScheduled blocker with remotePrefill := r.remotePrefill ++ [.prefill op] })
    return (true, (r.pushOperation blocker (.prefill op)).trackScheduledForward blocker)
  | none => return (!r.admissionFailed, r)

def grant : Result (Bool × Round) :=
  let config := r.sched.config
  let onDecode := (r.sched.findRequest blocker).any fun req => req.isAnyOf [.prefillDone, .decoding]
  if onDecode then r.grantDecode blocker
  else if config.role != .d && r.pushedDecode && !(config.role == .fused && config.enableMixedPrefillDecode) then
    pure (true, r)
  else r.grantPrefill blocker

def serveDecodes (candidates : List Nat) (isEmpty : Bool) (blocker victim : Nat) : Result (Bool × Round) :=
  if isEmpty then do
    let r ← scheduleDecodeBatch candidates r
    pure (r.pushedDecode || blocker == victim, r)
  else pure (false, r)

def retractAndGrant (candidates : List Nat) (victim : Request) (choice : Scheduler.VictimChoice)
    (isEmpty : Bool) (blocker : Nat) : Result (Bool × Round) := do
  let r ← r.giveWay victim choice.imageFits
  let (ended, r) ← r.serveDecodes candidates isEmpty blocker victim.id
  if ended || r.full then
    return (true, r)
  r.grant blocker

/-- The loop of `maybeRetractForCapacity`. Every iteration takes a retractable request out of the candidates,
so `fuel` above their number never runs out. -/
def retractLoop (candidates : List Nat) : Nat → Nat → Round → Result Round
  | 0, _, r => pure r
  | fuel + 1, blocker, r => do
    let (choice, isEmpty) ← r.iterationVictim candidates
    match choice.victim.bind r.sched.findRequest with
    | none => return r
    | some victim =>
      if 0 < victim.resultsInFlight || r.sched.pdTransferInFlight victim then
        return r
      match r.nextBlocker candidates isEmpty blocker victim.id with
      | none => return r
      | some blocker =>
        let (ended, r) ← r.retractAndGrant candidates victim choice isEmpty blocker
        if ended then return r
        retractLoop candidates fuel blocker r

def maybeRetractForCapacity (candidates : List Nat) : Result Round :=
  match r.capacityBlocker with
  | none => pure r
  | some blocker =>
    let r := { r with capacityBlocker := none }
    let transfers := r.sched.transfers
    if !r.noPrefillProgress || !transfers.loadBacks.isEmpty || transfers.hasPinnedStoresInFlight then pure r
    else retractLoop candidates (candidates.length + 1) blocker r

/-! ## The role grammars -/

def scheduleRemoteDecodes : List Nat → Round → Result Round
  | [], r => pure r
  | id :: rest, r =>
    if (r.sched.findRequest id).any fun req => req.is .prefillDone then do
      let (op, r) ← r.decodeCandidate id
      match op with
      | some op =>
        scheduleRemoteDecodes rest { r.markScheduled id with remoteDecode := r.remoteDecode ++ [.decode op] }
      | none => scheduleRemoteDecodes rest r
    else scheduleRemoteDecodes rest r

def buildPrefillWorkerPlan (candidates : List Nat) : Result Round := do
  let r ← scheduleRemoteDecodes candidates r
  r.scheduleLocalPrefillWork candidates false r.sched.config.decodeTokens

def scheduleRemoteAdmission : List Nat → Round → Result Round
  | [], r => pure r
  | id :: rest, r =>
    match r.sched.findRequest id with
    | none => scheduleRemoteAdmission rest r
    | some req =>
      if !req.is .submitted then scheduleRemoteAdmission rest r
      else do
        let (op, r) ← { r with admissionFailed := false }.schedulePrefillCandidate id req.prefillSize
          r.sched.config.decodeTokens
        match op with
        | some op => return { r.markScheduled id with remotePrefill := r.remotePrefill ++ [.prefill op] }
        | none => scheduleRemoteAdmission rest (if r.admissionFailed then r.noteCapacityBlocked id else r)

def admitRemote (candidates : List Nat) (newPromptsSealed : Bool) : Result Round :=
  if newPromptsSealed then pure r else scheduleRemoteAdmission candidates r

def buildDecodeWorkerPlan (candidates : List Nat) : Result Round := do
  let r ← r.maybeForceRetraction candidates
  let (newPromptsSealed, r) ← r.scheduleReadmission candidates
  let r ← scheduleDecodeBatch candidates r
  let r ← r.admitRemote candidates newPromptsSealed
  r.maybeRetractForCapacity candidates

def hasLocalPrefill (candidates : List Nat) : Bool :=
  candidates.any fun id => (r.sched.findRequest id).any fun req => req.isAnyOf [.prefilling, .submitted]

def mixedDecodes (candidates : List Nat) : Result Round :=
  if r.sched.config.enableMixedPrefillDecode then
    scheduleDecodeBatch candidates
      { r with
        pendingPrefillReserve := if r.hasLocalPrefill candidates then minPrefillChunkTokens r.sched.coord else 0 }
  else pure r

def lateDecodes (candidates : List Nat) : Result Round :=
  if !r.sched.config.enableMixedPrefillDecode && !r.pushedPrefill then scheduleDecodeBatch candidates r else pure r

def buildFusedPlan (candidates : List Nat) : Result Round := do
  let r ← r.maybeForceRetraction candidates
  let (newPromptsSealed, r) ← r.scheduleReadmission candidates
  let r ← r.mixedDecodes candidates
  let r ← r.scheduleLocalPrefillWork candidates newPromptsSealed r.sched.config.decodeTokens
  let r ← r.lateDecodes candidates
  r.maybeRetractForCapacity candidates

def build (candidates : List Nat) : Result Round :=
  match r.sched.config.role with
  | .p => r.buildPrefillWorkerPlan candidates
  | .d => r.buildDecodeWorkerPlan candidates
  | .fused => r.buildFusedPlan candidates

end Round

/-! ## The plan -/

/-- `ForwardBatch`: the prefills first, each kind in the order it was scheduled. -/
def forwardBatch (ops : List ForwardOperation) : List ForwardOperation :=
  ops.filter (·.isPrefill) ++ ops.filter fun op => !op.isPrefill

def checkBatch (what : String) (mayBeEmpty : Bool) (ops : List (List CacheTransfer)) : Result Unit := do
  assert (mayBeEmpty || ops.all fun transfers => !transfers.isEmpty) (what ++ " op carries no transfers")
  assert (decide ops.flatten.Nodup) ("duplicate " ++ what ++ " transfer within one plan")

namespace Scheduler

variable (s : Scheduler)

def eraseFinished : Result Scheduler := do
  let s ← ((s.requests.filter fun r => r.is .finished).map (·.id)).foldlM
    (fun s id => s.withRequest id releaseStorage) s
  pure { s with requests := s.requests.filter fun r => !r.is .finished }

def candidates : List Nat :=
  (s.requests.filter fun r =>
    r.isAnyOf [.submitted, .prefilling, .remotePrefilling, .prefillDone, .decoding, .retracted]).map (·.id)

/-- `buildForwardOperations`, unless forwards are held back. -/
def buildForward (writeBacks : List WriteBackOperation) : Result Round :=
  let r : Round := { sched := s, writeBacks := writeBacks, tokenBudget := s.config.maxScheduledTokens }
  if s.forwardAllowed then r.build s.candidates else pure r

def startStorage : Result (List StorageOperation × Scheduler) :=
  if s.storageEnabled then do
    let storage ← if s.storageAllowed then s.storage.startBackups else pure s.storage.dropBackups
    pure (storage.takeCommands.1, s.setStorage storage.takeCommands.2)
  else pure ([], s)

def startStores : Result (List WriteBackOperation × Scheduler) :=
  if s.forwardAllowed && s.config.streamsDeviceCacheToHost then do
    let (op, transfers, c) ← s.transfers.startPendingStores s.coord .pinnedUntilAck
    pure (op.toList, { s.setCoord c with transfers := transfers })
  else pure ([], s)

def checkPlan (plan : ExecutionPlan) : Result Unit := do
  checkBatch "write-back" false (plan.writeBacks.map (·.transfers))
  checkBatch "snapshot store" true (plan.snapshotStores.map (·.transfers))
  checkBatch "load-back" false (plan.loadBacks.map (·.transfers))
  checkBatch "snapshot restore" true (plan.snapshotRestores.map (·.transfers))

def nextExecutionPlan : Result (ExecutionPlan × Scheduler) := do
  let pending := s.pendingWriteBacks
  let s ← eraseFinished { s with pendingWriteBacks := [] }
  let s ← s.prepareRequests
  let r ← buildForward { s with planCalls := s.planCalls + 1 } pending
  let (storage, s) ← r.sched.startStorage
  let (stores, s) ← s.startStores
  let plan : ExecutionPlan :=
    { pagesToZero := r.pagesToZero
      pagesToCopy := r.pagesToCopy
      forward := forwardBatch r.operations
      remoteDecode := r.remoteDecode
      remotePrefill := r.remotePrefill
      writeBacks := r.writeBacks ++ stores
      snapshotStores := r.snapshotStores
      loadBacks := r.loadBacks
      snapshotRestores := r.snapshotRestores
      storage := storage
      aborts := r.aborts }
  checkPlan plan
  pure (plan, s)

end Scheduler

/-! ## What is asked of a batch -/

def ForwardOperation.Incomplete : ForwardOperation → Prop
  | .prefill op => op.extendPrefixLen + op.inputLength ≠ op.prefillLength
  | .decode _ => False

def PrefillsOrdered (ops : List ForwardOperation) : Prop := ops.Pairwise fun a b => a.Incomplete → b.isPrefill = false

/-- A decode never overdraws the token budget of a round: a batch of decodes leaves either none of it or
enough for one more. -/
def EngineConfig.DecodesFit (config : EngineConfig) : Prop :=
  config.role = .p ∨ config.decodeInputTokens ∣ config.maxScheduledTokens ∨
    config.maxBatchSize * config.decodeInputTokens ≤ config.maxScheduledTokens

instance (config : EngineConfig) : Decidable config.DecodesFit := by
  unfold EngineConfig.DecodesFit
  infer_instance

def inputTokens (ops : List ForwardOperation) : Nat := (ops.map (·.row.inputLength)).sum

end TokenSpeed

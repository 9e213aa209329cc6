import TokenSpeed.Scheduler.Admission

/-!
# Operations of granted steps

`applyEventAndBuildOperation` of `operations/forward.cpp`: the request moves to its next state and the
operation that carries the step is built from it.
-/

namespace TokenSpeed

open GroupAllocator

/-- One entry of `BlockTablePageIds`; a hole is page 0. -/
def slotPageId (packing : Nat) : Option CacheBlockLocation → Result Nat
  | none => pure 0
  | some l => resolveCacheBlockId packing l

variable (c : CacheCoordinator) (progress : CacheProgress)

def buildBlockTables (tables : Nat → BlockTable) : Result (Nat → List Nat) :=
  c.perGroup [] fun i => (tables i).blocks.mapM (slotPageId (c.pool.packing i))

def checkpointEntry (i : Nat) : Result (List Nat) :=
  match progress.stateCheckpointBlocks i with
  | none => pure []
  | some l => do
    let pageId ← resolveCacheBlockId (c.pool.packing i) l
    pure [pageId]

def checkpointLen (info : Request.PrefillInfo) : Nat :=
  let checkpoint := progress.stateCheckpointTokens
  if info.alreadyScheduledLen < checkpoint ∧ checkpoint < info.alreadyScheduledLen + info.extendLen then
    checkpoint - info.alreadyScheduledLen
  else 0

def prefillRows (resources : ForwardResources) (len : Nat) : Result (Nat → List Nat) := do
  let rows ← buildBlockTables c resources.blockTables
  if len = 0 then
    return rows
  let entries ← c.perGroup [] (checkpointEntry c resources.cacheProgress)
  return fun i => rows i ++ entries i

def prefillOperation (req : Request) : Result PrefillOperation := do
  let info ← req.currentPrefillInfo
  let resources ← req.forwardResources "RequestPoolIndex"
  let len := checkpointLen resources.cacheProgress info
  let rows ← prefillRows c resources len
  pure
    { requestId := req.id
      requestPoolIndex := resources.reqPoolIndex
      inputLength := info.extendLen
      prefillLength := req.prefillSize
      blockTables := rows
      inputIds := info.inputIds
      shiftedInputIds := info.shiftedInputIds
      extendPrefixLen := info.alreadyScheduledLen
      extendReplayLen := info.replayLen
      extendStateCheckpointLen := len }

def prefillState (role : Role) (prefillSize : Nat) (resources : ForwardResources) (window : Window) (reserve : Int) :
    RequestState :=
  if window.pastEnd = prefillSize then
    if role = .p then .prefillAwaitingResult resources window reserve else .prefillDone resources window reserve false
  else .prefilling resources window reserve

/-- The state `SchedulePrefillFirstChunkEvent` leads to. -/
def firstChunkState (role : Role) (prefillSize : Nat) (resources : ForwardResources) (window : Window) (reserve : Int) :
    RequestState :=
  if role = .d then .remotePrefilling resources window reserve
  else prefillState role prefillSize resources window reserve

namespace Round

variable (r : Round)

def startLoad (pairs : List BlockTransfer) : Result Round :=
  if pairs.isEmpty then pure r
  else do
    let (op, transfers) ← r.sched.transfers.startPrefixLoad r.sched.coord pairs
    pure { r with sched := { r.sched with transfers := transfers }, loadBacks := r.loadBacks ++ [op] }

def detachHold (hold : Option StorageReadyHold) : Result Round :=
  match hold with
  | none => pure r
  | some hold => do
    let storage ← r.sched.storage.detach hold.operationId
    pure { r with sched := { r.sched with storage := storage } }

def storageHold (req : Request) : Option StorageReadyHold := req.state.admission?.bind (·.storageHold)

variable (req : Request) (id : Nat) (tokenBudget : Int) (decodeReserve : Nat)

/-- `SchedulePrefillFirstChunkEvent` applied and its operation built. -/
def applyFirstChunk (chunk : Scheduler.FirstChunk) : Result (PrefillOperation × Round) := do
  let s := r.sched
  let role := s.config.role
  let (row, reqPool) ← s.reqPool.allocate
  let resources : ForwardResources :=
    { reqPoolIndex := some row, blockTables := chunk.tables, cacheProgress := chunk.cacheProgress }
  let window : Window :=
    { first := chunk.hitTokens
      size := chunk.tokensThisRound
      replay := if role = .d then 0 else s.coord.replayTokens chunk.hitTokens }
  let next := { req with generatedTokensAtAdmission := req.generatedTokens }.toState
    (firstChunkState role req.prefillSize resources window chunk.decodeReserve)
  let r := { r with sched := { s with reqPool := reqPool }.setRequest next }
  let op ← prefillOperation r.sched.coord next
  let r ← r.startLoad chunk.loadPairs
  let r ← r.detachHold (storageHold req)
  pure ({ op with statePrefixCached := chunk.statePrefixCached }, r)

/-- `SchedulePrefillEvent` applied and its operation built. -/
def applyChunk (chunk : Chunk) : Result (PrefillOperation × Round) :=
  match r.sched.findRequest id with
  | some req =>
    match req.state with
    | .prefilling resources window _ => do
      let next := req.toState (prefillState r.sched.config.role req.prefillSize resources
        { first := window.pastEnd, size := chunk.tokens } chunk.decodeReserve)
      let op ← prefillOperation r.sched.coord next
      pure (op, r.setRequest next)
    | state => state.invalid "SchedulePrefillEvent"
  | none => .error (.assertion "unknown request")

def decodable : RequestState → Option ForwardResources
  | .prefillDone resources _ _ _ | .prefillAwaitingResult resources _ _ | .decoding resources _ _ => some resources
  | _ => none

/-- `ScheduleDecodeEvent` applied and its operation built. -/
def applyDecode : Result (DecodeOperation × Round) :=
  match r.sched.findRequest id with
  | none => .error (.assertion "unknown request")
  | some req =>
    match decodable req.state with
    | none => req.state.invalid "ScheduleDecodeEvent"
    | some resources => do
      let config := r.sched.config
      let bootstrap := req.is .prefillDone && config.role != .fused
      let explicit := bootstrap || req.resumedByRestore
      let takes := config.role == .p && bootstrap
      let rows ← buildBlockTables r.sched.coord resources.blockTables
      let next := { req with specCandidateIds := if takes then [] else req.specCandidateIds }.toState
        (.decoding resources config.decodeTokens false)
      pure
        ({ requestId := req.id
           requestPoolIndex := resources.reqPoolIndex
           inputLength := config.decodeTokens
           prefillLength := req.prefillSize
           blockTables := rows
           decodeInputId := if explicit then req.tokens.getLast?.getD (-1) else -1
           specCandidateIds := if takes then req.specCandidateIds else [] }, r.setRequest next)

/-- `scheduleDecode` with its operation. -/
def decodeCandidate : Result (Option DecodeOperation × Round) :=
  match r.sched.findRequest id with
  | none => pure (none, r)
  | some req => do
    let (granted, r) ← r.scheduleDecode req
    if granted then
      let (op, r) ← r.applyDecode id
      return (some op, r)
    return (none, r)

def chunkCandidate :
    Result (Option PrefillOperation × Round) := do
  let (chunk, r) ← r.schedulePrefill req tokenBudget decodeReserve
  match chunk with
  | some chunk =>
    let (op, r) ← r.applyChunk req.id chunk
    return (some op, r)
  | none => return (none, r)

def firstChunkCandidate :
    Result (Option PrefillOperation × Round) := do
  let (chunk, r) ← r.schedulePrefillFirstChunk req tokenBudget decodeReserve
  match chunk with
  | some chunk =>
    let (op, r) ← r.applyFirstChunk req chunk
    return (some op, r)
  | none => return (none, r)

def schedulePrefillCandidate :
    Result (Option PrefillOperation × Round) :=
  match r.sched.findRequest id with
  | none => pure (none, r)
  | some req =>
    if req.is .prefilling then r.chunkCandidate req tokenBudget decodeReserve
    else r.firstChunkCandidate req tokenBudget decodeReserve

end Round

end TokenSpeed

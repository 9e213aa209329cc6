import TokenSpeed.Scheduler.Admission

/-!
# A request's storage work

`releaseStorage` and `prepareStorage` of `operations/storage.cpp`: what a request waits for before it is
admitted, and what it lets go of. Without L3 storage both do nothing. The counters of `StorageStats` are
left out.
-/

namespace TokenSpeed

def int64Max : Int := 9223372036854775807

namespace Scheduler

variable (s : Scheduler)

/-! ## Letting go -/

def setStorage (storage : StorageTransferManager) : Scheduler := { s with storage := storage }

def withRequest (id : Nat) (call : Scheduler → Request → Result Scheduler) : Result Scheduler :=
  match s.findRequest id with
  | none => pure s
  | some r => call s r

variable (r : Request) (hashes : List ContentHash)

def leavePrefetch : Result Scheduler :=
  match r.state with
  | .prefetching _ _ prefetch => do
    let storage ← s.storage.detach prefetch.operationId
    (s.setStorage storage).applyFinishPrefetch r none
  | _ => pure s

def detachStorageHold (hold : Option StorageReadyHold) : Result Scheduler :=
  match hold with
  | none => pure s
  | some hold => do
    let storage ← s.storage.detach hold.operationId
    pure (s.setStorage storage)

def leaveHold : Result Scheduler :=
  match r.state.admission? with
  | none => pure s
  | some admission => do
    let s ← s.detachStorageHold admission.storageHold
    pure (s.setRequest (r.toState (r.state.withAdmission { storagePrepared := true, storageHold := none })))

def releaseStorage : Result Scheduler :=
  if s.storageEnabled then do
    let s ← s.leavePrefetch r
    s.withRequest r.id leaveHold
  else pure s

/-! ## Preparation -/

def limits : PrefetchLimits := (s.config.storageConfig.map (·.2)).getD {}

def deadline (timeout : Int) : Int := s.storageNowUs + min timeout (int64Max - s.storageNowUs)

/-- The prompt of a request's first `bound` tokens. -/
def boundedPrompt (bound : Nat) : PromptPrefix :=
  let g := s.coord.prefixGranularity
  let hashes := hashes.take (bound / g)
  let tailTokens := bound % g
  { prefixHashes := hashes
    tokens := r.tokenSlice 0 bound
    maxTokens := bound
    tail :=
      if 0 < tailTokens then
        some ⟨tailTokens, s.coord.hashPage (r.tokenSlice (bound - tailTokens) tailTokens) (hashes.getLast?.getD [])⟩
      else none }

def startPrefetchRead (awaitsBootstrap : Bool) (admission : AdmissionResources) (prefetch : Prefetch)
    (prompt : PromptPrefix) : Result Scheduler := do
  let hits := ((s.storage.find prefetch.operationId).map s.storage.queryHits).getD []
  let storage ← s.storage.detach prefetch.operationId
  let (operation, storage) ← storage.startRead prompt hits
  let r := r.toState (.prefetching awaitsBootstrap admission { prefetch with operationId := operation })
  let s := (s.setStorage storage).setRequest r
  if operation = 0 then s.releaseStorage r else pure s

/-- The Prefetching branch of `prepareStorage`. -/
def continuePrefetch (awaitsBootstrap : Bool) (admission : AdmissionResources) (prefetch : Prefetch) :
    Result Scheduler := do
  let operation := prefetch.operationId
  if s.storage.isCompleted operation && !s.storage.isQuery operation then
    s.applyFinishPrefetch r (some ⟨operation, s.deadline s.limits.readyTimeoutUs⟩)
  else if prefetch.deadlineUs ≤ s.storageNowUs then
    s.releaseStorage r
  else
    let prompt : PromptPrefix :=
      { prefixHashes := prefetch.hashes
        tokens := r.tokenSlice 0 prefetch.maxTokens
        maxTokens := prefetch.maxTokens
        tail := prefetch.tail }
    let probe ← s.coord.probePromptPrefix prompt
    if prefetch.maxTokens ≤ max probe.device.numCommonTokens probe.host.numCommonTokens then
      s.releaseStorage r
    else if s.storage.isQuery operation && s.storage.pressureGateClosed then
      s.releaseStorage r
    else if !s.storage.isCompleted operation || !s.storageAllowed then
      pure s
    else s.startPrefetchRead r awaitsBootstrap admission prefetch prompt

def startPrefetchQuery (cached : Nat) : Result Scheduler := do
  let limits := s.limits
  let maxTokens : Int := s.maxCacheableTokens r
  let pastEnd := min maxTokens (cached + limits.maxPrefetchTokens)
  let query ← s.coord.missingStorageKeys (s.boundedPrompt r hashes pastEnd.toNat) s.storage.config.maxKeysPerOperation
  let prompt := s.boundedPrompt r hashes query.maxTokens
  if (query.maxTokens : Int) - cached < limits.minPrefetchTokens ∨ query.keys.isEmpty then
    pure s
  else
    let (operation, storage) ← s.storage.startQuery (query.keys.filter fun key => !decide (key ∈ s.storage.negative))
    let s := s.setStorage storage
    if operation = 0 then pure s
    else
      s.applyStartPrefetch r
        { operationId := operation
          deadlineUs := s.deadline limits.waitTimeoutUs
          hashes := prompt.prefixHashes
          maxTokens := query.maxTokens
          tail := prompt.tail }

/-- The first look of `prepareStorage` at a request it marked as prepared. -/
def startPrefetch : Result Scheduler :=
  if s.config.role == .d || s.config.disablePrefixCache || !s.storage.canStart then pure s
  else do
    let maxTokens := s.maxCacheableTokens r
    let g := s.coord.prefixGranularity
    let hashes := computePrefixHashes s.coord.sha256 ((r.fullPrefixPages g).take (maxTokens / g)) []
    let probe ← s.coord.probePromptPrefix (s.boundedPrompt r hashes maxTokens)
    let cached := max probe.device.numCommonTokens probe.host.numCommonTokens
    if (maxTokens : Int) - cached < s.limits.minPrefetchTokens then pure s
    else s.startPrefetchQuery r hashes cached

def prepareAdmission (admission : AdmissionResources) : Result Scheduler :=
  if admission.storagePrepared || !s.storageAllowed then pure s
  else
    let r := r.toState (r.state.withAdmission { admission with storagePrepared := true })
    (s.setRequest r).startPrefetch r

def prepareStorage : Result Scheduler :=
  match r.state with
  | .prefetching awaitsBootstrap admission prefetch => s.continuePrefetch r awaitsBootstrap admission prefetch
  | .bootstrapping admission | .submitted admission => s.prepareAdmission r admission
  | _ => pure s

def prepareRequests : Result Scheduler :=
  if s.storageEnabled then (s.requests.map (·.id)).foldlM (fun s id => s.withRequest id prepareStorage) s
  else pure s

end Scheduler

end TokenSpeed

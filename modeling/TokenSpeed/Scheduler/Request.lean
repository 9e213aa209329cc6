import TokenSpeed.Scheduler.Config
import TokenSpeed.Tier.Storage
import TokenSpeed.Tier.Transfer

/-!
# Requests

`Request` (`scheduler/request.{h,cpp}`) and the states of its machine (`fsm/forward_states.h`,
`fsm/pd_states.h`, `fsm/storage_states.h`). A request id stands for the string the source uses, which
it only compares. A token is the `int32_t` of the source.
-/

namespace TokenSpeed

structure RequestSpec where
  requestId : Nat
  tokens : List Token
  maxNewTokens : Int := 0
  maxCachedPrefixTokens : Int := int32Max
  deriving DecidableEq, Repr

structure Window where
  first : Nat := 0
  size : Nat := 0
  replay : Nat := 0
  deriving DecidableEq, Repr

def Window.pastEnd (w : Window) : Nat := w.first + w.size

/-- `fsm::CacheProgress`; a group without a checkpoint block holds none. -/
structure CacheProgress where
  prefixHashes : List ContentHash := []
  accessEpoch : Nat := 0
  junctionTokens : Nat := 0
  stateCheckpointTokens : Nat := 0
  stateCheckpointBlocks : Nat → Option CacheBlockLocation := fun _ => none
  publishedStateCheckpointBlocks : Nat → Option CacheBlockLocation := fun _ => none

structure StorageReadyHold where
  operationId : Nat
  deadlineUs : Int
  deriving DecidableEq, Repr

structure AdmissionResources where
  storagePrepared : Bool := false
  storageHold : Option StorageReadyHold := none
  deriving DecidableEq, Repr

/-- What `fsm::Prefetching` waits for. -/
structure Prefetch where
  operationId : Nat
  deadlineUs : Int
  hashes : List ContentHash
  maxTokens : Nat
  tail : Option TailPublication
  deriving DecidableEq, Repr

/-- `fsm::ForwardResources`; a restored request's row arrives with the ACK of its restore. -/
structure ForwardResources where
  reqPoolIndex : Option Nat
  blockTables : Nat → BlockTable
  cacheProgress : CacheProgress
  resultsInFlight : Nat := 0

inductive ResumeShape where
  | prefilling (window : Window) (reserve : Int)
  | prefillDone (window : Window) (reserve : Int)
  | decoding (reserve : Int)
  deriving DecidableEq, Repr

/-- `reserve_num_tokens_in_next_schedule_event` of a shape. -/
def ResumeShape.reserve : ResumeShape → Int
  | .prefilling _ reserve | .prefillDone _ reserve | .decoding reserve => reserve

structure Retracted where
  cacheProgress : CacheProgress
  image : Nat → ImageTable
  blobSlot : Nat
  shape : ResumeShape
  retractionEpoch : Nat
  resumesGeneration : Bool
  pendingStoreOps : List Nat

def Retracted.imageLanded (r : Retracted) : Bool := r.pendingStoreOps.isEmpty

def Retracted.waitsForStore (r : Retracted) (opId : Nat) : Bool := decide (opId ∈ r.pendingStoreOps)

structure Restoring where
  resources : ForwardResources
  image : Nat → ImageTable
  blobSlot : Nat
  shape : ResumeShape
  restoreOp : Nat

/-- `fsm::State`. -/
inductive RequestState where
  | bootstrapping (admission : AdmissionResources)
  | submitted (admission : AdmissionResources)
  | prefetching (awaitsBootstrap : Bool) (admission : AdmissionResources) (prefetch : Prefetch)
  | prefilling (resources : ForwardResources) (window : Window) (reserve : Int)
  | remotePrefilling (resources : ForwardResources) (window : Window) (reserve : Int)
  | prefillAwaitingResult (resources : ForwardResources) (window : Window) (reserve : Int)
  | prefillDone (resources : ForwardResources) (window : Window) (reserve : Int) (resumedByRestore : Bool)
  | decoding (resources : ForwardResources) (reserve : Int) (resumedByRestore : Bool)
  | retracted (retracted : Retracted)
  | restoring (restoring : Restoring)
  | finishing (resources : ForwardResources)
  | finished

/-- The name of a state: `Is` asks for it and `StateName` prints it. -/
inductive StateKind where
  | bootstrapping
  | submitted
  | prefetching
  | prefilling
  | remotePrefilling
  | prefillAwaitingResult
  | prefillDone
  | decoding
  | retracted
  | restoring
  | finishing
  | finished
  deriving DecidableEq, Repr

def StateKind.name : StateKind → String
  | .bootstrapping => "Bootstrapping"
  | .submitted => "Submitted"
  | .prefetching => "Prefetching"
  | .prefilling => "Prefilling"
  | .remotePrefilling => "RemotePrefilling"
  | .prefillAwaitingResult => "PrefillAwaitingResult"
  | .prefillDone => "PrefillDone"
  | .decoding => "Decoding"
  | .retracted => "Retracted"
  | .restoring => "Restoring"
  | .finishing => "Finishing"
  | .finished => "Finished"

namespace RequestState

def kind : RequestState → StateKind
  | .bootstrapping _ => .bootstrapping
  | .submitted _ => .submitted
  | .prefetching _ _ _ => .prefetching
  | .prefilling _ _ _ => .prefilling
  | .remotePrefilling _ _ _ => .remotePrefilling
  | .prefillAwaitingResult _ _ _ => .prefillAwaitingResult
  | .prefillDone _ _ _ _ => .prefillDone
  | .decoding _ _ _ => .decoding
  | .retracted _ => .retracted
  | .restoring _ => .restoring
  | .finishing _ => .finishing
  | .finished => .finished

/-- `InvalidTransitionHandler`. -/
def invalid {α : Type} (event : String) (state : RequestState) : Result α :=
  .error (.assertion ("FSM transition invalid: event=tokenspeed::fsm::" ++ event ++
    "; state=tokenspeed::fsm::" ++ state.kind.name))

def resources? : RequestState → Option ForwardResources
  | .prefilling resources _ _ | .remotePrefilling resources _ _ | .prefillAwaitingResult resources _ _
  | .prefillDone resources _ _ _ | .decoding resources _ _ | .finishing resources => some resources
  | .restoring r => some r.resources
  | _ => none

def withResources (resources : ForwardResources) : RequestState → RequestState
  | .prefilling _ window reserve => .prefilling resources window reserve
  | .remotePrefilling _ window reserve => .remotePrefilling resources window reserve
  | .prefillAwaitingResult _ window reserve => .prefillAwaitingResult resources window reserve
  | .prefillDone _ window reserve resumed => .prefillDone resources window reserve resumed
  | .decoding _ reserve resumed => .decoding resources reserve resumed
  | .finishing _ => .finishing resources
  | .restoring r => .restoring { r with resources := resources }
  | state => state

def admission? : RequestState → Option AdmissionResources
  | .bootstrapping admission | .submitted admission | .prefetching _ admission _ => some admission
  | _ => none

def withAdmission (admission : AdmissionResources) : RequestState → RequestState
  | .bootstrapping _ => .bootstrapping admission
  | .submitted _ => .submitted admission
  | .prefetching awaitsBootstrap _ prefetch => .prefetching awaitsBootstrap admission prefetch
  | state => state

end RequestState

/-- `Request`; the prompt is the tokens it was submitted with. -/
structure Request where
  id : Nat
  tokens : List Token
  prefillSize : Nat
  maxNewTokens : Nat := 0
  maxCachedPrefixTokens : Nat := int32Max
  retractionCount : Nat := 0
  generatedTokensAtAdmission : Nat := 0
  specCandidateIds : List Token := []
  state : RequestState

namespace Request

def make (spec : RequestSpec) (role : Role) : Request where
  id := spec.requestId
  tokens := spec.tokens
  prefillSize := spec.tokens.length
  maxNewTokens := spec.maxNewTokens.toNat
  maxCachedPrefixTokens := spec.maxCachedPrefixTokens.toNat
  state := if role = .fused then .submitted {} else .bootstrapping {}

variable (r : Request)

def is (kind : StateKind) : Bool := r.state.kind == kind

def isAnyOf (kinds : List StateKind) : Bool := kinds.contains r.state.kind

def tokenSize : Nat := r.tokens.length

def generatedTokens : Nat := r.tokenSize - r.prefillSize

def remainingNewTokens : Nat := r.maxNewTokens - r.generatedTokens

def admissionHeadroom (safeSteps : Nat) : Nat := min r.remainingNewTokens (safeSteps * (1 + r.retractionCount))

def remainingNewTokensAtAdmission : Nat := r.maxNewTokens - r.generatedTokensAtAdmission

def reserveCoversGeneration (safeSteps : Nat) : Bool :=
  decide (0 < r.maxNewTokens ∧ r.remainingNewTokensAtAdmission ≤ safeSteps * (1 + r.retractionCount))

def hasDeclaredBudget : Bool := decide (0 < r.maxNewTokens)

def tokenLimit : Nat := r.prefillSize + r.maxNewTokens

def hasGeneratedOutput : Bool := decide (0 < r.generatedTokens)

def holdsPages : Bool := r.state.resources?.isSome

def resultsInFlight : Nat := r.state.resources?.elim 0 (·.resultsInFlight)

def resumedByRestore : Bool :=
  match r.state with
  | .prefillDone _ _ _ resumed | .decoding _ _ resumed => resumed
  | _ => false

def forwardResources (operation : String) : Result ForwardResources :=
  match r.state.resources? with
  | some resources => .ok resources
  | none => .error (.assertion ("Request::" ++ operation ++ ": expected a forward state; got " ++ r.state.kind.name))

def numComputedTokens : Result Nat :=
  match r.state with
  | .prefilling _ window _ | .prefillDone _ window _ _ => .ok window.pastEnd
  | .decoding _ _ _ | .finishing _ => .ok (r.tokenSize - 1)
  | state => .error (.assertion
      ("Request::NumComputedTokens: expected Prefilling, PrefillDone, Decoding or Finishing; got " ++ state.kind.name))

def reserveNumTokensInNextScheduleEvent : Result Int :=
  match r.state with
  | .prefillDone _ _ reserve _ | .prefillAwaitingResult _ _ reserve => .ok reserve
  | .decoding _ reserve _ => do
    assert (0 ≤ reserve) "Assertion failed"
    pure reserve
  | state => .error (.assertion
      ("Request::ReserveNumTokensInNextScheduleEvent: expected PrefillDone or Decoding; got " ++ state.kind.name))

/-- `UnscheduledPrefillSize` of a resident chunk. -/
def unscheduledPrefillSize : Nat :=
  match r.state with
  | .prefilling _ window _ => r.prefillSize - window.pastEnd
  | _ => 0

def tokenSlice (first size : Nat) : List Token := (r.tokens.drop first).take size

def fullPrefixPages (prefixGranularity : Nat) : List (List Token) :=
  (List.range (r.tokenSize / prefixGranularity)).map fun i => r.tokenSlice (i * prefixGranularity) prefixGranularity

def toState (state : RequestState) : Request := { r with state := state }

def trackScheduledForward : Request :=
  match r.state.resources? with
  | none => r
  | some resources =>
    r.toState (r.state.withResources { resources with resultsInFlight := resources.resultsInFlight + 1 })

def noteResultLanded : Result Request :=
  match r.state.resources? with
  | none => pure r
  | some resources => do
    fatalCheck (0 < resources.resultsInFlight)
      "a forward result landed for a request with no forward in flight"
    pure (r.toState (r.state.withResources { resources with resultsInFlight := resources.resultsInFlight - 1 }))

variable (c : CacheCoordinator) (progress : CacheProgress)

def setCacheProgress : Request :=
  match r.state.resources? with
  | none => r
  | some resources => r.toState (r.state.withResources { resources with cacheProgress := progress })

def setBlockTables (tables : Nat → BlockTable) : Request :=
  match r.state.resources? with
  | none => r
  | some resources => r.toState (r.state.withResources { resources with blockTables := tables })

/-! ## Inputs of a prefill window -/

structure PrefillInfo where
  inputIds : List Token
  shiftedInputIds : List Token
  alreadyScheduledLen : Nat
  extendLen : Nat
  replayLen : Nat

/-- `ComputeShiftedInputIds`: the window one token later, padded with -1 past the prompt. -/
def computeShiftedInputIds (window : Window) : List Token :=
  let shiftedStart := window.first + 1
  let shifted := r.tokenSlice shiftedStart (min r.prefillSize (shiftedStart + window.size) - shiftedStart)
  shifted ++ List.replicate (window.size - shifted.length) (-1)

def makePrefillInfo (window : Window) : Result PrefillInfo := do
  assert (window.replay ≤ window.first) "replay must re-feed computed prompt tokens"
  let input : Window := { first := window.first - window.replay, size := window.size + window.replay }
  pure
    { inputIds := r.tokenSlice input.first input.size
      shiftedInputIds := r.computeShiftedInputIds input
      alreadyScheduledLen := input.first
      extendLen := input.size
      replayLen := window.replay }

def currentPrefillInfo : Result PrefillInfo :=
  match r.state with
  | .prefilling _ window _ | .remotePrefilling _ window _ | .prefillDone _ window _ _
  | .prefillAwaitingResult _ window _ => r.makePrefillInfo window
  | state => .error (.assertion
      ("Request::CurrentPrefillInfo: expected Prefilling, RemotePrefilling or PrefillDone; got " ++ state.kind.name))

/-! ## Publication -/

inductive PublicationPoint where
  | chunk
  | final
  | ownerContinues
  deriving DecidableEq, Repr

def tailPublicationAt (numComputedTokens : Nat) (prior : ContentHash) : Result (Option TailPublication) := do
  assert (numComputedTokens ≤ r.tokenSize) "the computed frontier lies inside the request's tokens"
  let tailTokens := numComputedTokens % c.prefixGranularity
  if tailTokens = 0 then
    return none
  return some ⟨tailTokens, c.hashPage (r.tokenSlice (numComputedTokens - tailTokens) tailTokens) prior⟩

def advancedHashes (filledPrefixPages : Nat) : Result (List ContentHash) :=
  let known := progress.prefixHashes
  let pages := r.fullPrefixPages c.prefixGranularity
  if known.length < filledPrefixPages then do
    assert (filledPrefixPages ≤ pages.length) "hash range exceeds the available full pages"
    pure (known ++ computePrefixHashes c.sha256 ((pages.take filledPrefixPages).drop known.length)
      (known.getLast?.getD []))
  else pure known

def publishedTail (numComputedTokens : Nat) (hashes : List ContentHash) (point : PublicationPoint) :
    Result (Option TailPublication) :=
  match point with
  | .chunk => pure none
  | _ => r.tailPublicationAt c numComputedTokens (hashes.getLast?.getD [])

def checkpointDue (numComputedTokens : Nat) : Bool :=
  decide (0 < progress.stateCheckpointTokens ∧ progress.stateCheckpointTokens ≤ numComputedTokens)

def takeCheckpoint (numComputedTokens : Nat) : CacheProgress :=
  if checkpointDue progress numComputedTokens then
    { progress with
      stateCheckpointTokens := 0
      stateCheckpointBlocks := fun _ => none
      publishedStateCheckpointBlocks := progress.stateCheckpointBlocks }
  else { progress with publishedStateCheckpointBlocks := fun _ => none }

/-- `AdvanceRequestProgress`: the progress of the cache afterwards and what the coordinator is told. -/
def advanceRequestProgress (numComputedTokens : Nat)
    (streamCompletedToHost : Bool) (point : PublicationPoint) : Result (CacheProgress × RequestProgress) := do
  let filled := numComputedTokens / c.prefixGranularity
  let firstNew := progress.prefixHashes.length
  let hashes ← r.advancedHashes c progress filled
  let tail ← r.publishedTail c numComputedTokens hashes point
  let publishState := point != .chunk
  let stateOnly := publishState && tail.isNone && !hashes.isEmpty &&
    decide (numComputedTokens = filled * c.prefixGranularity)
  let due := checkpointDue progress numComputedTokens
  assert (!due || progress.stateCheckpointTokens % c.prefixGranularity == 0)
    "an in-forward State checkpoint sits at a page boundary"
  let checkpointPages := if due then progress.stateCheckpointTokens / c.prefixGranularity else 0
  let completed : CompletedPages :=
    { prefixHashes := hashes
      firstNewPrefixPage := firstNew
      tail := tail
      ownerContinues := point == .ownerContinues
      publishState := publishState
      stateCheckpointPages := checkpointPages
      boundaryKind := if point = .chunk then .chunk else .endpoint
      streamCompletedToHost := streamCompletedToHost }
  pure
    ({ takeCheckpoint progress numComputedTokens with prefixHashes := hashes },
      { completedPages :=
          if firstNew < hashes.length || tail.isSome || stateOnly || 0 < checkpointPages then some completed else none
        numComputedTokens := some numComputedTokens })

end Request

end TokenSpeed

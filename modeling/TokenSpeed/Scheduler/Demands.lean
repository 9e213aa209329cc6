import TokenSpeed.Scheduler.State

/-!
# Chunks and demands

What a scheduled step asks the coordinator for: the token arithmetic of `operations/prefill_chunk.cpp`,
the demands of `operations/group_demands.cpp` and the in-forward State checkpoint of
`operations/forward.cpp`.
-/

namespace TokenSpeed

/-! ## Prefill chunks -/

variable (config : EngineConfig) (c : CacheCoordinator) (tables : Nat → BlockTable) (demands : Nat → GroupDemand)

def prefillStateCheckpointTokens (promptTokens chunkBudget prefixReplayTokens : Nat) : Nat :=
  let tail := max (max 1 c.replayWindowTokens) prefixReplayTokens
  if promptTokens ≤ chunkBudget ∨ promptTokens ≤ tail then 0
  else if (List.range c.groups.length).any c.groupIsState then
    (promptTokens - tail) / c.prefixGranularity * c.prefixGranularity
  else 0

def chunkKeepingFinalWindow (prefillTokens unscheduled replayWindow : Nat) : Result Nat := do
  assert (prefillTokens ≤ unscheduled) "a chunk cannot exceed the unscheduled prompt"
  let remainder := unscheduled - prefillTokens
  if replayWindow = 0 ∨ remainder = 0 ∨ replayWindow ≤ remainder then
    return prefillTokens
  return unscheduled - replayWindow

def cutAtJunction (firstPos plain junctionTokens : Nat) : Nat :=
  if firstPos < junctionTokens then min plain (junctionTokens - firstPos) else plain

def prefillChunkTokens (firstPos : Nat) (resumesHit : Bool) (unscheduled : Nat)
    (tokenBudget : Int) (junctionTokens : Nat) : Result Nat := do
  assert (0 ≤ tokenBudget) "prefill positions must be non-negative"
  let budget := tokenBudget.toNat - if resumesHit then c.replayTokens firstPos else 0
  if budget = 0 then
    return 0
  let plain := min budget unscheduled
  let prefillTokens := cutAtJunction firstPos plain junctionTokens
  let kept ← chunkKeepingFinalWindow prefillTokens unscheduled c.replayWindowTokens
  if 0 < kept ∨ prefillTokens = plain then
    return kept
  chunkKeepingFinalWindow plain unscheduled c.replayWindowTokens

/-- An int32 sum in the source: it is this one while the window and the larger of window and page together stay
in int32, as the check of `max_scheduled_tokens`, the same sum, asks of a configuration. -/
def minPrefillChunkTokens : Nat :=
  let window := c.replayWindowTokens
  if 0 < window then window + max window c.prefixGranularity else 0

/-! ## The in-forward State checkpoint -/

def inForwardStateCheckpoint (promptTokens : Nat) : Nat :=
  if !config.stateCheckpointInForward || config.disablePrefixCache || config.role == .d then 0
  else prefillStateCheckpointTokens c promptTokens config.maxScheduledTokens.toNat config.prefixReplayTokens.toNat

def writesInForwardCheckpoint (checkpoint firstPos tokens prefixGranularity : Nat) : Bool :=
  decide (firstPos < checkpoint ∧ checkpoint < firstPos + tokens ∧ (checkpoint - firstPos) % prefixGranularity = 0)

def chunkTowardInForwardCheckpoint (checkpoint firstPos tokens junction maxChunkTokens prefixGranularity : Nat) : Nat :=
  let pastEnd := firstPos + tokens
  if checkpoint ≤ firstPos ∨ pastEnd = checkpoint ∨ pastEnd + maxChunkTokens ≤ checkpoint then tokens
  else if pastEnd < checkpoint then
    if pastEnd ≤ junction ∧ junction < checkpoint then tokens
    else
      let pageEnd := pastEnd / prefixGranularity * prefixGranularity
      if firstPos < pageEnd then pageEnd - firstPos else tokens
  else if (checkpoint - firstPos) % prefixGranularity = 0 then tokens
  else checkpoint - firstPos

/-! ## Demands -/

def makeGroupDemands (numTokens : Nat) (kind : StateStepKind) (checkpoint : Bool) (i : Nat) : GroupDemand :=
  if (config.group i).attnKind = .state then { extent := .state kind checkpoint } else { extent := .dense numTokens }

structure PrefillReserve where
  decodeInputTokens : Nat := 0
  completesPrefill : Bool := false
  promptHeadroomTokens : Nat := 0
  swaHitTokens : Nat := 0
  swaLaterChunkTokens : Nat := 0
  swaPromptAfterHitTokens : Nat := 0
  deriving DecidableEq, Repr

def PrefillReserve.decodeTokens (reserve : PrefillReserve) : Nat :=
  if reserve.completesPrefill then reserve.decodeInputTokens else 0

def groupReserveTokens (group : CacheGroupConfig) (reserve : PrefillReserve) : Nat :=
  match group.attnKind with
  | .state => 0
  | .slidingWindow =>
    let lookback := ((group.slidingWindowTokens.getD 0) - 1).toNat
    let hitCounts := !group.replayable &&
      decide (reserve.swaPromptAfterHitTokens < lookback + group.blockGranularity.toNat)
    let unrecycled := min (max (if hitCounts then reserve.swaHitTokens else 0) reserve.swaLaterChunkTokens) lookback
    max reserve.decodeTokens (min reserve.promptHeadroomTokens unrecycled)
  | .full => max reserve.decodeTokens reserve.promptHeadroomTokens

def reservePrefillDemands (reserve : PrefillReserve) (i : Nat) : GroupDemand :=
  { demands i with reserveTokens := groupReserveTokens (config.group i) reserve }

def remoteDemands (prefillSize hitTokens : Nat) (i : Nat) : GroupDemand :=
  let group := config.group i
  if group.attnKind = .slidingWindow then
    let g := c.granularity i
    let hitBlocks := (hitTokens + g - 1) / g
    let retainedBegin := prefillSize + 1 - (group.slidingWindowTokens.getD 0).toNat
    { demands i with extent := .sparse prefillSize (max hitBlocks (retainedBegin / g)) }
  else demands i

/-! ## Decodes in place -/

/-- Whether group `i` holds `numTokens` more without a block and has nothing to reclaim. -/
def groupConsumesInPlace (numTokens numComputedTokens i : Nat) : Bool :=
  let table := tables i
  let needed := if c.groupIsState i then 0
    else GroupGeometry.blocksNeededBeyond (c.granularity i) table.availableTokens numTokens
  needed == 0 && (GroupAllocator.reclaimableBlockLocationsAt c.pool (c.deviceCached i) table
    (GroupGeometry.expiredBlocksAt (c.granularity i) (c.spec i) numComputedTokens)).isEmpty

def canConsumeReservedTokensInPlace (numTokens numComputedTokens : Nat) : Bool :=
  (List.range c.groups.length).all (groupConsumesInPlace c tables numTokens numComputedTokens)

end TokenSpeed

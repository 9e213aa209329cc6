import TokenSpeed.Cache.Types
import TokenSpeed.Logic.Fault

/-!
# The scheduler's configuration

The fields of `SchedulerConfig` and `CacheGroupConfig` the capacity model reads, and their
validation. `std::invalid_argument` is an assertion the caller sees. Integers are unbounded.
-/

namespace TokenSpeed

inductive Role where
  | p
  | d
  | fused
  deriving DecidableEq, Repr

inductive CacheTransferPolicy where
  | unspecified
  | fullSuffix
  | latestSnapshot
  deriving DecidableEq, Repr

structure CacheGroupConfig where
  groupId : String
  blockGranularity : Int := 0
  cacheBlocksPerLcmBlock : Int := 1
  attnKind : AttnKind := .full
  slidingWindowTokens : Option Int := none
  replayable : Bool := false
  transferPolicy : CacheTransferPolicy := .unspecified
  shardCount : Int := 1
  deriving DecidableEq, Repr

structure SchedulerConfig where
  prefixGranularity : Int := 0
  cacheGroups : List CacheGroupConfig := []
  maxScheduledTokens : Int := 0
  maxBatchSize : Int := 0
  decodeInputTokens : Int := 1
  overlapScheduleDepth : Int := 0
  role : Role := .fused
  disablePrefixCache : Bool := false
  deriving DecidableEq, Repr

namespace CacheGroupConfig

variable (group : CacheGroupConfig)

def place : String := "Cache group '" ++ group.groupId ++ "': "

/-- The check of `block_granularity`. -/
def checkSpan : Result Unit :=
  if group.attnKind = .state then
    assert (group.blockGranularity == 0)
      (group.place ++ "a State group has no token span: block_granularity must be 0 (its two " ++
        "slots hold whole recurrent states, not token rows)")
  else assert (0 < group.blockGranularity) (group.place ++ "block_granularity must be > 0")

/-- The check of `sliding_window_tokens`. -/
def checkWindow : Result Unit :=
  if group.attnKind = .slidingWindow then
    assert (group.slidingWindowTokens.any (0 < ·))
      (group.place ++ "sliding_window_tokens must be > 0 for sliding groups")
  else
    assert group.slidingWindowTokens.isNone
      (group.place ++ "only a sliding-window group carries sliding_window_tokens")

def validateCapacityInputs : Result Unit := do
  assert (group.groupId != "") "CacheGroupConfig: group_id must be non-empty"
  group.checkSpan
  assert (0 < group.cacheBlocksPerLcmBlock) (group.place ++ "cache_blocks_per_lcm_block must be > 0")
  assert (0 < group.shardCount && group.cacheBlocksPerLcmBlock % group.shardCount == 0)
    (group.place ++ "shard_count must be positive and divide parent packing")
  group.checkWindow
  assert (!group.replayable || group.attnKind == .slidingWindow)
    (group.place ++ "only a sliding-window group can be regenerated by bounded replay; a " ++
      "full-history group is prefix-closed and shared, a state group is a checkpoint")

end CacheGroupConfig

namespace SchedulerConfig

variable (config : SchedulerConfig)

def expectedPolicy (group : CacheGroupConfig) : CacheTransferPolicy :=
  if group.attnKind = .state then .latestSnapshot else .fullSuffix

def validateGroup (group : CacheGroupConfig) : Result Unit := do
  group.validateCapacityInputs
  assert (group.attnKind == .state || config.prefixGranularity % group.blockGranularity == 0)
    (group.place ++ "block_granularity must divide the scheduler prefix_granularity")
  if config.role = .fused then
    return
  assert (group.transferPolicy != .unspecified) (group.place ++ "PD cache requires an explicit transfer_policy")
  assert (group.transferPolicy == expectedPolicy group)
    (group.place ++ "transfer_policy does not match its scheduler destination layout")

/-- One group of the validation loop; `replay` is the largest replay window so far. -/
def visitGroup (replay : Int) (group : CacheGroupConfig) : Result Int := do
  config.validateGroup group
  pure (if group.replayable then max replay (group.slidingWindowTokens.getD 0) else replay)

def validateCapacityInputs : Result Unit := do
  assert (0 < config.prefixGranularity) "Scheduler: prefix_granularity must be > 0"
  assert (!config.cacheGroups.isEmpty) "Scheduler: at least one cache group is required"
  assert (0 ≤ config.maxBatchSize) "Scheduler: max_batch_size must be >= 0"
  assert (0 ≤ config.decodeInputTokens) "Scheduler: decode_input_tokens must be >= 0"
  assert (0 < config.maxScheduledTokens) "Scheduler: max_scheduled_tokens must be > 0"
  assert (0 ≤ config.overlapScheduleDepth && config.overlapScheduleDepth ≤ 1)
    "Scheduler: overlap_schedule_depth must be 0 or 1"
  assert (!(0 < config.overlapScheduleDepth && config.decodeInputTokens == 0))
    "Scheduler: overlapped decode requires decode_input_tokens > 0"
  let replay ← config.cacheGroups.foldlM config.visitGroup 0
  assert (!(0 < replay && config.maxScheduledTokens < replay + max replay config.prefixGranularity))
    ("Scheduler: max_scheduled_tokens must cover the replayable groups' largest sliding_window_tokens " ++
      "plus max(that window, prefix_granularity)")

end SchedulerConfig

end TokenSpeed

import TokenSpeed.Scheduler.Config

/-!
# The capacity model

`scheduler/capacity_model.{h,cpp}`: the pages each group holds for one request, and for the live
requests together.
-/

namespace TokenSpeed

def ceilDiv (value divisor : Int) : Result Int := do
  assert (0 ≤ value && 0 < divisor) "ceilDiv requires non-negative value and positive divisor"
  pure ((value + divisor - 1) / divisor)

/-- `kStateSlots`: the checkpoint the next forward reads and the block it writes. -/
def stateSlots : Int := 2

structure CapacityGroup where
  blockGranularity : Int
  cacheBlocksPerLcmBlock : Int
  prefixClosed : Bool
  lookbackPages : Int
  deriving DecidableEq, Repr

structure CapacityModel where
  config : SchedulerConfig
  groups : List CapacityGroup

variable (group : CacheGroupConfig)

/-- `IsPrefixClosed` of the group's matcher, with the checks `MakePrefixMatcher` makes. -/
def matcherIsPrefixClosed : Result Bool :=
  match group.attnKind with
  | .full => do
    assert (0 < group.blockGranularity) "group block_granularity must be > 0"
    pure true
  | .state => do
    assert (group.blockGranularity == 0) "a State group has no token span"
    pure false
  | .slidingWindow => do
    assert (0 < group.blockGranularity) "group block_granularity must be > 0"
    assert (0 < group.slidingWindowTokens.getD 0) "sliding window group requires a positive window"
    pure false

/-- An `int32_t` that overflows wraps. -/
def wrapInt32 (value : Int) : Int := value.bmod (2 ^ 32)

/-- `window_blocks`: the doubling is done in `int32_t`, the rest in `int64_t`. -/
def windowBlocks : Int :=
  if group.attnKind = .slidingWindow ∧ 1 < group.slidingWindowTokens.getD 0 then
    (group.slidingWindowTokens.getD 0 - 1 + wrapInt32 (2 * (group.blockGranularity - 1))).tdiv group.blockGranularity
  else 0

/-- The windows are `int32_t`, and a sliding group's granularity leaves room for the constructor's doubling. -/
def Int32Groups (config : SchedulerConfig) : Prop := ∀ group ∈ config.cacheGroups,
  group.slidingWindowTokens.getD 0 ≤ int32Max ∧ (group.attnKind = .slidingWindow → group.blockGranularity ≤ 1073741824)

instance (config : SchedulerConfig) : Decidable (Int32Groups config) := inferInstanceAs (Decidable (∀ _ ∈ _, _))

def makeCapacityGroup : Result CapacityGroup := do
  let closed ← matcherIsPrefixClosed group
  pure
    { blockGranularity := group.blockGranularity
      cacheBlocksPerLcmBlock := group.cacheBlocksPerLcmBlock
      prefixClosed := closed
      lookbackPages := windowBlocks group }

namespace CapacityModel

def make (config : SchedulerConfig) : Result CapacityModel := do
  config.validateCapacityInputs
  let groups ← config.cacheGroups.mapM makeCapacityGroup
  pure { config := config, groups := groups }

variable (m : CapacityModel)

def decodeWidth : Int := m.config.decodeInputTokens

def protectedTokens : Int :=
  if m.config.role = .p then 0 else m.config.overlapScheduleDepth * m.decodeWidth

def draftWindowTokens (config : SchedulerConfig) : Int :=
  if config.role = .p ∨ config.decodeInputTokens ≤ 1 then 0 else config.decodeInputTokens

variable (spec : CacheGroupConfig) (group : CapacityGroup) (maxTotalTokens maxContextLen tokenLimit : Int)

def tailBlocks : Result Int :=
  let tailTokens := m.config.prefixGranularity - 1
  if m.config.role = .d then pure (tailTokens / group.blockGranularity)
  else ceilDiv tailTokens group.blockGranularity

def tailHandoverBlocks : Result Int :=
  if m.config.disablePrefixCache then pure 0
  else do
    let blocks ← m.tailBlocks group
    pure (if group.prefixClosed then blocks else min blocks group.lookbackPages)

/-! ## One request -/

/-- `max_prompt_tokens`: the largest accepted prompt leaves the first decode reservation inside the
limit. -/
def maxPromptTokens : Int := max (tokenLimit - m.decodeWidth) 0

def localPrefillPeak : Result Int := do
  let chunk := m.config.maxScheduledTokens
  let prompt := m.maxPromptTokens tokenLimit
  let reserved := m.decodeWidth + m.protectedTokens
  let pages ← ceilDiv (min prompt chunk + reserved) group.blockGranularity
  if chunk < prompt then do
    let laterPrompt := min (prompt - chunk) chunk
    let whole ← ceilDiv chunk group.blockGranularity
    let later ← ceilDiv (laterPrompt + reserved) group.blockGranularity
    pure (max (max pages (group.lookbackPages + whole)) (group.lookbackPages + later))
  else pure pages

def landingPages : Result Int := do
  let dense ← ceilDiv (tokenLimit + m.protectedTokens) group.blockGranularity
  let window ← ceilDiv (spec.slidingWindowTokens.getD 0 - 1 + m.decodeWidth + m.protectedTokens +
    group.blockGranularity - 1) group.blockGranularity
  pure (min dense (group.lookbackPages + window))

def historyPages : Result Int :=
  if group.prefixClosed then ceilDiv (tokenLimit + m.protectedTokens) group.blockGranularity
  else if m.config.role = .d then m.landingPages spec group tokenLimit
  else m.localPrefillPeak group tokenLimit

/-- The handover blocks a request of `tokenLimit` tokens is charged. -/
def handoverPages : Result Int :=
  if tokenLimit = 0 then pure 0 else m.tailHandoverBlocks group

def singleGroupPages (entry : CacheGroupConfig × CapacityGroup) : Result Int :=
  if entry.1.attnKind = .state then pure (if tokenLimit = 0 then 0 else stateSlots)
  else do
    let handover ← m.handoverPages entry.2 tokenLimit
    let pages ← m.historyPages entry.1 entry.2 tokenLimit
    pure (handover + pages)

def singleRequestGroupPages : Result (List Int) := do
  assert (0 ≤ tokenLimit) "single-request token limit must be non-negative"
  (m.config.cacheGroups.zip m.groups).mapM (m.singleGroupPages tokenLimit)

/-! ## All live requests -/

def concurrentProtected : Int := m.protectedTokens + draftWindowTokens m.config

def lcmBlocksNeededFor (groupPages : List Int) : Result Int := do
  assert (groupPages.length == m.groups.length) "page demand requires one entry per cache group"
  (groupPages.zip m.groups).foldlM (fun lcmBlocks entry => do
    assert (0 ≤ entry.1) "group page demand must be non-negative"
    let blocks ← ceilDiv entry.1 entry.2.cacheBlocksPerLcmBlock
    pure (lcmBlocks + blocks)) 0

/-- The bisection of `MaxSingleRequestTokens`; every round halves the range. -/
def bisectTokens (usableLcmBlocks : Int) : Nat → Int → Int → Result Int
  | 0, low, _ => pure low
  | fuel + 1, low, high =>
    if low < high then do
      let candidate := low + (high - low + 1) / 2
      let needed ← (m.singleRequestGroupPages candidate) >>= m.lcmBlocksNeededFor
      if needed ≤ usableLcmBlocks then bisectTokens usableLcmBlocks fuel candidate high
      else bisectTokens usableLcmBlocks fuel low (candidate - 1)
    else pure low

/-- `MaxSingleRequestTokens`; 32 rounds exhaust the range of an `int32_t`. -/
def maxSingleRequestTokens (usableLcmBlocks : Int) : Result Int :=
  m.bisectTokens usableLcmBlocks 32 0 int32Max

end CapacityModel

end TokenSpeed

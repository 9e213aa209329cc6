import TokenSpeed.Scheduler.Admission

/-!
# The chunk finally scheduled

The three cutting rules of a prefill chunk in the order `schedulePrefillFirstChunk` and `schedulePrefill`
apply them, and the rounds that take a prompt to its end.
-/

namespace TokenSpeed

namespace Scheduler

variable (s : Scheduler)

def refedTokens (firstPos : Nat) (resumesHit : Bool) : Nat :=
  if resumesHit then s.coord.replayTokens firstPos else 0

/-- The chunk of a request computed up to `firstPos`; `blockFits` says whether the admission that also
takes the in-forward checkpoint's block succeeds. -/
def scheduledChunk (prompt firstPos : Nat) (resumesHit : Bool) (budget : Int) (junction : Nat) (blockFits : Bool) :
    Result Nat := do
  let tokens ← prefillChunkTokens s.coord firstPos resumesHit (prompt - firstPos) budget junction
  if tokens = 0 then
    return 0
  let checkpoint := inForwardStateCheckpoint s.config s.coord prompt
  let tokens := chunkTowardInForwardCheckpoint checkpoint firstPos tokens junction s.config.maxScheduledTokens.toNat
    s.coord.prefixGranularity
  return if blockFits then tokens else s.tokensWithoutCheckpoint firstPos checkpoint tokens

/-- What the scheduler gives a prefilling request in one round. -/
structure ChunkRound where
  sched : Scheduler
  budget : Int
  junction : Nat
  blockFits : Bool

/-- `budget ≥ max(1, MinPrefillChunkTokens)`. -/
def ChunkRound.enough (round : ChunkRound) : Prop :=
  (max 1 (minPrefillChunkTokens round.sched.coord) : Int) ≤ round.budget

/-- The position a prompt reaches after the rounds; only the first chunk resumes the hit. -/
def prefillRounds (prompt : Nat) : Bool → Nat → List ChunkRound → Result Nat
  | _, firstPos, [] => pure firstPos
  | resumesHit, firstPos, round :: rest => do
    let tokens ← round.sched.scheduledChunk prompt firstPos resumesHit round.budget round.junction round.blockFits
    prefillRounds prompt false (firstPos + tokens) rest

/-- Whether a chunk may end at `pastEnd`: what is left of the prompt is nothing or at least the window. -/
def mayEndAt (prompt pastEnd : Nat) : Prop :=
  pastEnd = prompt ∨ pastEnd + s.coord.replayWindowTokens ≤ prompt

structure CutsWell (prompt firstPos : Nat) (resumesHit : Bool) (budget : Int) (junction tokens : Nat) : Prop where
  inPrompt : firstPos + tokens ≤ prompt
  inBudget : 0 < tokens → (tokens + s.refedTokens firstPos resumesHit : Int) ≤ budget
  finalWindow : 0 < tokens → s.mayEndAt prompt (firstPos + tokens)
  junction : firstPos < junction → junction < firstPos + tokens →
    ∀ pastEnd, firstPos < pastEnd → pastEnd ≤ junction → ¬s.mayEndAt prompt pastEnd
  progress : firstPos < prompt → (max 1 (minPrefillChunkTokens s.coord) : Int) ≤ budget → 0 < tokens

end Scheduler

namespace Round

variable (r : Round) (req : Request) (remaining : Int) (reserve : Nat)

/-- The first chunk is the one cut at the junction of the request's match; the block of its checkpoint fits if
the admission that takes it too succeeds. -/
def GrantsFirst (chunk : Scheduler.FirstChunk) : Prop :=
  ∃ found tokens admission, r.sched.matchPrefixAtAdmission req = .ok found ∧
    let shape := r.sched.firstChunkShape req found.probe reserve
    let cut := r.sched.scheduledChunk req.prefillSize shape.hitTokens true remaining shape.junctionTokens
    cut true = .ok tokens ∧
    r.sched.admitWithCheckpoint req found.probe shape (r.sched.stateCheckpointOf req) tokens = .ok admission ∧
    chunk.hitTokens = shape.hitTokens ∧ cut admission.isSome = .ok chunk.tokensThisRound

/-- A later chunk is the one cut at the junction the request's progress records. -/
def Grants (chunk : Chunk) : Prop :=
  ∃ resources step started tokens admission, req.forwardResources "CacheProgress" = .ok resources ∧
    let firstPos := req.prefillSize - req.unscheduledPrefillSize
    let cut := r.sched.scheduledChunk req.prefillSize firstPos false remaining resources.cacheProgress.junctionTokens
    cut true = .ok tokens ∧
    (∃ junction stream point, r.startStep req junction stream point = .ok (step, started)) ∧
    started.admitChunkWithCheckpoint step req.unscheduledPrefillSize reserve firstPos (r.sched.stateCheckpointOf req)
      tokens = .ok admission ∧
    cut admission.isSome = .ok chunk.tokens

end Round

end TokenSpeed

import TokenSpeed.Scheduler.Lemmas.Chunks
import TokenSpeed.Scheduler.Lemmas.Conservation

/-!
# The scheduler over whole runs

What holds in every state the calls of a validated scheduler lead to, and of every plan they return.
-/

namespace TokenSpeed

open List

/-! ## The composition of a plan -/

theorem forwardBatch_perm (ops) : (forwardBatch ops).Perm ops :=
  filter_append_perm _ _

theorem inputTokens_forwardBatch (ops) : inputTokens (forwardBatch ops) = inputTokens ops :=
  ((forwardBatch_perm ops).map _).sum_nat

/-- Moving the decodes behind the prefills keeps the order of the prefills. -/
theorem PrefillsOrdered.forwardBatch {ops} (h : PrefillsOrdered ops) : PrefillsOrdered (forwardBatch ops) := by
  refine pairwise_append.mpr ⟨h.filter _, h.filter _, fun a _ b hb _ => ?_⟩
  simpa using (mem_filter.mp hb).2

theorem ForwardOperation.Incomplete.isPrefill {op : ForwardOperation} (h : op.Incomplete) : op.isPrefill = true := by
  cases op with
  | prefill => rfl
  | decode => exact absurd h id

/-- What a model batch may be made of. -/
structure Composed (config : EngineConfig) (batch : List ForwardOperation) : Prop where
  once : (batch.map (·.row.requestId)).Nodup
  size : (batch.length : Int) ≤ config.maxBatchSize
  cut : ∀ before op after, batch = before ++ op :: after → op.Incomplete →
    (∀ x ∈ before, ¬ x.Incomplete) ∧ ∀ x ∈ after, x.isPrefill = false

namespace Scheduler

variable {s s' : Scheduler} {plan : ExecutionPlan}

/-- The operations of a plan come from one build of a state that keeps the configuration. -/
theorem nextExecutionPlan_batch (hs : s.IdsNodup) (hv : ConfigValid s.config.toSchedulerConfig)
    (hl : s.config.role ≠ .d) :
    Ensures s.nextExecutionPlan fun x => ∃ r, Round.Batch r ∧ r.sched.config = s.config ∧
      x.1.forward = forwardBatch r.operations ∧ (s.config.DecodesFit → 0 ≤ r.tokenBudget) ∧
      (s.core.Kept → r.sched.core.Kept) := by
  refine .bind (eraseFinished_moves _ : Ensures _ (Silent .all { s with pendingWriteBacks := [] })) fun s1 h1 => ?_
  refine .bind (prepareRequests_moves s1 : Ensures _ (Silent .all s1)) fun s2 h2 => ?_
  have hc : s2.config = s.config := (Moves.config (Silent.trans h1 h2)).1
  have hd : s2.IdsNodup := Moves.idsNodup (Silent.trans h1 h2) hs
  have hro : Ensures (buildForward { s2 with planCalls := s2.planCalls + 1 } s.pendingWriteBacks) fun r =>
      Round.Batch r ∧ r.sched.config = s.config ∧ (s.config.DecodesFit → 0 ≤ r.tokenBudget) := by
    have hf : Round.Fresh
        { sched := { s2 with planCalls := s2.planCalls + 1 }
          writeBacks := s.pendingWriteBacks
          tokenBudget := s2.config.maxScheduledTokens } := ⟨rfl, rfl, rfl, rfl, rfl⟩
    have hsi : 0 ≤ s2.config.maxBatchSize := hc ▸ hv.batch
    have ht : 0 ≤ s2.config.maxScheduledTokens := hc ▸ hv.scheduled_pos.le
    refine .ite (fun _ => ?_) fun _ => .pure ⟨hf.batch hsi, hc, fun _ => ht⟩
    have hn : ({ s2 with planCalls := s2.planCalls + 1 } : Scheduler).candidates.Nodup :=
      hd.sublist (filter_sublist.map _)
    refine (Round.build_served (hc ▸ hl) hsi hf hn).mono fun r hr => ?_
    exact ⟨hr.1, hr.2.1.trans hc, fun hfi => hr.2.2 (hc ▸ hfi) ht⟩
  refine (hro.and (@buildForward_moves .all _ _)).bind fun r ⟨hr, hm⟩ => .skip fun ⟨st, s3⟩ _ =>
    .skip fun ⟨stores, s4⟩ _ => ?_
  exact .skip fun _ _ => .pure ⟨r, hr.1, hr.2.1, rfl, hr.2.2, (Moves.trans (Silent.trans h1 h2) hm).kept⟩

/-- Every plan of a prefill worker or a fused engine keeps to the composition of a batch; its tokens stay
within the budget in every run whose decodes fit it. -/
theorem nextExecutionPlan_composed (hs : Reachable s) (hrole : s.config.role ≠ .d)
    (hplan : s.nextExecutionPlan = .ok (plan, s')) : Composed s.config plan.forward ∧
      (s.config.DecodesFit → (inputTokens plan.forward : Int) ≤ s.config.maxScheduledTokens) := by
  obtain ⟨s₀, hr⟩ := hs.reached
  obtain ⟨r, hb, hc, hf, hbu, _⟩ :=
    nextExecutionPlan_batch hr.idsNodup hr.valid hrole _ hplan
  rw [hf]
  refine ⟨⟨?_, ?_, fun before op after heq hcu => ?_⟩, fun hfi => ?_⟩
  · exact (((forwardBatch_perm r.operations).map _).nodup_iff).mpr hb.nodup
  · rw [(forwardBatch_perm r.operations).length_eq, ← hc]
    exact hb.size
  · have hor := hb.ordered.forwardBatch
    rw [heq] at hor
    obtain ⟨_, ht, hacross⟩ := pairwise_append.mp hor
    refine ⟨fun x hx hincomplete => ?_, fun x hx => (pairwise_cons.mp ht).1 x hx hcu⟩
    have := hacross x hx op mem_cons_self hincomplete
    rw [hcu.isPrefill] at this
    exact nomatch this
  · have hsp := hb.budget
    have hl := hbu hfi
    rw [inputTokens_forwardBatch, ← hc]
    omega

/-- The operations of a plan are of requests apart, and each runs in a row, no two in one. -/
theorem nextExecutionPlan_rows (hs : Reachable s) (hrole : s.config.role ≠ .d)
    (hplan : s.nextExecutionPlan = .ok (plan, s')) :
    (plan.forward.map (·.row.requestId)).Nodup ∧ (plan.forward.map (·.row.requestPoolIndex)).Nodup ∧
      none ∉ plan.forward.map (·.row.requestPoolIndex) := by
  obtain ⟨s₀, hr⟩ := hs.reached
  obtain ⟨r, hb, _, hf, _, hk⟩ := nextExecutionPlan_batch hr.idsNodup hr.valid hrole _ hplan
  have hk := hk hs.kept
  have hrow : ∀ op ∈ r.operations, ∃ req ∈ r.sched.requests, ∃ row, req.id = op.row.requestId ∧
      req.state.row? = some row ∧ op.row.requestPoolIndex = some row := by
    intro op hop
    obtain ⟨req, hfi, _, hw, ho⟩ := hb.tracked op hop
    have hm := mem_of_find?_eq_some hfi
    obtain ⟨row, hrow⟩ := Option.isSome_iff_exists.mp ((hk.owned req hm).trans ho)
    exact ⟨req, hm, row, findRequest_id hfi, hrow, hw.symm.trans hrow⟩
  rw [hf]
  have hperm := (forwardBatch_perm r.operations).map (·.row.requestPoolIndex)
  rw [hperm.nodup_iff, hperm.mem_iff]
  refine ⟨((forwardBatch_perm r.operations).map _).nodup_iff.mpr hb.nodup, ?_, fun hn => ?_⟩
  · refine pairwise_map.mpr ((pairwise_map.mp hb.nodup).imp_of_mem fun hop hop' hne heq => hne ?_)
    obtain ⟨req, hm, row, hid, hw, hi⟩ := hrow _ hop
    obtain ⟨req', hm', row', hid', hw', hi'⟩ := hrow _ hop'
    obtain rfl : row = row' := Option.some.inj (hi.symm.trans (heq.trans hi'))
    rw [← hid, ← hid', hk.eq_of_row hm hm' hw hw']
  · obtain ⟨op, hop, hn⟩ := mem_map.mp hn
    obtain ⟨_, _, row, _, _, hi⟩ := hrow op hop
    rw [hn] at hi
    cases hi

/-- A fused engine whose token budget is no multiple of its decode width. -/
def oddBudget : EngineConfig where
  prefixGranularity := 4
  cacheGroups :=
    [{ groupId := "kv", attnKind := .full, blockGranularity := 4, cacheBlocksPerLcmBlock := 1, shardCount := 1 }]
  maxBatchSize := 8
  decodeInputTokens := 2
  maxScheduledTokens := 5
  role := .fused
  disablePrefixCache := true
  deviceTotalPages := 6
  snapshotTotalPages := 3
  maxRetractedRequests := 1

/-- Three requests decode; the fourth takes the last page, and a decode waits for capacity. -/
def crowded : List Call :=
  [.submit [⟨1, [1, 2], 0, 100⟩, ⟨2, [3], 0, 100⟩, ⟨3, [4], 0, 100⟩], .plan,
   .advance [.extendResult 1 [7] [], .extendResult 2 [7] [], .extendResult 3 [7] []], .plan,
   .advance [.extendResult 1 [7] [], .extendResult 2 [7] []],
   .submit [⟨4, [1, 2, 3, 4, 5, 6, 7, 8, 9], 0, 100⟩], .plan, .advance [.extendResult 4 [] []]]

/-- The plan after a run, seen through what is asked of it. -/
theorem plan_after {α : Type} {config} {sha256 : List Nat → List Nat} {calls}
    {vw : Scheduler → ExecutionPlan → α} {a}
    (h : (do
      let (_, s) ← runFrom config sha256 calls
      let (plan, _) ← s.nextExecutionPlan
      pure (vw s plan) : Result α) = .ok a) :
    ∃ s plan s', Reachable s ∧ s.nextExecutionPlan = .ok (plan, s') ∧ vw s plan = a := by
  obtain ⟨⟨plans, s⟩, hr, h⟩ := bind_ok.mp h
  obtain ⟨⟨plan, s'⟩, hp, h⟩ := bind_ok.mp h
  exact ⟨s, plan, s', runFrom_reachable hr, hp, Except.ok.inj h⟩

theorem crowded_fits : ∃ s plan s', Reachable s ∧ s.nextExecutionPlan = .ok (plan, s') ∧ plan.forward.length = 3 ∧
    Composed s.config plan.forward ∧ (inputTokens plan.forward : Int) ≤ s.config.maxScheduledTokens := by
  obtain ⟨s, plan, s', hs, hp, hv⟩ := @plan_after _ { oddBudget with maxScheduledTokens := 6 } id crowded
    (fun s plan => (decide (s.config.role ≠ .d ∧ s.config.DecodesFit), plan.forward.length)) (true, 3)
    (by decide +kernel)
  obtain ⟨hr, hf⟩ := of_decide_eq_true (congrArg Prod.fst hv)
  obtain ⟨hc, ht⟩ := nextExecutionPlan_composed hs hr hp
  exact ⟨s, plan, s', hs, hp, congrArg Prod.snd hv, hc, ht hf⟩

/-- The loop that retracts a victim grants the blocked decode whatever is left of the budget. -/
theorem crowded_overdraws : ∃ s plan s', Reachable s ∧ s.config.role = .fused ∧ s.nextExecutionPlan = .ok (plan, s') ∧
    s.config.maxScheduledTokens < inputTokens plan.forward := by
  obtain ⟨s, plan, s', hs, hp, hv⟩ := @plan_after _ oddBudget id crowded
    (fun s plan => decide (s.config.role = .fused ∧ s.config.maxScheduledTokens < inputTokens plan.forward)) true
    (by decide +kernel)
  obtain ⟨hr, ht⟩ := of_decide_eq_true hv
  exact ⟨s, plan, s', hs, hr, hp, ht⟩

/-! ## Rows -/

/-- The free rows, those of the requests and those of the restores in flight are the pool's, each once. -/
theorem rows_conserved (hs : Reachable s) : (s.reqPool.freeSlots ++ s.requests.filterMap (·.state.row?) ++
    s.transfers.snapshotRestores.map (·.2.requestPoolIndex)).Perm (range' 1 s.reqPool.size) :=
  append_assoc .. ▸ hs.kept.rows

/-- The fourth request has lost its row, and its image is being stored. -/
theorem rows_conserved_retracted : ∃ s, Reachable s ∧ s.requests.filterMap (·.state.row?) = [1, 2, 3] ∧
    (s.reqPool.freeSlots ++ s.requests.filterMap (·.state.row?) ++
      s.transfers.snapshotRestores.map (·.2.requestPoolIndex)).Perm (range' 1 s.reqPool.size) := by
  obtain ⟨s, _, _, hs, _, hv⟩ := @plan_after _ oddBudget id (crowded ++ [.plan])
    (fun s _ => decide (s.requests.filterMap (·.state.row?) = [1, 2, 3])) true (by decide +kernel)
  exact ⟨s, hs, of_decide_eq_true hv, rows_conserved hs⟩

/-! ## The chunks of a prompt -/

/-- Whatever the hit, the junction, the checkpoint and the budget, a chunk is cut well, and rounds with
enough budget take a prompt to its end; a granted chunk is the one cut. -/
theorem scheduledChunk_progresses (s : Scheduler) {prompt firstPos : Nat} (hpos : firstPos ≤ prompt) {budget : Int}
    (hbudget : 0 ≤ budget) (resumesHit : Bool) (junction : Nat) (blockFits : Bool) {rounds : List ChunkRound}
    (henough : ∀ round ∈ rounds, round.enough) (hlength : prompt - firstPos ≤ rounds.length) :
    (∃ tokens, s.scheduledChunk prompt firstPos resumesHit budget junction blockFits = .ok tokens ∧
      s.CutsWell prompt firstPos resumesHit budget junction tokens) ∧
    prefillRounds prompt resumesHit firstPos rounds = .ok prompt ∧
    (∀ (r r' : Round) req remaining reserve chunk, r.sched.config.role ≠ .d →
      r.schedulePrefillFirstChunk req remaining reserve = .ok (some chunk, r') →
        r.GrantsFirst req remaining reserve chunk) ∧
    ∀ (r r' : Round) req remaining reserve chunk, r.schedulePrefill req remaining reserve = .ok (some chunk, r') →
      r.Grants req remaining reserve chunk := by
  refine ⟨scheduledChunk_cutsWell s resumesHit junction blockFits hbudget hpos,
    prefillRounds_complete henough hpos (by omega) resumesHit, fun r r' req remaining reserve chunk hr h => ?_,
    fun r r' req remaining reserve chunk h => ?_⟩
  · exact Round.schedulePrefillFirstChunk_grants r req remaining reserve hr _ h chunk rfl
  · exact Round.schedulePrefill_grants r req remaining reserve _ h chunk rfl

/-- A replayed window beside a State group whose checkpoint a forward may write. -/
def replaying : EngineConfig where
  prefixGranularity := 4
  cacheGroups :=
    [{ groupId := "swa", blockGranularity := 4, attnKind := .slidingWindow, slidingWindowTokens := some 3, replayable :=
      true }, { groupId := "state", blockGranularity := 0, attnKind := .state }]
  maxScheduledTokens := 10
  stateCheckpointInForward := true

/-- A budget of ten after a hit of nine: three are re-fed, and the chunk ends at the checkpoint, sixteen. -/
theorem scheduledChunk_progresses_replaying : (ofConfig replaying id 0).scheduledChunk 20 9 true 10 0 false = .ok 7 ∧
    (ofConfig replaying id 0).CutsWell 20 9 true 10 0 7 ∧
    prefillRounds 20 true 9 (List.replicate 11 ⟨ofConfig replaying id 0, 10, 0, false⟩) = .ok 20 := by
  have hen : ∀ round ∈ replicate 11 (⟨ofConfig replaying id 0, 10, 0, false⟩ : ChunkRound), round.enough := by
    intro round hr
    rw [eq_of_mem_replicate hr]
    unfold ChunkRound.enough
    decide +kernel
  have hc : (ofConfig replaying id 0).scheduledChunk 20 9 true 10 0 false = .ok 7 := by decide +kernel
  obtain ⟨⟨tokens, ht, hcuts⟩, hro, -⟩ := scheduledChunk_progresses (ofConfig replaying id 0)
    (by decide : 9 ≤ 20) (by decide : (0 : Int) ≤ 10) true 0 false hen (by decide)
  cases hc.symm.trans ht
  exact ⟨hc, hcuts, hro⟩

end Scheduler

end TokenSpeed

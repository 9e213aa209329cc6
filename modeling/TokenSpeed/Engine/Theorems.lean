import TokenSpeed.Engine.Lemmas.CacheRun
import TokenSpeed.Engine.Lemmas.ExpertMoves
import TokenSpeed.Engine.Lemmas.ExpertSlots
import TokenSpeed.Engine.Lemmas.GrammarHost
import TokenSpeed.Engine.Lemmas.History
import TokenSpeed.Engine.Lemmas.Intake
import TokenSpeed.Engine.Lemmas.Mapping
import TokenSpeed.Engine.Lemmas.PromptLogprobs
import TokenSpeed.Engine.Lemmas.QueryShard
import TokenSpeed.Engine.Lemmas.Replica
import TokenSpeed.Engine.Lemmas.StorageAgreement
import TokenSpeed.Scheduler.RunTheorems

/-!
# The control plane over whole runs
-/

namespace TokenSpeed.Engine

open Option

/-! ## Token-history rows -/

namespace Histories

variable {h h' : Histories} {batch : List RowRun}

theorem steps_of_homeRun {evs} : h.homeRun evs = some h' → Relation.ReflTransGen Step h h' :=
  reaches_of_run (fun _ => rfl) fun {_ e _ _} hn => by
    obtain ⟨hhome, hn⟩ := ite_none_right_eq_some.mp hn
    obtain ⟨next, hs, hr⟩ := bind_eq_some_iff.mp hn
    exact ⟨next, ⟨e, hs, hhome⟩, hr⟩

/-- In every run in which no request comes back to a slot it left, with its ownership of the slot still
recorded, each row of a forward finds its slot's history row up to date. -/
theorem forward_rows_fresh (hrun : Relation.ReflTransGen Step {} h) (hemits : h.EmitsBatch batch)
    (hhome : ∀ run ∈ batch, h.Home run) (hseeded : h.seeded batch = some h') : ∀ run ∈ batch, h'.Fresh run :=
  fun run hm => ((valid_of_steps hrun).seeded_fresh hemits hhome hseeded run hm).1

def decodeRow (slot : Nat) (kept : List Token) : RowRun := { toBatchRow := ⟨1, slot, 1, 2, .decode⟩, kept := kept }

/-- Request 1 runs its prompt and a decode in slot 1, is retracted and decodes in slot 2. -/
def moved : List Event :=
  [.register 1 [1, 2], .forward [{ toBatchRow := ⟨1, 1, 2, 2, .extend 0 0⟩, kept := [7] }], .commit 1 1,
   .forward [decodeRow 1 [8]], .commit 1 1]

theorem moved_fresh : ∃ h h', Relation.ReflTransGen Step {} h ∧ h.seeded [decodeRow 2 [9]] = some h' ∧
    h'.rows 2 = [1, 2, 7] ∧ ∀ run ∈ [decodeRow 2 [9]], h'.Fresh run := by
  have hv : ((homeRun {} moved).any fun h => decide (h.EmitsBatch [decodeRow 2 [9]]) &&
      decide (∀ run ∈ [decodeRow 2 [9]], h.Home run) &&
      (h.seeded [decodeRow 2 [9]]).any fun h' => decide (h'.rows 2 = [1, 2, 7])) = true := by decide
  obtain ⟨h, hr, hv⟩ := (any_eq_true ..).mp hv
  simp only [Bool.and_eq_true, decide_eq_true_eq] at hv
  obtain ⟨⟨hem, hho⟩, hv⟩ := hv
  obtain ⟨h', hs, hrows⟩ := (any_eq_true ..).mp hv
  have hst := steps_of_homeRun hr
  exact ⟨h, h', hst, hs, of_decide_eq_true hrows, forward_rows_fresh hst hem hho hs⟩

/-- The rows of a batch a run of the scheduler plans are of requests apart, in slots apart. -/
theorem planned_rows_apart {s s' : Scheduler} {plan} (hs : Scheduler.Reachable s) (hrole : s.config.role ≠ .d)
    (hplan : s.nextExecutionPlan = .ok (plan, s'))
    (hrows : batch.map (·.toBatchRow) = plan.forward.map BatchRow.ofOperation) :
    (batch.map (·.requestId)).Nodup ∧ (batch.map (·.requestPoolIndex)).Nodup := by
  have hread {α : Type} (f : BatchRow → α) (g : ForwardOperation → α) (hfg : ∀ op, f (.ofOperation op) = g op) :
      batch.map (fun run => f run.toBatchRow) = plan.forward.map g := by
    have := congrArg (List.map f) hrows
    rw [List.map_map, List.map_map] at this
    exact this.trans (List.map_congr_left fun op _ => hfg op)
  have hids := hread BatchRow.requestId (·.row.requestId) fun op => by cases op <;> rfl
  have hslots := hread BatchRow.requestPoolIndex ((·.getD 0) ∘ (·.row.requestPoolIndex)) fun op => by cases op <;> rfl
  rw [← List.map_map] at hslots
  obtain ⟨hnodup, hn, hsome⟩ := Scheduler.nextExecutionPlan_rows hs hrole hplan
  refine ⟨hids ▸ hnodup, hslots ▸ hn.map_on fun x hx y hy heq => ?_⟩
  cases x with
  | none => exact absurd hx hsome
  | some x =>
    cases y with
    | none => exact absurd hy hsome
    | some y => exact congrArg some heq

/-- A fused engine of two slots that forces a retraction every third round. -/
def twoSlots : EngineConfig where
  prefixGranularity := 4
  cacheGroups :=
    [{ groupId := "kv", attnKind := .full, blockGranularity := 4, cacheBlocksPerLcmBlock := 1, shardCount := 1 }]
  maxBatchSize := 2
  decodeInputTokens := 1
  maxScheduledTokens := 8
  role := .fused
  disablePrefixCache := true
  deviceTotalPages := 8
  snapshotTotalPages := 8
  maxRetractedRequests := 2
  debugForceRetractionInterval := 3

/-- Its only request is retracted twice; the allocator hands out slot 1, slot 2 and slot 1 again. -/
def bounced : List Scheduler.Call :=
  [.submit [⟨1, [1, 2], 0, 100⟩], .plan, .advance [.extendResult 1 [7] []], .plan, .advance [.extendResult 1 [8] []],
   .plan, .advance [.snapshotDone 0], .plan, .advance [.restoreDone 1], .plan, .advance [.extendResult 1 [9] []],
   .plan, .advance [.snapshotDone 2], .plan, .advance [.restoreDone 3], .plan]

def batches (plans : List ExecutionPlan) : List (List BatchRow) :=
  (plans.map fun plan => plan.forward.map BatchRow.ofOperation).filter (!·.isEmpty)

def dispatched (events : List Event) : List (List BatchRow) :=
  (events.map fun e => e.batch.map (·.toBatchRow)).filter (!·.isEmpty)

/-- The run of the rows these calls plan, up to the last one. -/
def movedOn : List Event := moved ++ [.forward [decodeRow 2 [9]], .commit 1 1]

/-- The scheduler emits the batches of a run whose last row finds slot 1 as the request left it, a token short. -/
theorem bounced_stale : ∃ plans s h h', Scheduler.runFrom twoSlots id bounced = .ok (plans, s) ∧
    batches plans = dispatched (movedOn ++ [.forward [decodeRow 1 []]]) ∧ run {} movedOn = some h ∧
    h.EmitsBatch [decodeRow 1 []] ∧ h.seeded [decodeRow 1 []] = some h' ∧ ¬ h'.Fresh (decodeRow 1 []) := by
  have hp : (do
      let out ← Scheduler.runFrom twoSlots id bounced
      pure (batches out.1) : Result _) = .ok (dispatched (movedOn ++ [.forward [decodeRow 1 []]])) := by decide +kernel
  obtain ⟨⟨plans, s⟩, hc, hbatches⟩ := bind_ok.mp hp
  have hv : ((run {} movedOn).any fun h => decide (h.EmitsBatch [decodeRow 1 []]) &&
      (h.seeded [decodeRow 1 []]).any fun h' => (h'.states 1).any fun state =>
        decide ((h'.rows 1).take ((decodeRow 1 []).boundary (h'.committed state.admission).length) ≠
          (h'.committed state.admission).take
            ((decodeRow 1 []).boundary (h'.committed state.admission).length))) = true := by
    decide
  obtain ⟨h, hru, hv⟩ := (any_eq_true ..).mp hv
  rw [Bool.and_eq_true] at hv
  obtain ⟨h', hs, hr⟩ := (any_eq_true ..).mp hv.2
  obtain ⟨state, hst, hr⟩ := (any_eq_true ..).mp hr
  exact ⟨plans, s, h, h', hc, Except.ok.inj hbatches, hru, of_decide_eq_true hv.1, hs,
    fun hf => of_decide_eq_true hr (hf state hst)⟩

end Histories

/-! ## Submission -/

namespace IntakeRun

/-- In every orderly run no batch the intake hands over makes `SubmitRequests` throw. -/
theorem intake_never_throws {config : EngineConfig} {sha256 : List Nat → List Nat} {s : Scheduler}
    (hmade : Scheduler.make config sha256 = .ok s) {limits : IngressLimits} (hwithin : limits.Within s) {h : IntakeRun}
    (hrun : Relation.ReflTransGen Step ⟨{ limits := limits }, s⟩ h) {event : Intake.Event}
    (horderly : h.Orderly (.intake event)) : ∃ h', h.step (.intake event) = .ok h' := by
  have hn := (Scheduler.make_initial config sha256 s hmade).reached.idsNodup
  obtain ⟨h', hs, -⟩ := (sound_of_steps hn hwithin hrun).intake horderly
  exact ⟨h', hs⟩

def smallLimits : IngressLimits where
  vocabSize := 100
  maxModelLen := 16
  maxReqInputLen := 12

/-- An engine whose cache holds 20 tokens for one request. -/
theorem smallLimits_within : ∃ s, Scheduler.make Scheduler.oddBudget id = .ok s ∧ s.requests = [] ∧
    smallLimits.Within s := by
  have hv : (do
      let s ← Scheduler.make Scheduler.oddBudget id
      pure (decide (s.requests = [] ∧ 16 ≤ s.maxSingleRequestTokens ∧ 12 ≤ s.maxSingleRequestTokens ∧
        12 + s.config.decodeInputTokens ≤ s.maxSingleRequestTokens ∧ s.maxSingleRequestTokens ≤ (int32Max : Int))) :
          Result Bool) = .ok true := by decide +kernel
  obtain ⟨s, hs, hv⟩ := bind_ok.mp hv
  obtain ⟨hn, hl, hi, hd, hm⟩ := of_decide_eq_true (Except.ok.inj hv)
  exact ⟨s, hs, hn, hl, hi, hd, hm⟩

/-- Request 1 is sent. -/
def addOne (inputIds : List Token) : Intake.Event :=
  .admitMessages [(.add { rid := some 1, inputIds := some inputIds }, {})] {}

theorem addOne_submitted : ∃ s h', Scheduler.make Scheduler.oddBudget id = .ok s ∧
    step ⟨{ limits := smallLimits }, s⟩ (.intake (addOne [5, 6])) = .ok h' := by
  obtain ⟨s, hs, hn, hw⟩ := smallLimits_within
  have ho : Orderly ⟨{ limits := smallLimits }, s⟩ (.intake (addOne [5, 6])) := by
    simp [Orderly, addOne, requestsSent, Intake.waiting, Scheduler.findRequest, hn]
  obtain ⟨h', hs'⟩ := intake_never_throws hs hw .refl ho
  exact ⟨s, h', hs, hs'⟩

/-- An empty prompt is admitted, and the scheduler throws. -/
theorem addOne_empty_throws : ∃ s, Scheduler.make Scheduler.oddBudget id = .ok s ∧ smallLimits.Within s ∧
    step ⟨{ limits := smallLimits }, s⟩ (.intake (addOne [])) =
      .error (.assertion "Scheduler: request tokens must be non-empty") := by
  obtain ⟨s, hs, -, hw⟩ := smallLimits_within
  have hb : (Intake.step { limits := smallLimits } (addOne [])).1 = [[⟨1, [], 14, int32Max⟩]] := by decide +kernel
  refine ⟨s, hs, hw, ?_⟩
  simp only [step, hb]
  rfl

end IntakeRun

/-! ## Members of a replica -/

namespace Replica

variable {n : Nat} {r r' : Replica n}

theorem steps_of_run {phs} {r : Replica n} : r.run phs = some r' → Relation.ReflTransGen Step r r' :=
  reaches_of_run (fun _ => rfl) fun {_ ph _ _} hn => by
    obtain ⟨ht, hn⟩ := ite_none_right_eq_some.mp hn
    obtain ⟨r1, hs, hr⟩ := bind_eq_some_iff.mp hn
    exact ⟨r1, ⟨ph, ht, hs⟩, hr⟩

/-- Members started alike have, after every run whose pending aborts run out on all members or on none, made the
same calls of their schedulers in the same order and hold the same states, the ended ones among them. -/
theorem members_call_alike {start : Member} (hrun : Relation.ReflTransGen Step (fun _ : Fin (n + 2) => start) r)
    (i j : Fin (n + 2)) : (r i).calls = (r j).calls ∧ (r i).outputs.states = (r j).outputs.states := by
  have hal := mirrored_of_steps hrun j i
  exact ⟨hal.calls, hal.outputs.states⟩

def emptyMember : Member :=
  { outputs := {}, intake := { limits := { maxModelLen := 100, maxReqInputLen := 50, vocabSize := 100 } } }

/-- Request 1, as it is admitted. -/
def firstAdmission : Admission where
  rid := 1
  spec := { requestId := 1, tokens := [5] }
  state := { promptIds := [5], maxNewTokens := 4 }
  samplingParams := {}
  bootstrap := none
  embeddings := []
  grammar := none

/-- The abort of request 1 comes at time 0 on the first member and at time 1 on the second, the request itself
in a later round, and its prompt is computed. -/
def abortFirst (later : Nat) : List (Phase 0) :=
  [.abort 1 false 0 false (fun i => i.val), .sweep fun _ => later, .register {} [firstAdmission],
   .commit [{ requestId := 1, requestPoolIndex := 0, inputLength := 1, prefillLength := 1, kind := .extend 0 0 }]
     { outputTokens := [7], outputLengths := [1] },
   .advance]

theorem abortFirst_soon : ∃ r : Replica 0, Relation.ReflTransGen Step (fun _ : Fin 2 => emptyMember) r ∧
    (r 0).calls ≠ [] ∧ (r 0).calls = (r 1).calls ∧ (r 0).outputs.states = (r 1).outputs.states := by
  obtain ⟨r, hr, hc⟩ : ∃ r, run (fun _ => emptyMember) (abortFirst 299) = some r ∧ (r 0).calls ≠ [] :=
    exists_of_any (by decide)
  have hs := steps_of_run hr
  exact ⟨r, hs, hc, members_call_alike hs 0 1⟩

/-- A round between the two deadlines: the first member has dropped the abort, the second still holds it, and
only the second tells its scheduler that the request ended. -/
theorem abortFirst_late : ∃ r : Replica 0, steps (fun _ : Fin 2 => emptyMember) (abortFirst 300) = some r ∧
    (r 0).calls ≠ (r 1).calls := by
  exact exists_of_any (by decide)

end Replica

/-! ## Acknowledgments of cache operations -/

namespace CacheRun

variable {n : Nat} {h : CacheRun n}

/-- While nothing is open nothing is left to poll. -/
theorem Kept.polled_nil (hk : h.Kept) {polled : Fin (n + 1) → List CacheEvent} (hn : h.Once (.round polled))
    (hz : ∀ i, (h.members i).opened = 0) (i) : polled i = [] := by
  have ht : (h.returned 0).length ≤ (h.polled i).length :=
    (List.subperm_of_subset hk.returned fun e he => (hk.agreed e).mp he i).length_le
  have hr := hk.room hn i
  have hp := hk.opened i
  have hf := hk.inFlight i
  have hop := hz i
  exact List.length_eq_zero_iff.mp (by omega)

/-- After every run of a replica of any size: a round goes through on every member, returns on each of them
what by then every member has polled and no round returned before, and takes no more off `open` than it holds;
an operation is returned once, as soon as all have polled it; `open` is what was dispatched and not returned. -/
theorem acknowledgments_agree (hrun : Relation.ReflTransGen Step ({} : CacheRun n) h) :
    (∀ polled, h.Once (.round polled) → ∃ ready h', h.step (.round polled) = some (fun _ => ready, h') ∧
      (∀ i, h'.polled i = h.polled i ++ polled i) ∧ (∀ i, h'.returned i = h.returned i ++ ready) ∧ ready.Nodup ∧
      (∀ e i, e ∈ ready ↔ (∀ j, e ∈ h'.polled j) ∧ e ∉ h.returned i) ∧ ∀ i, ready.length ≤ (h.members i).opened) ∧
    (∀ i j, h.returned i = h.returned j) ∧ ∀ i,
      (h.returned i).Nodup ∧ (∀ e, e ∈ h.returned i ↔ ∀ j, e ∈ h.polled j) ∧
      (h.members i).opened + (h.returned i).length = h.dispatched.length ∧
      ((h.members i).opened = 0 ↔ ∀ e ∈ h.dispatched, e ∈ h.returned i) := by
  have hk := kept_of_steps hrun
  have hsu : h.returned 0 ⊆ h.dispatched := fun e he => (hk.polled 0).2 ((hk.agreed e).mp he 0)
  refine ⟨fun polled hon => ?_, fun i j => (hk.same i).trans (hk.same j).symm, fun i => ?_⟩
  · simp only [hk.same]
    rcases hk.round hon with ⟨hz, hs⟩ | ⟨held, hh, hs⟩
    · refine ⟨[], h, hs, fun i => by
        simp [hk.polled_nil hon hz i], by simp [hk.same], List.nodup_nil, fun e _ => ?_, by simp⟩
      simp [hk.agreed e]
    · obtain ⟨hn, hop⟩ := hk.ready hon hh
      rw [acknowledged_eq] at hs
      exact ⟨_, _, hs, fun _ => rfl, fun i => congrArg (· ++ _) (hk.same i), (List.nodup_append.mp hn).2.1,
        fun e _ => hk.mem_ready hon hh e, hop⟩
  · rw [hk.same i]
    refine ⟨hk.returned, hk.agreed, hk.opened i, ?_⟩
    have hod := hk.opened i
    constructor
    · intro hz
      have hp := (List.subperm_of_subset hk.returned hsu).perm_of_length_le (by omega)
      exact fun e he => hp.mem_iff.mpr he
    · intro hal
      have hle := (List.subperm_of_subset hk.dispatched hal).length_le
      omega

/-- Two write-backs are dispatched, and each member polls another one first. -/
def crossed (first second : CacheEvent) : CacheRoundEvent 1 := .round fun i => if i = 0 then [first] else [second]

theorem crossed_returned : ∃ h ready h', Relation.ReflTransGen Step ({} : CacheRun 1) h ∧ h.returned 0 = [] ∧
    h.step (crossed ⟨9, .writeBackDone⟩ ⟨7, .writeBackDone⟩) = some (fun _ => ready, h') ∧
    ⟨7, .writeBackDone⟩ ∈ ready ∧ ⟨9, .writeBackDone⟩ ∈ ready := by
  have hv : (step ({} : CacheRun 1) (.dispatch [⟨7, .writeBackDone⟩, ⟨9, .writeBackDone⟩])).any (fun x =>
      decide (x.2.Once (crossed ⟨7, .writeBackDone⟩ ⟨9, .writeBackDone⟩)) &&
        (x.2.step (crossed ⟨7, .writeBackDone⟩ ⟨9, .writeBackDone⟩)).any fun y =>
          decide (y.2.Once (crossed ⟨9, .writeBackDone⟩ ⟨7, .writeBackDone⟩) ∧ y.2.returned 0 = [] ∧
            y.2.polled 0 = [⟨7, .writeBackDone⟩] ∧ y.2.polled 1 = [⟨9, .writeBackDone⟩])) = true := by decide +kernel
  obtain ⟨⟨_, h₁⟩, hd, hv⟩ := (any_eq_true ..).mp hv
  obtain ⟨ho, hv⟩ := (Bool.and_eq_true ..).mp hv
  obtain ⟨⟨_, h⟩, hs, hv⟩ := (any_eq_true ..).mp hv
  obtain ⟨ho', hr, hp, hp'⟩ := of_decide_eq_true hv
  dsimp only at hr hp hp'
  have hrun : Relation.ReflTransGen Step ({} : CacheRun 1) h :=
    .tail (.single ⟨_, _, by simp [Once], hd⟩) ⟨_, _, of_decide_eq_true ho, hs⟩
  obtain ⟨ready, h', hst, hpolled, -, -, hready, -⟩ := (acknowledgments_agree hrun).1 _ ho'
  refine ⟨h, ready, h', hrun, hr, hst, (hready _ 0).mpr ⟨fun i => ?_, by simp [hr]⟩,
    (hready _ 0).mpr ⟨fun i => ?_, by simp [hr]⟩⟩
  all_goals
    rw [hpolled]
    rcases Fin.exists_fin_two.mp ⟨i, rfl⟩ with rfl | rfl <;> simp [hp, hp']

end CacheRun

/-! ## Storage -/

namespace StorageReplica

/-- Owners that report each operation once give every member the same rounds; an operation is done in the round
of its last report, and in no other, and a member with an invalid poll fails them all. -/
theorem storage_agrees {n : Nat} {limits : StorageLimits} {keys : Nat → Nat} {rounds : List (StorageInput n)}
    (hregular : Regular limits keys rounds) :
    (∀ k input, rounds[k]? = some input → ∃ round, (∀ i, roundOf limits rounds k i = some (.ok round)) ∧
      Settles (rounds.take k) input keys round.done) ∧ (∀ opId, Complete rounds opId →
      ∃! k, ∃ round, roundOf limits rounds k 0 = some (.ok round) ∧ opId ∈ round.done.map (·.opId)) ∧
    ∀ input i, ((input : StorageInput n).polls i).invalid limits ≠ none →
      ∃ errors, ∀ j, roundOf limits (rounds ++ [input]) rounds.length j = some (.error (.polling errors)) := by
  refine ⟨fun k input hin => roundOf_settles hregular hin, fun opId => settled_once hregular, fun input i hid => ?_⟩
  obtain ⟨l3, haf, hholds⟩ := holds_run rounds hregular
  have hs : ((input.polls i).invalid (ready l3 input).limits).isSome := by
    rw [(hholds.ready input).limits]
    exact isSome_iff_ne_none.mpr hid
  obtain ⟨errors, hf⟩ := round_fails l3 hs
  refine ⟨errors, fun j => ?_⟩
  simp only [roundOf, List.take_left, haf, bind_some, List.getElem?_concat_length, map_some, hf]
  rfl

/-- Two owners report two operations of two keys out of order. -/
def twoOwners : List (StorageInput 1) :=
  let completion (opId : Nat) (success : List Bool) (retired : Bool) (failed : List Bool) : StoragePoll :=
    { completions := [⟨opId, success, retired, failed⟩] }
  [{ polls := fun i =>
      if i = 0 then completion 1 [true, true] true [false, false]
      else completion 2 [true, false] true [false, true] },
   { polls := fun i => if i = 0 then completion 2 [true, true] true [false, false] else {} },
   { polls := fun i => if i = 0 then {} else completion 1 [false, false] false [false, false] }]

theorem twoOwners_settled : ∃! k,
    ∃ round, roundOf ⟨8, 4⟩ twoOwners k 0 = some (.ok round) ∧ 1 ∈ round.done.map (·.opId) := by
  have hr : Regular ⟨8, 4⟩ (fun _ => 2) twoOwners := by
    refine ⟨by decide, by decide, by decide, fun k input hin => ?_⟩
    match k, hin with
    | 0, hin => cases hin; decide
    | 1, hin => cases hin; decide
    | 2, hin => cases hin; decide
    | k + 3, hin => simp [twoOwners] at hin
  exact (storage_agrees hr).2.1 1 (by decide)

end StorageReplica

/-! ## Expert placements -/

/-- If every rank executes its plan, every slot ends up with its new expert's weights; sends and receives match
expert for expert, and only slots that change are written. -/
theorem slot_moves_realise {α : Type} (weight : Int → α) {old new nodes : List Int} {numLocal : Nat}
    (hlength : new.length = old.length) (hexperts : ∀ e ∈ new, e ∈ old) :
    (0 < numLocal → old.length = nodes.length * numLocal →
      ∀ r < nodes.length, ∃ moves, planSlotMoves old new nodes numLocal r = .ok moves) ∧
    ∀ moves : Nat → SlotMoves, (∀ r < nodes.length, planSlotMoves old new nodes numLocal r = .ok (moves r)) →
      (∀ live : Nat → Nat → α, (∀ r < nodes.length, ∀ s < numLocal, live r s = weight (old.getD (r * numLocal + s) 0)) →
        ∀ staging, ∀ r < nodes.length, ∃ slots, moveWeights nodes.length moves live staging r = some slots ∧
          ∀ s < numLocal, slots s = weight (new.getD (r * numLocal + s) 0)) ∧
      (∀ a < nodes.length, ∀ b < nodes.length,
        ((moves a).send.filter (·.2 = b)).map (fun move => old.getD (a * numLocal + move.1) 0) =
          ((moves b).recv.filter (·.2 = a)).map fun move => new.getD (b * numLocal + move.1) 0) ∧
      ∀ r < nodes.length, ∀ s ∈ (moves r).written, old.getD (r * numLocal + s) 0 ≠ new.getD (r * numLocal + s) 0 := by
  refine ⟨fun hpo hsize r hr => ?_, fun moves hpl => ?_⟩
  · obtain ⟨_, _, hpn⟩ := planSlotMoves_ok ⟨hpo, hsize, hlength, hexperts⟩ hr
    exact ⟨_, hpn⟩
  · have hp : ∀ r < nodes.length, ∃ state, Planned old new nodes numLocal r numLocal state ∧
        moves r = movesOf old new nodes numLocal r state := fun r hr => by
      obtain ⟨state, hp, hpn⟩ := planSlotMoves_ok (layout_of_plan (hpl r hr) hexperts) hr
      exact ⟨state, hp, Except.ok.inj ((hpl r hr).symm.trans hpn)⟩
    refine ⟨fun live hl staging r hr => ?_, fun a ha b hb => ?_, fun r hr s hs => ?_⟩
    · obtain ⟨state, hst, hown⟩ := hp r hr
      exact moveWeights_ok (layout_of_plan (hpl r hr) hexperts) weight hl
        (fun r' hr' => (hp r' hr').imp fun _ h => h.2) hr hst hown staging
    · obtain ⟨sender, _, hse⟩ := hp a ha
      obtain ⟨receiver, hst, hre⟩ := hp b hb
      have hm := experts_match (layout_of_plan (hpl b hb) hexperts) (a := a) hb hst
      rw [hse, hre, movesOf, movesOf, List.filter_map, List.map_map, List.filter_map, List.map_map]
      refine Eq.trans (List.map_congr_left fun send hsn => ?_) (hm.trans (List.map_congr_left fun recv hrc => ?_))
      · exact (mem_planSends.mp ((List.mem_insertionSort ..).mp (List.mem_of_mem_filter hsn))).2.1
      · exact ((hst.recv _ _ _).mp ((List.mem_insertionSort ..).mp (List.mem_of_mem_filter hrc))).1.2.2.1.symm
    · obtain ⟨state, hst, hown⟩ := hp r hr
      rw [hown] at hs
      exact written_changes hst hs

/-- Two ranks of two slots swap an expert and copy it on. -/
theorem slot_moves_swap : ∃ moves : Nat →
    SlotMoves, (∀ r < 2, planSlotMoves [0, 1, 2, 2] [2, 2, 2, 0] [0, 0] 2 r = .ok (moves r)) ∧
    ∃ slots, moveWeights 2 moves (fun r s => [0, 1, 2, 2].getD (r * 2 + s) 0) (fun _ => (7 : Int)) 0 = some slots ∧
      ∀ s < 2, slots s = [2, 2, 2, 0].getD (0 * 2 + s) 0 := by
  obtain ⟨hexs, hmoves⟩ := @slot_moves_realise Int id [0, 1, 2, 2] [2, 2, 2, 0] [0, 0] 2 rfl (by decide)
  have hc : ∀ r : Nat, ∃ moves, r < 2 → planSlotMoves [0, 1, 2, 2] [2, 2, 2, 0] [0, 0] 2 r = .ok moves := fun r => by
    by_cases hr : r < 2
    · exact (hexs (by decide) rfl r hr).imp fun _ h _ => h
    · exact ⟨{}, fun hlt => absurd hlt hr⟩
  obtain ⟨moves, hp⟩ := Classical.axiomOfChoice hc
  exact ⟨moves, hp, (hmoves moves hp).1 _ (fun _ _ _ _ => rfl) _ 0 (by decide)⟩

section Replicas

open List

/-- The counts of `replicate_experts` over exact loads: they give every slot, each expert has one, and no other way to
give the slots has a lower highest load per replica. Without experts a slot has nobody to go to. -/
theorem replicateExperts_optimal {weight : List (List ℚ)} {n numPhy : Nat}
    (hr : ∀ row ∈ weight, row.length = n ∧ ∀ w ∈ row, 0 ≤ w) (hslots : n ≤ numPhy) (hs : n = 0 → numPhy = 0) :
    ∃ out, replicateExperts weight numPhy = .ok out ∧ Forall₂ (fun row replicas => Counts n numPhy replicas.count ∧
      ∀ other, Counts n numPhy other → (perReplica row replicas.count).maximum ≤ (perReplica row other).maximum) weight
        out := by
  have hw : width weight ≤ numPhy := by
    cases weight with
    | nil => exact Nat.zero_le _
    | cons row rows => exact (hr row mem_cons_self).1.trans_le hslots
  refine Returns.exists (Returns.assert (decide_eq_true hw) (Returns.mapM weight fun row hm => ?_))
  obtain ⟨hle, hl⟩ := hr row hm
  rw [width_eq (fun row h => (hr row h).1) (ne_nil_of_mem hm)]
  subst hle
  refine (giveSlots_levelled hl (numPhy - row.length) (by omega) (counts_replicate _) (levelled_replicate row)).mono ?_
  rintro replicas ⟨hc, hlevel⟩
  rw [Nat.add_sub_cancel' hslots] at hc
  exact ⟨hc, fun other hot => hlevel.maximum_le hl hc hot⟩

/-- Six slots for the loads 90, 132 and 40. -/
theorem replicateExperts_optimal_six : ∃ out, replicateExperts [[(90 : ℚ), 132, 40]] 6 = .ok out ∧
    ∃ replicas ∈ out, Counts 3 6 replicas.count ∧
      (perReplica [(90 : ℚ), 132, 40] replicas.count).maximum ≤ (perReplica [90, 132, 40] [2, 3, 1]).maximum := by
  obtain ⟨out, hou, hbest⟩ := @replicateExperts_optimal [[90, 132, 40]] 3 6 (by decide) (by decide) (by decide)
  obtain _ | ⟨⟨hc, hleast⟩, -⟩ := hbest
  exact ⟨_, hou, _, mem_cons_self, hc, hleast _ ⟨rfl, rfl, by decide⟩⟩

/-- A placement that is returned: each packing pairs the items with the places of its packs, and in each layer an expert
has the copies `replicate_experts` counted, on the node its group is packed on. -/
theorem rebalanceExpertsHierarchical_placed
    {α : Type} [Zero α] [Add α] [Div α] [NatCast α] [LT α] [DecidableLT α] [Ord α]
    {weight : List (List α)} {numPhysical numGroups numNodes numGpus : Nat} {out : List (List Nat)}
    (hrows : ∀ row ∈ weight, row.length = width weight)
    (h : rebalanceExpertsHierarchical weight numPhysical numGroups numNodes numGpus = .ok out) :
    ∃ sums groups replicas gpus,
      let groupSize := width weight / numGroups
      let mlog := log2mlog groupSize (numGroups / numNodes)
      let logPerNode := width weight / numNodes
      let tokens := tokensPerMlog weight (groups.map fun layer => inverse (width weight) (mlog layer)) numNodes
        logPerNode
      weight.mapM (chunkSums groupSize) = .ok sums ∧ balancedPacking sums numNodes = .ok groups ∧
        replicateExperts tokens (numPhysical / numNodes) = .ok replicas ∧
        balancedPacking (tokensPerPhy tokens replicas) (numGpus / numNodes) = .ok gpus ∧
        (∀ p ∈ groups, Packs numGroups numNodes (numGroups / numNodes) p) ∧
        (∀ p ∈ gpus, Packs (numPhysical / numNodes) (numGpus / numNodes) (numPhysical / numGpus) p) ∧
        out.length = weight.length ∧ ∀ l < weight.length,
          let layer := groups.getD l {}
          Placed (width weight) numPhysical numGroups numNodes layer.packIndex (fun e =>
            (replicas.getD (l * numNodes + layer.packIndex (e / groupSize)) ⟨[], [], []⟩).count.getD
            (mlog layer e % logPerNode) 0) (out.getD l []) := by
  simp only [rebalanceExpertsHierarchical, bind_ok] at h
  obtain ⟨⟨⟩, hg, ⟨⟩, hn, ⟨⟩, hu, ⟨⟩, hp, sums, hs, groups, hgs, replicas, hrs, gpus, hus, ho⟩ := h
  simp only [assert_ok, Bool.and_eq_true, decide_eq_true_iff] at hg hn hu hp
  cases ho
  refine ⟨sums, groups, replicas, gpus, hs, hgs, hrs, hus, ?_⟩
  obtain ⟨G, rfl⟩ := Nat.dvd_of_mod_eq_zero hn.2
  obtain ⟨S, hw⟩ := Nat.dvd_of_mod_eq_zero hg.2
  obtain ⟨U, rfl⟩ := Nat.dvd_of_mod_eq_zero hu.2
  obtain ⟨P, rfl⟩ := Nat.dvd_of_mod_eq_zero hp
  have hn := Nat.pos_of_ne_zero hn.1
  have hu := Nat.pos_of_ne_zero hu.1
  have hd : width weight / (numNodes * G) = S := hw ▸ Nat.mul_div_cancel_left _ (Nat.pos_of_ne_zero hg.1)
  have hl : width weight / numNodes = G * S := by rw [hw, mul_assoc, Nat.mul_div_cancel_left _ hn]
  have hq := Nat.mul_div_cancel_left P hu
  rw [mul_assoc] at hq
  simp only [hd, hl, hq, mul_assoc numNodes U, Nat.mul_div_cancel_left _ hn] at hs hgs hrs hus ⊢
  obtain ⟨hls, hs⟩ := (Ensures.mapM weight fun row hr => chunkSums_length.mono fun sum (hs : _ ∧ _) =>
    (⟨hs.1, by rw [hs.2, hrows row hr, hw, Nat.add_sub_assoc hs.1, tile_div (Nat.sub_lt hs.1 Nat.one_pos)]⟩ :
      0 < S ∧ sum.length = numNodes * G)).of_ok hs
  obtain ⟨hlg, hgs⟩ := (balancedPacking_packs fun sum h => (hs sum h).2).of_ok hgs
  have hlm : (groups.map fun layer => inverse (width weight) (log2mlog S G layer)).length = weight.length := by
    rw [length_map, hlg, hls]
  obtain ⟨hlt, ht⟩ := tokensPerMlog_rows numNodes (G * S) hlm
  obtain ⟨hlr, hrs⟩ := (replicateExperts_replicated ht).of_ok hrs
  obtain ⟨hlp, hp⟩ := tokensPerPhy_rows hlr hrs
  obtain ⟨hlu, hus⟩ := (balancedPacking_packs hp).of_ok hus
  rw [Nat.mul_div_cancel_left _ hn] at hgs
  rw [Nat.mul_div_cancel_left _ (Nat.pos_of_mul_pos_left hu)] at hus
  rw [length_map] at hlm
  refine ⟨hgs, hus, by simp [hlm], fun l hl => ?_⟩
  have hk : ∀ k < numNodes, l * numNodes + k < weight.length * numNodes := fun k hk => tile_lt hl hk
  have h : Steps numNodes G S U P (groups.getD l {}) (fun k => replicas.getD (l * numNodes + k) ⟨[], [], []⟩)
      (fun k => gpus.getD (l * numNodes + k) {}) _ :=
    ⟨fun _ => rfl, hgs _ (getD_mem (hlm.symm ▸ hl)), fun k h => hrs _ (getD_mem (by rw [hlr, hlt]; exact hk k h)),
      fun k h => hus _ (getD_mem (by rw [hlu, hlp, hlt]; exact hk k h))⟩
  have hs := (hs _ (getD_mem (d := []) (hls.symm ▸ hl))).1
  simpa [hw, hlm, hl] using h.placed (mul_pos (Nat.pos_of_ne_zero hg.1) hs)

/-- Four experts in two groups on six slots of two nodes. -/
theorem rebalanceExpertsHierarchical_placed_two : ∃ node copies : Nat →
    Nat, Placed 4 6 2 2 node copies [0, 1, 1, 2, 3, 3] := by
  have h : rebalanceExpertsHierarchical [[90, 132, 40, 61]] 6 2 2 2 = .ok [[0, 1, 1, 2, 3, 3]] := by decide +kernel
  obtain ⟨_, _, _, _, -, -, -, -, -, -, -, hp⟩ := rebalanceExpertsHierarchical_placed (by decide) h
  exact ⟨_, _, hp 0 Nat.one_pos⟩

end Replicas

/-! ## Grammars -/

namespace GrammarRun

theorem reach_of_steps {σ : Type} {A : Automaton σ} {h' : GrammarRun σ} {evs} {h : GrammarRun σ} :
    steps A h evs = some h' → Relation.ReflTransGen (Step A) h h' :=
  reaches_of_run (fun _ => rfl) fun {_ e _ _} hn => by
    obtain ⟨h1, hs, hr⟩ := bind_eq_some_iff.mp hn
    exact ⟨h1, ⟨e, hs⟩, hr⟩

/-- Whoever advances a batch, the advances follow the forwards; masks are filled with the forwards before advanced, and
no other; and a handle that is used is held. -/
theorem advances_follow_forwards {σ : Type} {A : Automaton σ} {initial : Nat → σ} {capacity : Nat} {h : GrammarRun σ}
    (hrun : Relation.ReflTransGen (Step A) { capacity := capacity, matchers := initial } h) :
    h.Follows A initial ∧
      (h.node = .fill → (2 ≤ h.started → h.status (h.started - 2) = .done) ∧ ∀ e ∈ h.log, e.forward + 2 ≤ h.started) ∧
      ∀ event h', h.step A event = some h' → ∀ handle ∈ h.used event, 0 < h.holds handle := by
  have hin := Inv.run capacity hrun
  refine ⟨hin.follows, fun hn => ⟨hin.filled hn, fun e he => ?_⟩, fun event h' hs handle hu => hin.used hs hu⟩
  have hlt := hin.log.forward_lt he
  have hb := hin.frontier.busy (by rw [hn]; decide)
  omega

/-- A grammar of the tokens 0, 1 and 2. -/
def threeTokens : Automaton Nat where
  accept s token := if token = s then some (s + 1) else none
  terminated s := s = 3

/-- A prompt and a decode: the node advances the first, the resolver the second. -/
def twoForwards : List GrammarEvent :=
  [.register 0, .add ⟨[⟨some 0, true⟩], 1, 1, 0, 1⟩, .start, .fill, .sample ⟨[0], [1]⟩,
    .add ⟨[⟨some 0, true⟩], 0, 0, 1, 3⟩,
   .start, .claim .node, .row .node, .finish .node, .fill, .sample ⟨[1, 2, 7], [3]⟩, .release 0, .resolve, .settled,
   .resolve, .timeout, .claim .resolver, .row .resolver, .finish .resolver]

theorem twoForwards_followed : ∃ h,
    Relation.ReflTransGen (Step threeTokens) { capacity := 4, matchers := fun _ => 0 } h ∧
    h.resolved = 2 ∧ h.matchers 0 = 3 ∧ h.terminatedAt 1 = [1] ∧ h.Follows threeTokens fun _ => 0 := by
  obtain ⟨h, hs, hr, hmatcher, hen⟩ : ∃ h,
    steps threeTokens { capacity := 4, matchers := fun _ => 0 } twoForwards = some h ∧
      h.resolved = 2 ∧ h.matchers 0 = 3 ∧ h.terminatedAt 1 = [1] := exists_of_any (by decide)
  exact ⟨h, reach_of_steps hs, hr, hmatcher, hen, (advances_follow_forwards (reach_of_steps hs)).1⟩

end GrammarRun

/-! ## Prompt logprobs -/

namespace LogprobRun

/-- Whatever the chunks, no event of an orderly run raises an error: the chunk that completes a prompt leaves its
logprobs final, and they are the scores of its positions in order, the first of them without one. -/
theorem prompt_logprobs_complete {α : Type} {scores : Nat → Nat → PositionScore α} {h : LogprobRun α}
    (reached : Relation.ReflTransGen Step { scores } h) :
    (∀ event result, h.Orderly event → h.step event = some result → ∃ h', result = .ok h') ∧
    (∀ forward rest h', h.inFlight = forward :: rest → h.step .commit = some (.ok h') →
      ∀ row ∈ forward.rows, ∀ state, h'.states row.requestId = some state → state.completedBy row →
        state.returnsInputLogprobs → state.inputLogprobs.isSome) ∧
    ∀ rid state logprobs, h.states rid = some state → state.inputLogprobs = some logprobs →
      logprobs.values = none :: (List.range (state.promptIds.length - 1 - state.logprobStartLen)).map
        (fun k => some (h.scores rid (state.logprobStartLen + k)).value) ∧
      logprobs.ids = state.promptIds.drop state.logprobStartLen := by
  have sound := sound_of_reachable reached
  refine ⟨fun event result orderly taken => ?_, fun forward rest h' queued taken => ?_,
    fun rid state logprobs held final => ?_⟩
  · obtain ⟨h', eq, -⟩ := sound.step orderly taken
    exact ⟨h', eq⟩
  · obtain ⟨after, eq, -, complete⟩ := sound.commit queued
    cases taken.symm.trans eq
    exact complete
  · obtain ⟨rfl, -⟩ := (sound.kept rid state held).final logprobs final
    exact ⟨rfl, rfl⟩

/-- Five tokens scored from the second on, in two chunks planned before the first commits: a hit of one token,
then two rows fed again beside another request's chunk and decode. -/
def twoChunks : List (Event Nat) :=
  let score (p : Nat) : PositionScore Nat := ⟨10 * p, ([p, p], [0, 0])⟩
  [.register 0 [5, 6, 7, 8, 9] { start := 1, topLogprobsNum := 1 } score, .register 1 [4, 4] {} score,
   .dispatch [⟨0, 0, 2, 5, .extend 1 0⟩],
   .dispatch [⟨1, 1, 2, 2, .extend 0 0⟩, ⟨0, 0, 4, 5, .extend 1 2⟩, ⟨2, 2, 1, 3, .decode⟩], .commit, .commit]

theorem twoChunks_complete : ∃ h, Relation.ReflTransGen Step { scores := fun _ p => ⟨p, [], []⟩ } h ∧
    ((h.states 0).bind PromptLogprobs.inputLogprobs).map InputLogprobs.values =
      some [none, some 10, some 20, some 30] ∧
    (∀ event result, h.Orderly event → h.step event = some result → ∃ h', result = .ok h') := by
  have view : (steps { scores := fun _ p => ⟨p, [], []⟩ } twoChunks).any (fun h =>
      decide (((h.states 0).bind PromptLogprobs.inputLogprobs).map InputLogprobs.values =
        some [none, some 10, some 20, some 30])) = true := by decide
  obtain ⟨h, taken, values⟩ := (any_eq_true ..).mp view
  exact ⟨h, reachable_of_steps taken, of_decide_eq_true values,
    (prompt_logprobs_complete (reachable_of_steps taken)).1⟩

/-- The id of a prompt whose chunk is in flight is registered again with a shorter one: the chunk's commit finds
its scores outside the new prompt. -/
theorem reregistered_falls_outside : ∃ h h' : LogprobRun Nat,
    Relation.ReflTransGen Step { scores := fun _ p => ⟨p, [], []⟩ } h ∧
    h.step (.register 0 [5, 6] { start := 0 } fun p => ⟨p, [], []⟩) = some (.ok h') ∧
    h'.step .commit = some (.error (.inputLogprobs 0 "prompt logprob rows [0, 4) fall outside [0, 1)")) := by
  have view : (steps { scores := fun _ p => ⟨p, [], []⟩ }
      [.register 0 [5, 6, 7, 8, 9] { start := 0 } fun p => ⟨p, [], []⟩, .dispatch [⟨0, 0, 5, 5, .extend 0 0⟩]]).any
        (fun h =>
        (h.step (.register 0 [5, 6] { start := 0 } fun p => ⟨p, [], []⟩)).any fun
          | .ok h' => (h'.step .commit).any fun
            | .ok _ => false
            | .error error =>
              decide (error = .inputLogprobs 0 "prompt logprob rows [0, 4) fall outside [0, 1)")
          | .error _ => false) = true := by decide
  obtain ⟨h, taken, view⟩ := (any_eq_true ..).mp view
  obtain ⟨registered, eq, view⟩ := (any_eq_true ..).mp view
  cases registered with
  | error => cases view
  | ok h' =>
    obtain ⟨committed, eq', view⟩ := (any_eq_true ..).mp view
    cases committed with
    | ok => cases view
    | error error => exact ⟨h, h', reachable_of_steps taken, eq, of_decide_eq_true view ▸ eq'⟩

end LogprobRun

/-! ## Query shards -/

namespace QueryShardPlan

/-- The plans of a forward whose total fits 64 bits cut its rows, any ascending list of them and the sampled
ones into one run per rank, in rank order, and name the table of a collective by its row count alone. -/
theorem query_shards_recompose {lengths : List Nat} (hpos : ∀ n ∈ lengths, 0 < n) {size : Nat} (hsize : 0 < size) :
    ((∀ r < size, ∃ p, fromForward lengths.sum lengths size r = .ok p) ↔ lengths.sum < 2 ^ 63) ∧
    ∀ plans : Nat → QueryShardPlan, (∀ r < size, fromForward lengths.sum lengths size r = .ok (plans r)) →
      (List.range size).flatMap (fun r => (plans r).localSlice.rows) = List.range lengths.sum ∧
      (∀ rows : List Nat, rows.Pairwise (· ≤ ·) → (∀ x ∈ rows, x < lengths.sum) →
        ∃ counts, (∀ r < size, (plans r).rowsPerRank rows = .ok counts) ∧
          (List.range size).flatMap (fun r => ((plans r).localRowsRun counts).of rows) = rows ∧
          ∀ r < size, ∀ x ∈ ((plans r).localRowsRun counts).of rows, x ∈ (plans r).localSlice.rows) ∧
      (∀ gatherIds : List Int, gatherIds.length = lengths.length →
        ∃ ids : Nat → List Int, (∀ r < size, (plans r).localSampledIds gatherIds = .ok (ids r)) ∧
          (List.range size).flatMap (fun r => (ids r).map (· + ((plans r).localStart : Int))) = gatherIds) ∧
      ∀ r < size,
        (plans r).rowsForCollective (some lengths.sum) = .ok (heldBy plans size (List.range lengths.sum)) ∧
        (plans r).rowsForCollective (some lengths.length) = .ok (heldBy plans size (sampledRows lengths)) ∧
        (lengths.sum = lengths.length → (plans r).rowCounts = (plans r).sampledRowsPerRank) := by
  refine ⟨⟨fun h => ?_, fun h r hr => (fromForward_spec hpos hr).1 h⟩, fun plans hplans => ?_⟩
  · obtain ⟨p, hp⟩ := h 0 hsize
    exact ((fromForward_spec hpos hsize).2 p hp).1
  have hp := fun r hr => ((fromForward_spec hpos hr).2 _ (hplans r hr)).2
  have hs := sampledRows_lt hpos
  have ho := fun hn => congrArg (shardTable (scatterCount lengths.sum size)) (sampledRows_of_ones hpos hn)
  -- From here on only the sizes of the shards matter.
  obtain ⟨hsum, hlen⟩ := And.intro (@scatterCount_sum lengths.sum _ hsize) (@scatterCount_length lengths.sum _ hsize)
  generalize scatterCount lengths.sum size = cs at *
  subst hlen
  rw [← hsum] at hs ho ⊢
  rw [shardTable_range] at ho
  refine ⟨rows_tile hp, fun rows hsorted hr => ⟨_, fun r hlt => ?_, runs_flatMap hp hr rfl, fun r hlt x hx => ?_⟩,
    fun gatherIds hg => sampledIds_recompose hp hs (by simpa using hg),
      fun r hr => ⟨rows_for_total hp hr, ?_, fun hn => ?_⟩⟩
  · rw [rowsPerRank, (hp r hlt).rowCounts]
    exact splitSortedRows_ok hsorted hr
  · exact (hp r hlt).mem_run hsorted hx
  · simpa using rows_for_sampled hp hr hs fun hn => (ho (by simpa using hn)).symm
  · rw [(hp r hr).rowCounts, (hp r hr).sampled, ho hn]

/-- Two requests of two rows and one, over two ranks. -/
def twoShards (rank : Nat) : QueryShardPlan := ⟨2, rank % 2, [2, 1], [1, 1], Nat.mod_lt _ (by decide), rfl, rfl⟩

theorem twoShards_recompose : (∀ r < 2, fromForward 3 [2, 1] 2 r = .ok (twoShards r)) ∧
    (twoShards 0).rowsForCollective (some 2) = .ok (heldBy twoShards 2 [1, 2]) := by
  have h : ∀ r < 2, fromForward 3 [2, 1] 2 r = .ok (twoShards r) := by
    intro r hr
    obtain rfl | rfl : r = 0 ∨ r = 1 := by omega
    all_goals rfl
  exact ⟨h, (((@query_shards_recompose [2, 1] (by decide) 2 (by decide)).2 twoShards h).2.2.2 0 (by decide)).2.1⟩

end QueryShardPlan

/-! ## Process groups -/

namespace Mapping

/-- All ranks of a world agree on every group. -/
theorem groups_agree (m : Mapping) :
    (∀ d r, r < m.worldSize → r ∈ m.group d r ∧ (m.group d r).Nodup ∧ ∀ q ∈ m.group d r, q < m.worldSize ∧
      m.group d q = m.group d r ∧ (m.group d r)[m.rankIn d q]? = some q ∧
      (d ≠ .pp → q / m.stageWorldSize = r / m.stageWorldSize) ∧
      (d ∈ [.kvp, .qcp, .tp .vision, .dp .vision] → q ∈ m.group (.tp .attn) r)) ∧
    (∀ l, TellApart (m.span l) fun r => (m.rankIn (.tp l) r, m.rankIn (.dp l) r)) ∧
    TellApart m.stageWorldSize (fun r => (m.rankIn .moeTp r, m.rankIn .moeEp r, m.rankIn .moeDp r)) ∧
    TellApart m.attn.tpSize (fun r => (m.rankIn .kvp r, m.kvpReplicaRank r)) ∧
    (∀ stage, Set.BijOn m.scatterIndex {r | r / m.stageWorldSize = stage} {i | i < m.stageWorldSize}) ∧
    ∀ r < m.worldSize, (∀ q, m.ppNextRank r = some q → q ∈ m.group .pp r ∧ m.ppPrevRank q = some r) ∧
      ∀ q, m.ppPrevRank r = some q → q ∈ m.group .pp r ∧ m.ppNextRank q = some r := by
  refine ⟨fun d r hr => ⟨m.mem_group.mpr ⟨rfl, rfl⟩, makeParallelismGroup_nodup (m.made_pos d).2, fun q hq => ?_⟩,
    fun l => tellApart_of_mul (m.layer l).total, m.moe_tellApart,
      tellApart_of_mul (Nat.mul_div_cancel' m.attn.kvpSize.2),
    m.scatterIndex_bijOn, fun r hr => ⟨fun q hq => ?_, fun q hq => ?_⟩⟩
  · obtain ⟨hs, ht⟩ := m.made_pos d
    have hw := m.group_inside hq (m.block_dvd_world d)
    rw [Nat.div_eq_of_lt hr] at hw
    refine ⟨Nat.lt_of_div_eq_zero m.world_pos hw, makeParallelismGroup_congr hs ht hq,
      getElem?_makeParallelismGroup hs ht hq,
      fun hd => m.group_inside hq (m.block_dvd hd), fun hd => m.mem_group.mpr ⟨?_, ?_⟩⟩
    · have hb : m.block d ∣ m.attn.tpSize := by
        simp only [List.mem_cons, List.not_mem_nil, or_false] at hd
        rcases hd with rfl | rfl | rfl | rfl <;> exact dvd_rfl
      simpa [made, layer] using m.group_inside hq hb
    · simp [made, Nat.mod_one]
  · obtain ⟨rfl, hw⟩ := (ppNextRank_eq hr).mp hq
    exact ⟨(mem_ppGroup hr hw).mpr (Nat.add_mod_right ..), (ppPrevRank_eq hw).mpr rfl⟩
  · obtain rfl := (ppPrevRank_eq hr).mp hq
    have hw : q < m.worldSize := by omega
    exact ⟨(mem_ppGroup hr hw).mpr (Nat.add_mod_right ..).symm, (ppNextRank_eq hw).mpr ⟨rfl, hr⟩⟩

/-- A stage with two attention TP groups: the vision ranks repeat in it. -/
theorem vision_ranks_repeat : ∃ m, init { worldSize := 4, attnTpSize := some 2 } = .ok m ∧
    ¬ TellApart m.stageWorldSize fun r => (m.rankIn (.tp .vision) r, m.rankIn (.dp .vision) r) :=
  ⟨_, rfl, fun h => absurd (h 0 2 rfl rfl) (by decide)⟩

end Mapping

end TokenSpeed.Engine

import TokenSpeed.Scheduler.Lemmas.Requests
import TokenSpeed.Scheduler.Retraction

/-!
# What a granted step changes

Each admission of a plan build is taken apart once. A granted or refused step leaves the batch, the rows,
the blob slots and the transfers alone; only its own request, the coordinator and the page lists change.
Only a first chunk takes a row.
-/

namespace TokenSpeed

namespace Round

variable {r r' r₁ : Round} {req : Request}

/-! ## The rest of a build -/

structure SameBatch (r r' : Round) : Prop where
  operations : r'.operations = r.operations
  remoteDecode : r'.remoteDecode = r.remoteDecode
  remotePrefill : r'.remotePrefill = r.remotePrefill
  scheduled : r'.scheduled = r.scheduled
  tokenBudget : r'.tokenBudget = r.tokenBudget
  pendingPrefillReserve : r'.pendingPrefillReserve = r.pendingPrefillReserve
  pushedPrefill : r'.pushedPrefill = r.pushedPrefill
  pushedDecode : r'.pushedDecode = r.pushedDecode
  capacityBlocker : r'.capacityBlocker = r.capacityBlocker
  capacityBlocked : r'.capacityBlocked = r.capacityBlocked

theorem SameBatch.refl (r) : SameBatch r r := ⟨rfl, rfl, rfl, rfl, rfl, rfl, rfl, rfl, rfl, rfl⟩

theorem SameBatch.trans {r₁ r2 r3} (h : SameBatch r₁ r2) (h' : SameBatch r2 r3) : SameBatch r₁ r3 where
  operations := h'.operations.trans h.operations
  remoteDecode := h'.remoteDecode.trans h.remoteDecode
  remotePrefill := h'.remotePrefill.trans h.remotePrefill
  scheduled := h'.scheduled.trans h.scheduled
  tokenBudget := h'.tokenBudget.trans h.tokenBudget
  pendingPrefillReserve := h'.pendingPrefillReserve.trans h.pendingPrefillReserve
  pushedPrefill := h'.pushedPrefill.trans h.pushedPrefill
  pushedDecode := h'.pushedDecode.trans h.pushedDecode
  capacityBlocker := h'.capacityBlocker.trans h.capacityBlocker
  capacityBlocked := h'.capacityBlocked.trans h.capacityBlocked

/-! ## A resident request's step -/

structure Started (r : Round) (req : Request) (step : ResidentStep) (r₁ : Round) : Prop where
  request : step.request = req
  resources : req.state.resources? = some step.resources
  computed : req.numComputedTokens = .ok step.numComputedTokens
  progress : ∃ junction stream point, req.advanceRequestProgress r.sched.coord
    { step.resources.cacheProgress with junctionTokens := junction } step.numComputedTokens stream point =
      .ok (step.progress, step.told)
  coord : ∃ c, copyDueCheckpoint r.sched.coord step.resources.cacheProgress step.numComputedTokens = .ok c ∧
    r₁ = r.setCoord c

theorem startStep_ensures (r : Round) (req) (junction) (st) (pn) :
    Ensures (r.startStep req junction st pn) fun x => Started r req
    x.1 x.2 := by
  refine .skip fun rss hr => .skip fun cm hp => ?_
  refine .skip fun ad hd => .skip fun c hc => .pure ?_
  exact ⟨rfl, Request.forwardResources_ok hr, hp, ⟨junction, st, pn, hd⟩, c, hc, rfl⟩

def written (step : ResidentStep) (tables : Nat → BlockTable) (progress : CacheProgress) : Request :=
  step.request.toState (step.request.state.withResources
    { step.resources with blockTables := tables, cacheProgress := progress })

structure Finished (r : Round) (step : ResidentStep) (tables : Nat → BlockTable) (progress : CacheProgress)
    (r' : Round) : Prop where
  coord : ∃ c, dropReplaced r.sched.coord step.resources.cacheProgress step.numComputedTokens = .ok c ∧
    r' = (r.setCoord c).setRequest (written step tables progress)

variable {step : ResidentStep}

theorem finishStep_ensures (hr : step.request.state.resources? = some step.resources) (tbs : Nat → BlockTable) (pr) :
    Ensures (r.finishStep step tbs pr) (Finished r step tbs pr) := by
  refine .skip fun c hc => .pure ⟨c, hc, ?_⟩
  rw [Request.writeBack_eq hr, written]

/-- The extents a resident step asks for: `n` tokens of every token-spanned group. -/
def Asks (config : EngineConfig) (n : Nat) (demands : Nat → GroupDemand) : Prop :=
  ∃ kind checkpoint, kind ≠ .land ∧ ∀ i, (demands i).extent =
    if (config.group i).attnKind = .state then .state kind checkpoint else .dense n

/-- A granted step of a resident request over `n` more tokens, before its event. -/
inductive Granted (r : Round) (req : Request) (n : Nat) : Round → Prop
  | admitted {step r₁ demands txn progress r'} (started : Started r req step r₁)
      (asks : Asks r.sched.config n demands) (admits : r₁.admitResident step demands = .ok (some txn))
      (finished : Finished ((r₁.setCoord txn.coord).recordAdmittedPages txn.result) step txn.holding.tables
        progress r') :
      Granted r req n r'
  | inPlace {step r₁ kind holding released r'} (started : Started r req step r₁)
      (consumes : r₁.sched.coord.consumeReservedTokens { tables := step.resources.blockTables } n = .ok holding)
      (releases : releaseInputs kind (holding, r₁.sched.coord) = .ok released)
      (finished : Finished (r₁.setCoord released.2) step released.1.tables step.progress r') : Granted r req n r'

inductive Refused (r : Round) (req : Request) : Round → Prop
  | idle : Refused r req r
  | refused {step r₁ c} (started : Started r req step r₁)
      (drops : dropDueCheckpoint r₁.sched.coord step.resources.cacheProgress step.numComputedTokens = .ok c) :
      Refused r req { r₁.setCoord c with admissionFailed := true }

theorem Started.withRequest (h : Started r req step r₁) : step.request.state.resources? = some step.resources := by
  rw [h.request]; exact h.resources

theorem commitStep_ensures (hr : step.request.state.resources? = some step.resources)
    (txn : CacheCoordinator.Txn) (pr) :
    Ensures (r.commitStep step txn pr) fun r' => ∃ pr', Finished
      ((r.setCoord txn.coord).recordAdmittedPages txn.result) step txn.holding.tables pr' r' :=
  (finishStep_ensures hr _ _).mono fun _ h => ⟨_, h⟩

theorem refuseStep_ensures (hs : Started r req step r₁) :
    Ensures (r₁.refuseStep step) fun r' => Refused r req { r' with admissionFailed := true } := by
  exact .skip fun c hc => .pure (.refused hs hc)

def Outcome {α : Type} (granted : α → Round → Prop) (refused : Round → Prop) : Option α × Round → Prop
  | (none, r') => refused r'
  | (some a, r') => granted a r'

/-! ### A later chunk -/

theorem asks_chunkDemands (config unscheduled reserve tokens checkpoint) :
    Asks config tokens (chunkDemands config unscheduled reserve tokens checkpoint) := by
  refine ⟨.rotate, checkpoint, nofun, fun i => ?_⟩
  by_cases h : (config.group i).attnKind = .state <;> simp [chunkDemands, reservePrefillDemands, makeGroupDemands, h]

theorem tokensWithoutCheckpoint_le (s : Scheduler) (firstPos checkpoint tokens) :
    s.tokensWithoutCheckpoint firstPos checkpoint tokens ≤ tokens := by
  unfold Scheduler.tokensWithoutCheckpoint
  split
  next h =>
    have := of_decide_eq_true h
    omega
  next => exact le_rfl

variable {tokens : Nat}

theorem tokensWithoutCheckpoint_pos (s : Scheduler) (firstPos checkpoint) (h : 0 < tokens) :
    0 < s.tokensWithoutCheckpoint firstPos checkpoint tokens := by
  unfold Scheduler.tokensWithoutCheckpoint
  split
  next hw =>
    have := of_decide_eq_true hw
    omega
  next => exact h

theorem chunkKeepingFinalWindow_ensures (tokens unscheduled window) :
    Ensures (chunkKeepingFinalWindow tokens unscheduled window) (· ≤ tokens) := by
  refine .assert fun _ => .ite (fun _ => .pure le_rfl) fun h => .pure ?_
  omega

theorem prefillChunkTokens_ensures (c : CacheCoordinator) (firstPos) (resumesHit) (unscheduled)
    (budget : Int) (junction) :
    Ensures (prefillChunkTokens c firstPos resumesHit unscheduled budget junction) fun tokens =>
      tokens ≤ unscheduled ∧
        (tokens = 0 ∨ tokens + (if resumesHit then c.replayTokens firstPos else 0) ≤ budget.toNat) := by
  have hc : ∀ plain, cutAtJunction firstPos plain junction ≤ plain := by
    intro plain
    unfold cutAtJunction
    split
    next => exact min_le_left _ _
    next => exact le_rfl
  refine .assert fun _ => .ite (fun _ => .pure ⟨Nat.zero_le _, .inl rfl⟩) fun hb => ?_
  have hf : ∀ n ≤ min (budget.toNat - if resumesHit then c.replayTokens firstPos else 0) unscheduled,
      n ≤ unscheduled ∧ (n = 0 ∨ n + (if resumesHit then c.replayTokens firstPos else 0) ≤ budget.toNat) := by
    intro n hn
    omega
  refine (chunkKeepingFinalWindow_ensures _ _ _).bind fun kept hk => ?_
  refine .ite (fun _ => .pure (hf kept (hk.trans (hc _)))) fun _ => ?_
  exact (chunkKeepingFinalWindow_ensures _ _ _).mono fun n hn => hf n hn

theorem chunkToward_le (checkpoint firstPos tokens junction maxChunk granularity) :
    chunkTowardInForwardCheckpoint checkpoint firstPos tokens junction maxChunk granularity ≤ tokens := by
  have hp := Nat.div_mul_le_self (firstPos + tokens) granularity
  unfold chunkTowardInForwardCheckpoint
  simp only
  split
  · exact le_rfl
  · split
    · split
      · exact le_rfl
      · split <;> omega
    · split <;> omega

theorem chunkToward_pos (checkpoint firstPos junction maxChunk granularity) (h : 0 < tokens) :
    0 < chunkTowardInForwardCheckpoint checkpoint firstPos tokens junction maxChunk granularity := by
  unfold chunkTowardInForwardCheckpoint
  simp only
  split
  · exact h
  · split
    · split
      · exact h
      · split <;> omega
    · split <;> omega

theorem admitChunk_ensures (hs : Started r req step r₁)
    (unscheduled reserve firstPos checkpoint) (hp : 0 < tokens) :
    Ensures (r₁.admitChunk step unscheduled reserve firstPos checkpoint tokens)
      (Outcome (fun config r' => Granted r req config.tokens r' ∧ 0 < config.tokens ∧ config.tokens ≤ tokens)
        (Refused r req)) := by
  have hc : r₁.sched.config = r.sched.config := by
    obtain ⟨c, _, rfl⟩ := hs.coord; rfl
  have hasks : ∀ n fl, Asks r.sched.config n (chunkDemands r₁.sched.config unscheduled reserve n fl) := by
    intro n fl
    rw [hc]; exact asks_chunkDemands _ _ _ _ _
  refine .skip fun first hf => ?_
  cases first with
  | some txn =>
    refine (commitStep_ensures hs.withRequest _ _).bind fun r' hd => .pure ?_
    obtain ⟨pr, hd⟩ := hd
    unfold admitChunkWithCheckpoint at hf
    split at hf
    next => exact ⟨.admitted hs (hasks tokens true) hf hd, hp, le_rfl⟩
    next => exact nomatch hf
  | none =>
    refine .skip fun sc hse => ?_
    cases sc with
    | some txn =>
      refine (commitStep_ensures hs.withRequest _ _).bind fun r' hd => .pure ?_
      obtain ⟨pr, hd⟩ := hd
      exact ⟨.admitted hs (hasks _ false) hse hd, tokensWithoutCheckpoint_pos _ _ _ hp,
        tokensWithoutCheckpoint_le _ _ _ _⟩
    | none => exact (refuseStep_ensures hs).bind fun r' hd => .pure hd

theorem schedulePrefill_ensures (r : Round) (req : Request) (rm : Int) (reserve) :
    Ensures (r.schedulePrefill req rm reserve)
      (Outcome (fun checkpoint r' => Granted r req checkpoint.tokens r' ∧ 0 < checkpoint.tokens ∧
        checkpoint.tokens ≤ req.unscheduledPrefillSize ∧ checkpoint.tokens ≤ rm.toNat) (Refused r req)) := by
  refine .skip fun rss _ => ?_
  refine (prefillChunkTokens_ensures _ _ _ _ _ _).bind fun tokens hk => ?_
  refine .ite (fun _ => .pure .idle) fun hn => ?_
  refine (startStep_ensures _ _ _ _ _).bind fun x hs => ?_
  refine (admitChunk_ensures hs _ _ _ _ (chunkToward_pos _ _ _ _ _ (Nat.pos_of_ne_zero hn))).mono ?_
  rintro ⟨_ | checkpoint, r'⟩ ht
  · exact ht
  · have hl := ht.2.2.trans (chunkToward_le _ _ _ _ _ _)
    have hb : tokens ≤ rm.toNat := by simpa [hn] using hk.2
    exact ⟨ht.1, ht.2.1, hl.trans hk.1, hl.trans hb⟩

/-! ### A decode -/

theorem asks_makeGroupDemands (config n) {kn} (hk : kn ≠ .land) (checkpoint) :
    Asks config n (makeGroupDemands config n kn checkpoint) := by
  refine ⟨kn, checkpoint, hk, fun i => ?_⟩
  by_cases h : (config.group i).attnKind = .state
  · simp [makeGroupDemands, h]
  · simp [makeGroupDemands, h]

theorem decodeStateStep_ne_land (r : Round) (req) : r.decodeStateStep req ≠ .land := by
  unfold decodeStateStep
  simp only
  split
  · nofun
  · split <;> nofun

def DecodeGranted (r : Round) (req : Request) (r' : Round) : Prop :=
  ∃ resources computed declared, req.state.resources? = some resources ∧ req.numComputedTokens = .ok computed ∧
    req.reserveNumTokensInNextScheduleEvent = .ok declared ∧
    Granted r req (r.decodeReserve req resources.blockTables computed declared.toNat) r'

theorem scheduleDecode_ensures (r : Round) (req) : Ensures (r.scheduleDecode req) fun x =>
      if x.1 then DecodeGranted r req x.2 else Refused r req x.2 := by
  refine .skip fun resources hr => .skip fun cm hc => ?_
  refine .skip fun dc hde => (startStep_ensures _ _ _ _ _).bind fun x hs => ?_
  replace hr := Request.forwardResources_ok hr
  obtain rfl : x.1.resources = resources := Option.mem_unique hs.resources hr
  have hg : ∀ r', Granted r req (r.decodeReserve req x.1.resources.blockTables cm dc.toNat) r' →
      DecodeGranted r req r' := fun r' h => ⟨_, _, _, hr, hc, hde, h⟩
  refine .ite (fun _ => ?_) fun _ => .skip fun ad hm => ?_
  · refine .bind ?_ fun r' h => .pure (by simpa using h)
    refine .skip fun holding hconsume => .skip fun rl hl => ?_
    exact (finishStep_ensures hs.withRequest _ _).mono fun r' hd =>
      hg r' (.inPlace hs hconsume hl hd)
  · cases ad with
    | some txn =>
      refine (commitStep_ensures hs.withRequest _ _).bind fun r' hd => .pure ?_
      obtain ⟨pr, hd⟩ := hd
      exact hg r' (.admitted hs (asks_makeGroupDemands _ _ (decodeStateStep_ne_land r req) _) hm hd)
    | none => exact (refuseStep_ensures hs).bind fun r' hd => .pure hd

/-! ### What a step leaves alone -/

theorem Started.sched (h : Started r req step r₁) : ∃ c, r₁ = r.setCoord c := by
  obtain ⟨c, _, hc⟩ := h.coord
  exact ⟨c, hc⟩

variable {n : Nat}

theorem Granted.sched (h : Granted r req n r') : ∃ c rss tbs progress,
    req.state.resources? = some rss ∧ r'.sched = (r.sched.setCoord c).setRequest (req.toState
      (req.state.withResources { rss with blockTables := tbs, cacheProgress := progress })) := by
  cases h with
  | admitted st _ _ fn | inPlace st _ _ fn =>
    obtain ⟨_, rfl⟩ := st.sched
    obtain ⟨c, _, rfl⟩ := fn.coord
    exact ⟨c, _, _, _, st.resources, by rw [written, st.request]; rfl⟩

theorem Granted.batch (h : Granted r req n r') : SameBatch r r' := by
  cases h with
  | admitted st _ _ fn | inPlace st _ _ fn =>
    obtain ⟨_, rfl⟩ := st.sched
    obtain ⟨c, _, rfl⟩ := fn.coord
    constructor <;> rfl

theorem Refused.sched (h : Refused r req r') : ∃ c, r'.sched = r.sched.setCoord c := by
  cases h with
  | idle => exact ⟨r.sched.coord, rfl⟩
  | refused st _ =>
    obtain ⟨_, rfl⟩ := st.sched
    exact ⟨_, rfl⟩

theorem Refused.batch (h : Refused r req r') : SameBatch r r' := by
  cases h with
  | idle => exact SameBatch.refl r
  | refused st _ =>
    obtain ⟨_, rfl⟩ := st.sched
    constructor <;> rfl

end Round

end TokenSpeed

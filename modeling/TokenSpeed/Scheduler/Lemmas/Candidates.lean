import TokenSpeed.Scheduler.Lemmas.Grants

/-!
# Candidates

A granted step's event: the state its request moves to and the operation built from it; and a first
chunk, from its probe to the row it takes.
-/

namespace TokenSpeed

def RequestState.window? : RequestState → Option Window
  | .prefilling _ window _ | .remotePrefilling _ window _ | .prefillAwaitingResult _ window _
  | .prefillDone _ window _ _ => some window
  | _ => none

structure Carries (op : PrefillOperation) (req : Request) (window : Window) : Prop where
  requestId : op.requestId = req.id
  inputLength : op.inputLength = window.size + window.replay
  extendPrefixLen : op.extendPrefixLen + window.replay = window.first
  prefillLength : op.prefillLength = req.prefillSize

theorem prefillOperation_ensures {c} {req : Request} {window held}
    (h : req.state.window? = some window) (hh : req.state.resources? = some held) :
    Ensures (prefillOperation c req) fun op => Carries op req window ∧ op.requestPoolIndex = held.reqPoolIndex := by
  have hn : req.currentPrefillInfo = req.makePrefillInfo window := by
    unfold Request.currentPrefillInfo
    cases hs : req.state <;> rw [hs] at h <;> cases h <;> rfl
  unfold prefillOperation
  rw [hn]
  refine .bind (Q := fun i => i.extendLen = window.size + window.replay ∧
    i.alreadyScheduledLen + window.replay = window.first) ?_ fun i hn => ?_
  · refine .assert fun hl => .pure ⟨rfl, ?_⟩
    exact Nat.sub_add_cancel (of_decide_eq_true hl)
  · refine .skip fun resources hr => .skip fun rows _ => .pure ?_
    rw [Request.forwardResources, hh] at hr
    cases hr
    exact ⟨⟨rfl, hn.1, hn.2, rfl⟩, rfl⟩

section

variable (role : Role) (size : Nat) (resources : ForwardResources) (window : Window) (reserve : Int)

theorem window?_prefillState : (prefillState role size resources window reserve).window? = some window := by
  unfold prefillState
  split
  · split <;> rfl
  · rfl

theorem window?_firstChunkState : (firstChunkState role size resources window reserve).window? = some window := by
  unfold firstChunkState
  split
  · rfl
  · exact window?_prefillState _ _ _ _ _

theorem resources?_prefillState : (prefillState role size resources window reserve).resources? = some resources := by
  unfold prefillState
  split
  · split <;> rfl
  · rfl

theorem resources?_firstChunkState :
    (firstChunkState role size resources window reserve).resources? = some resources := by
  unfold firstChunkState
  split
  · rfl
  · exact resources?_prefillState _ _ _ _ _

end

namespace Round

variable {r r' r₁ : Round} {req : Request} {id : Nat}

/-! ## Events of granted steps -/

/-- `SchedulePrefillEvent` as it was applied. -/
def ChunkApplied (r : Round) (id : Nat) (chunk : Chunk) (op : PrefillOperation) (r' : Round) : Prop :=
  ∃ req resources window reserve, r.sched.findRequest id = some req ∧
    req.state = .prefilling resources window reserve ∧
    Carries op req { first := window.pastEnd, size := chunk.tokens } ∧ op.requestPoolIndex = resources.reqPoolIndex ∧
    r' = r.setRequest (req.toState (prefillState r.sched.config.role req.prefillSize resources
      { first := window.pastEnd, size := chunk.tokens } chunk.decodeReserve))

theorem applyChunk_ensures (r : Round) (id) (ch) :
    Ensures (r.applyChunk id ch) fun x => ChunkApplied r id ch x.1 x.2 := by
  unfold applyChunk
  split
  next req hr =>
    split
    next resources window reserve hs =>
      refine (prefillOperation_ensures (window?_prefillState _ _ _ _ _) (resources?_prefillState _ _ _ _ _)).bind
        fun op hp => .pure ?_
      exact ⟨req, resources, window, reserve, hr, hs, { hp.1 with }, hp.2, rfl⟩
    next => exact ensures_error
  next => exact ensures_error

/-- `ScheduleDecodeEvent` as it was applied. -/
def DecodeApplied (r : Round) (id : Nat) (op : DecodeOperation) (r' : Round) : Prop :=
  ∃ req resources specCandidateIds, r.sched.findRequest id = some req ∧ decodable req.state = some resources ∧
    op.requestId = req.id ∧ op.inputLength = r.sched.config.decodeTokens ∧
    op.requestPoolIndex = resources.reqPoolIndex ∧
    r' = r.setRequest ({ req with specCandidateIds := specCandidateIds }.toState
      (.decoding resources r.sched.config.decodeTokens false))

theorem applyDecode_ensures (r : Round) (id) : Ensures (r.applyDecode id) fun x => DecodeApplied r id x.1 x.2 := by
  unfold applyDecode
  split
  next => exact ensures_error
  next req hr =>
    split
    next => exact ensures_error
    next resources hs =>
      refine .skip fun rows _ => .pure ?_
      exact ⟨req, resources, _, hr, hs, rfl, rfl, rfl, rfl⟩

def DecodeDone (r : Round) (req : Request) (op : DecodeOperation) (r' : Round) : Prop :=
  ∃ r₁, DecodeGranted r req r₁ ∧ DecodeApplied r₁ req.id op r'

theorem decodeCandidate_ensures (hf : r.sched.findRequest id = some req) :
    Ensures (r.decodeCandidate id) (Outcome (DecodeDone r req) (Refused r req)) := by
  unfold decodeCandidate
  rw [hf]
  refine (scheduleDecode_ensures r req).bind fun x hx => ?_
  obtain ⟨gr, r₁⟩ := x
  cases gr with
  | false => exact .pure hx
  | true =>
    refine (applyDecode_ensures r₁ id).bind fun y hy => .pure ?_
    rw [← Scheduler.findRequest_id hf] at hy
    exact ⟨r₁, hx, hy⟩

def ChunkDone (r : Round) (req : Request) (budget : Int) (op : PrefillOperation) (r' : Round) : Prop :=
  ∃ chunk r₁, Granted r req chunk.tokens r₁ ∧ 0 < chunk.tokens ∧ chunk.tokens ≤ req.unscheduledPrefillSize ∧
    chunk.tokens ≤ budget.toNat ∧ ChunkApplied r₁ req.id chunk op r'

theorem chunkCandidate_ensures (r : Round) (req) (budget) (reserve) :
    Ensures (r.chunkCandidate req budget reserve) (Outcome (ChunkDone r req budget) (Refused r req)) := by
  refine (schedulePrefill_ensures r req budget reserve).bind fun x hx => ?_
  obtain ⟨ch, r₁⟩ := x
  cases ch with
  | none => exact .pure hx
  | some ch =>
    refine (applyChunk_ensures r₁ req.id ch).bind fun y hy => .pure ?_
    exact ⟨ch, r₁, hx.1, hx.2.1, hx.2.2.1, hx.2.2.2, hy⟩

/-! ## A first chunk -/

structure FirstGranted (r : Round) (req : Request) (budget : Int) (chunk : Scheduler.FirstChunk) (r₁ : Round)
    (m : Scheduler.AdmissionMatch) (shape : Scheduler.FirstChunkShape) (checkpoint : Bool)
    (txn : CacheCoordinator.Txn) (holding : CacheCoordinator.Holding) (c : CacheCoordinator) : Prop where
  matched : r.sched.matchPrefixAtAdmission req = .ok m
  shape_eq : shape = r.sched.firstChunkShape req m.probe shape.decodeInputTokens
  admits : r.sched.coord.admitProbe m.probe (r.sched.firstChunkDemands req shape chunk.tokensThisRound checkpoint)
    {} {} none = .ok (some txn)
  publishes : Scheduler.publishExtension (m.probe.device.fullPageTokens / txn.coord.prefixGranularity)
    txn.result.accessEpoch m.extensionHashes (txn.holding, txn.coord) = .ok (holding, c)
  round_eq : r₁ = (r.setCoord c).recordAdmittedPages txn.result
  hit : max txn.result.devicePrefixTokens txn.result.hostPrefixTokens = shape.hitTokens
  tables : chunk.tables = holding.tables
  hitTokens : chunk.hitTokens = shape.hitTokens
  loadPairs : chunk.loadPairs = txn.result.loadPairs
  statePrefixCached : chunk.statePrefixCached = txn.result.statePrefixCached
  checkpoints : ∀ i, chunk.cacheProgress.stateCheckpointBlocks i =
    if checkpoint then txn.result.stateCheckpointBlocks i else none
  published : chunk.cacheProgress.publishedStateCheckpointBlocks = fun _ => none
  tokens_pos : 0 < chunk.tokensThisRound
  tokens_le : chunk.tokensThisRound ≤ req.prefillSize - shape.hitTokens
  budget_le : r.sched.config.role ≠ .d →
    chunk.tokensThisRound + r.sched.coord.replayTokens shape.hitTokens ≤ budget.toNat
  row : 0 < r.sched.reqPool.availableSlots

def FirstRefused (r : Round) (r' : Round) : Prop := r' = r ∨ r' = { r with admissionFailed := true }

theorem admitFirstChunk_ensures (s : Scheduler) (req) (pr)
    (sh) (ch) {tokens} (hp : 0 < tokens) :
    Ensures (s.admitFirstChunk req pr sh ch tokens) fun x => ∀ admission, x = some admission →
      s.coord.admitProbe pr (s.firstChunkDemands req sh admission.tokens admission.writesCheckpoint) {} {} none =
        .ok (some admission.txn) ∧ 0 < admission.tokens ∧ admission.tokens ≤ tokens := by
  refine .skip fun first hf => ?_
  cases first with
  | some txn =>
    refine .pure ?_
    rintro _ ⟨⟩
    unfold Scheduler.admitWithCheckpoint at hf
    split at hf
    next => exact ⟨hf, hp, le_rfl⟩
    next => exact nomatch hf
  | none =>
    refine .skip fun sc hs => ?_
    cases sc with
    | some txn =>
      refine .pure ?_
      rintro _ ⟨⟩
      exact ⟨hs, tokensWithoutCheckpoint_pos _ _ _ hp, tokensWithoutCheckpoint_le _ _ _ _⟩
    | none => exact .pure nofun

theorem firstChunkTokens_ensures (s : Scheduler) (rm : Int) (sh : Scheduler.FirstChunkShape) :
    Ensures (s.firstChunkTokens rm sh) fun tokens => tokens ≤ sh.unscheduled ∧ (tokens = 0 ∨
      (s.config.role ≠ .d → tokens + s.coord.replayTokens sh.hitTokens ≤ rm.toNat)) := by
  refine .ite (fun h => .pure ⟨le_rfl, .inr fun hn => absurd h hn⟩) fun _ => ?_
  refine (prefillChunkTokens_ensures _ _ _ _ _ _).mono fun tokens ht => ⟨ht.1, ht.2.imp_right ?_⟩
  exact fun h _ => h

theorem schedulePrefillFirstChunk_ensures (r : Round) (req) (budget) (reserve) :
    Ensures (r.schedulePrefillFirstChunk req budget reserve) (Outcome
      (fun chunk r₁ => ∃ m sh ch txn holding c,
        FirstGranted r req budget chunk r₁ m sh ch txn holding c) (FirstRefused r)) := by
  refine .ite (fun _ => .pure (.inl rfl)) fun _ => .skip fun m hm => ?_
  refine .ite (fun _ => .pure (.inl rfl)) fun hw => .assert fun _ => ?_
  refine (firstChunkTokens_ensures _ _ _).bind fun tokens ht => ?_
  refine .ite (fun _ => .pure (.inl rfl)) fun hn => ?_
  refine (admitFirstChunk_ensures _ _ _ _ _ (chunkToward_pos _ _ _ _ _ (Nat.pos_of_ne_zero hn))).bind
    fun a hd => ?_
  cases a with
  | none => exact .pure (.inr rfl)
  | some ad =>
    obtain ⟨ham, hp, hle⟩ := hd ad rfl
    replace hle := hle.trans (chunkToward_le _ _ _ _ _ _)
    refine .bind ?_ fun x hx => .pure hx
    refine .assert fun hh => .assert fun _ => .skip fun pb hl => .pure ?_
    refine ⟨m, _, ad.writesCheckpoint, ad.txn, pb.1, pb.2, hm, rfl, ham, hl, rfl,
      by simpa using hh, rfl, rfl, rfl, rfl, fun i => ?_, rfl, hp, hle.trans ht.1, fun hr => ?_, ?_⟩
    · dsimp only
      split <;> rfl
    · exact (Nat.add_le_add_right hle _).trans ((ht.2.resolve_left hn) hr)
    · simpa [Nat.pos_iff_ne_zero] using hw

def firstWindow (r : Round) (chunk : Scheduler.FirstChunk) : Window where
  first := chunk.hitTokens
  size := chunk.tokensThisRound
  replay := if r.sched.config.role = .d then 0 else r.sched.coord.replayTokens chunk.hitTokens

def firstAdmitted (r : Round) (req : Request) (chunk : Scheduler.FirstChunk) (row : Nat) : Request :=
  { req with generatedTokensAtAdmission := req.generatedTokens }.toState
    (firstChunkState r.sched.config.role req.prefillSize
      { reqPoolIndex := some row, blockTables := chunk.tables, cacheProgress := chunk.cacheProgress }
      (r.firstWindow chunk) chunk.decodeReserve)

/-- `SchedulePrefillFirstChunkEvent` as it was applied: a row is taken, the loads start and the storage
hold is let go. -/
structure FirstApplied (r : Round) (req : Request) (chunk : Scheduler.FirstChunk) (op : PrefillOperation) (r' : Round)
    (row : Nat) (rest : List Nat) (transfers : TierTransferManager) (storage : StorageTransferManager) : Prop where
  rows : r.sched.reqPool.freeSlots = row :: rest
  carries : Carries op req (r.firstWindow chunk)
  pool : op.requestPoolIndex = some row
  statePrefixCached : op.statePrefixCached = chunk.statePrefixCached
  sched : r'.sched = { ({ r.sched with reqPool := { r.sched.reqPool with freeSlots := rest } }.setRequest
    (r.firstAdmitted req chunk row)) with transfers := transfers, storage := storage }
  loads : chunk.loadPairs = [] ∧ transfers = r.sched.transfers ∧ r'.loadBacks = r.loadBacks ∨
    ∃ op, r.sched.transfers.startPrefixLoad r.sched.coord chunk.loadPairs = .ok (op, transfers) ∧
      r'.loadBacks = r.loadBacks ++ [op]
  storage : storage = r.sched.storage ∨ ∃ operation, r.sched.storage.detach operation = .ok storage
  batch : SameBatch r r'
  copies : r'.pagesToCopy = r.pagesToCopy

theorem applyFirstChunk_ensures (r : Round) (req) (chunk) :
    Ensures (r.applyFirstChunk req chunk) fun x => ∃ row rest transfers storage,
      FirstApplied r req chunk x.1 x.2 row rest transfers storage := by
  refine .skip fun alloc hal => ?_
  obtain ⟨row, reqPool⟩ := alloc
  obtain ⟨rest, hr, rfl⟩ : ∃ rest, r.sched.reqPool.freeSlots = row :: rest ∧
      reqPool = { r.sched.reqPool with freeSlots := rest } := by
    unfold ReqPoolAllocator.allocate at hal
    split at hal
    next => exact nomatch hal
    next slot rest hq =>
      cases hal
      exact ⟨rest, hq, rfl⟩
  refine (prefillOperation_ensures (window?_firstChunkState _ _ _ _ _) (resources?_firstChunkState _ _ _ _ _)).bind
    fun op hop => ?_
  refine .bind (Q := fun r₁ : Round => ∃ transfers, r₁.sched =
      { ({ r.sched with reqPool := { r.sched.reqPool with freeSlots := rest } }.setRequest
        (r.firstAdmitted req chunk row)) with transfers := transfers } ∧ SameBatch r r₁ ∧
      r₁.pagesToCopy = r.pagesToCopy ∧
      (chunk.loadPairs = [] ∧ transfers = r.sched.transfers ∧ r₁.loadBacks = r.loadBacks ∨
        ∃ op, r.sched.transfers.startPrefixLoad r.sched.coord chunk.loadPairs = .ok (op, transfers) ∧
          r₁.loadBacks = r.loadBacks ++ [op])) ?_ ?_
  · refine .ite (fun hm => .pure ?_) fun _ => .skip fun loaded hd => .pure ?_
    · exact ⟨r.sched.transfers, rfl, by constructor <;> rfl, rfl, .inl ⟨by simpa using hm, rfl, rfl⟩⟩
    · exact ⟨loaded.2, rfl, by constructor <;> rfl, rfl, .inr ⟨loaded.1, hd, rfl⟩⟩
  · rintro r₁ ⟨transfers, hh, hb, hp, hl⟩
    unfold detachHold
    split
    next =>
      exact .pure ⟨row, rest, transfers, r.sched.storage, hr, { hop.1 with }, hop.2, rfl, hh, hl, .inl rfl, hb, hp⟩
    next hold _ =>
      refine .bind (Q := fun r₂ : Round => ∃ storage, r.sched.storage.detach hold.operationId = .ok storage ∧
        r₂ = { r₁ with sched := { r₁.sched with storage := storage } }) ?_ ?_
      · refine .skip fun storage hs => .pure ⟨storage, ?_, rfl⟩
        rw [hh] at hs
        exact hs
      · rintro _ ⟨storage, hs, rfl⟩
        refine .pure ⟨row, rest, transfers, storage, hr, { hop.1 with }, hop.2, rfl, ?_, hl, .inr ⟨_, hs⟩,
          hb.trans (by constructor <;> rfl), hp⟩
        rw [hh]

def FirstDone (r : Round) (req : Request) (budget : Int) (op : PrefillOperation) (r' : Round) : Prop :=
  ∃ chunk r₁, (∃ m shape checkpoint txn holding c,
    FirstGranted r req budget chunk r₁ m shape checkpoint txn holding c) ∧
    ∃ row rest transfers storage, FirstApplied r₁ req chunk op r' row rest transfers storage

theorem firstChunkCandidate_ensures (r : Round) (req) (budget) (reserve) :
    Ensures (r.firstChunkCandidate req budget reserve) (Outcome (FirstDone r req budget) (FirstRefused r)) := by
  refine (schedulePrefillFirstChunk_ensures r req budget reserve).bind fun x hx => ?_
  obtain ⟨ch, r₁⟩ := x
  cases ch with
  | none => exact .pure hx
  | some ch =>
    refine (applyFirstChunk_ensures r₁ req ch).bind fun y hy => .pure ?_
    exact ⟨ch, r₁, hx, hy⟩

end Round

end TokenSpeed

import TokenSpeed.Scheduler.Lemmas.Candidates

/-!
# Retractions and restores taken apart

What a retraction publishes, images and frees, and what a restore takes, as the calls they made.
-/

namespace TokenSpeed

theorem Scheduler.resumeShape_resources {st : RequestState} {resources sh}
    (h : Scheduler.resumeShape st = some (resources, sh)) : st.resources? = some resources := by
  cases st <;> cases h <;> rfl

namespace Round

variable {r r' : Round} {victim req : Request}

/-! ## Victims -/

structure PrefixPublished (s : Scheduler) (victim next : Request) (s' : Scheduler) (held : ForwardResources)
    (computed : Nat) (progress : CacheProgress) (told : RequestProgress) (holding : CacheCoordinator.Holding)
    (c₁ c₂ c₃ c : CacheCoordinator) : Prop where
  holds : victim.state.resources? = some held
  counts : victim.numComputedTokens = .ok computed
  advances : victim.advanceRequestProgress s.coord held.cacheProgress computed false .final = .ok (progress, told)
  copies : copyDueCheckpoint s.coord held.cacheProgress computed = .ok c₁
  publishes : Scheduler.publishVictim c₁
    { tables := held.blockTables, checkpoints := progress.publishedStateCheckpointBlocks } told
    held.cacheProgress.accessEpoch = .ok (holding, c₂)
  drops : Scheduler.dropCheckpointBlocks c₂ holding.checkpoints = .ok c₃
  replaces : dropReplaced c₃ held.cacheProgress computed = .ok c
  next_eq : next = victim.toState (victim.state.withResources { held with
      blockTables := holding.tables
      cacheProgress := { progress with publishedStateCheckpointBlocks := fun _ => none } })
  sched : s' = (s.setCoord c).setRequest next

def Publishes (s : Scheduler) (victim next : Request) (s' : Scheduler) : Prop :=
  ∃ held computed progress told holding c₁ c₂ c₃ c,
    PrefixPublished s victim next s' held computed progress told holding c₁ c₂ c₃ c

theorem publishCompletedPrefix_ensures (s : Scheduler) (victim) :
    Ensures (s.publishCompletedPrefix victim) fun s' => ∃ next, Publishes s victim next s' := by
  refine .skip fun held hh => .skip fun cm hp => ?_
  refine .skip fun ⟨pr, tl⟩ hd => .skip fun c1 hc1 => ?_
  refine .skip fun ⟨holding, c2⟩ hb => .skip fun c3 hc3 => .skip fun c hc => ?_
  replace hh := Request.forwardResources_ok hh
  refine .pure ⟨_, held, cm, pr, tl, holding, c1, c2, c3, c, hh, hp, hd, hc1, hb, hc3, hc, rfl, ?_⟩
  rw [Request.writeBack_eq hh]

theorem Publishes.sched {s s' : Scheduler} {next} (h : Publishes s victim next s') :
    ∃ c held held', victim.state.resources? = some held ∧ held'.reqPoolIndex = held.reqPoolIndex ∧
      held'.resultsInFlight = held.resultsInFlight ∧
      next = victim.toState (victim.state.withResources held') ∧ s' = (s.setCoord c).setRequest next := by
  obtain ⟨held, _, pr, _, holding, _, _, _, c, h⟩ := h
  exact ⟨c, held, { held with
    blockTables := holding.tables
    cacheProgress := { pr with publishedStateCheckpointBlocks := fun _ => none } }, h.holds, rfl, rfl, h.next_eq,
      h.sched⟩

def retractedState (s : Scheduler) (victim : Request) (held : ForwardResources) (shape : ResumeShape)
    (image : Nat → ImageTable) (blob : Nat) (ops : List Nat) : RequestState :=
  .retracted
    { cacheProgress := held.cacheProgress
      image := image
      blobSlot := blob
      shape := shape
      retractionEpoch := s.nextRetractionEpoch
      resumesGeneration := victim.hasGeneratedOutput
      pendingStoreOps := ops }

/-- `SnapshotRetractEvent` as it was applied. -/
structure Retracts (s : Scheduler) (victim : Request) (image : Nat → ImageTable) (blob : Nat) (ops : List Nat)
    (s' : Scheduler) (held : ForwardResources) (shape : ResumeShape) (c : CacheCoordinator) : Prop where
  shape_eq : Scheduler.resumeShape victim.state = some (held, shape)
  quiet : held.resultsInFlight = 0
  frees : ∃ holding, s.coord.freeTables { tables := held.blockTables } = .ok (holding, c)
  sched : s' = ((({ s.setCoord c with nextRetractionEpoch := s.nextRetractionEpoch + 1 }).returnRow
    held.reqPoolIndex).setRequest (victim.toState (retractedState s victim held shape image blob ops)))

theorem applyRetract_ensures (s : Scheduler) (victim) (im : Nat → ImageTable) (blob) (ops) :
    Ensures (s.applyRetract victim im blob ops) fun s' => ∃ held sh c,
      Retracts s victim im blob ops s' held sh c := by
  unfold Scheduler.applyRetract
  split
  next => exact ensures_error
  next held sh hs =>
    refine .skip fun _ _ => .assert fun hq => .skip fun ⟨holding, c⟩ hc => ?_
    exact .pure ⟨held, sh, c, hs, by simpa using hq, ⟨holding, hc⟩, rfl⟩

structure ImageStored (r : Round) (victim : Request) (r' : Round) (held : ForwardResources) (shape : ResumeShape)
    (computed row blob : Nat) (slots : SharedSlots) (stores : RetractionStores) (transfers : TierTransferManager)
    (c c' : CacheCoordinator) : Prop where
  holds : victim.state.resources? = some held
  counts : victim.numComputedTokens = .ok computed
  owns : held.reqPoolIndex = some row
  allocates : r.sched.snapshotSlots.allocate = .ok (blob, slots)
  starts : r.sched.transfers.startRetractionStores r.sched.coord victim.id row blob held.blockTables computed =
    .ok (some stores, transfers, c)
  retracts : Retracts { r.sched.setCoord c with transfers := transfers, snapshotSlots := slots.share blob }
    { victim with retractionCount := victim.retractionCount + 1 } stores.image blob stores.pendingStoreOps r'.sched
    held shape c'
  round : r' = { r with
    sched := r'.sched
    writeBacks := r.writeBacks ++ stores.hostStore.toList
    snapshotStores := r.snapshotStores ++ [stores.snapshotStore] }

structure ImageRefused (r : Round) (victim : Request) (r' : Round) (held : ForwardResources) (computed row blob : Nat)
    (slots : SharedSlots) (transfers : TierTransferManager) (c : CacheCoordinator) : Prop where
  holds : victim.state.resources? = some held
  counts : victim.numComputedTokens = .ok computed
  owns : held.reqPoolIndex = some row
  allocates : r.sched.snapshotSlots.allocate = .ok (blob, slots)
  starts : r.sched.transfers.startRetractionStores r.sched.coord victim.id row blob held.blockTables computed =
    .ok (none, transfers, c)
  round : r' = { r with sched :=
    { r.sched.setCoord c with transfers := transfers, snapshotSlots := slots.release blob } }

def Images (r : Round) (victim : Request) : Option ImageShortfall × Round → Prop
  | (none, r') => ∃ held shape computed row blob slots stores transfers c c',
      ImageStored r victim r' held shape computed row blob slots stores transfers c c'
  | (some _, r') => ∃ held computed row blob slots transfers c,
      ImageRefused r victim r' held computed row blob slots transfers c

theorem takeVictimImage_ensures (r : Round) (victim) : Ensures (r.takeVictimImage victim) (Images r victim) := by
  refine .skip fun held hh => .skip fun cm hc => .skip fun ⟨blob, sls⟩ hb => ?_
  replace hh := Request.forwardResources_ok hh
  dsimp only
  split
  next => exact ensures_error
  next row hr =>
    refine .skip fun ⟨stores, trs, c⟩ hs => ?_
    cases stores with
    | none =>
      exact .pure ⟨held, cm, row, blob, sls, trs, c, hh, hc, hr, hb, hs, rfl⟩
    | some stores =>
      refine (applyRetract_ensures _ _ _ _ _).bind fun s' hs' => .pure ?_
      obtain ⟨held', sh, c', hre⟩ := hs'
      obtain rfl : held' = held :=
        Option.some.inj ((Scheduler.resumeShape_resources hre.shape_eq).symm.trans hh)
      exact ⟨held', sh, cm, row, blob, sls, stores, trs, c, c', hh, hc, hr, hb, hs, hre, rfl⟩

inductive RetractOutcome (r : Round) (victim : Request) : Option ImageShortfall × Round → Prop
  | noSlot {shortfall} (full : r.sched.snapshotSlots.slots.availableSlots = 0) :
      RetractOutcome r victim (some shortfall, r)
  | tried {s next x} (available : 0 < r.sched.snapshotSlots.slots.availableSlots)
      (publishes : Publishes r.sched victim next s) (images : Images { r with sched := s } next x) :
      RetractOutcome r victim x

theorem Publishes.find {s s' : Scheduler} {next : Request} (h : Publishes s victim next s')
    (hf : s.findRequest victim.id = some victim) : next.id = victim.id ∧ s'.findRequest next.id = some next := by
  obtain ⟨c, _, _, _, _, _, hn, hs⟩ := h.sched
  have hd : next.id = victim.id := by rw [hn]; rfl
  rw [hs]
  exact ⟨hd, Scheduler.findRequest_setRequest_self (Option.isSome_of_eq_some (hd ▸ hf))⟩

theorem retractVictim_ensures (r : Round) (hf : r.sched.findRequest victim.id = some victim) :
    Ensures (r.retractVictim victim) (RetractOutcome r victim) := by
  refine .ite (fun hfu => .pure (.noSlot (by simpa using hfu))) fun hv => ?_
  refine (publishCompletedPrefix_ensures r.sched victim).bind fun s hs => ?_
  obtain ⟨next, hs⟩ := hs
  obtain ⟨hd, hfo⟩ := hs.find hf
  rw [← hd, hfo]
  refine (takeVictimImage_ensures _ next).mono fun x hx => .tried ?_ hs hx
  simpa [Nat.pos_iff_ne_zero] using hv

/-! ## Restores -/

def restoringRequest (req : Request) (retracted : Retracted) (tables : Nat → BlockTable) (restoreOp : Nat) : Request :=
  { req with generatedTokensAtAdmission := req.generatedTokens }.toState (.restoring
    { resources :=
        { reqPoolIndex := none
          blockTables := tables
          cacheProgress := retracted.cacheProgress
          resultsInFlight := 0 }
      image := retracted.image
      blobSlot := retracted.blobSlot
      shape := retracted.shape
      restoreOp := restoreOp })

theorem applyScheduleRestore_ensures (s : Scheduler) {rt : Retracted} (hs : req.state = .retracted rt)
    (tbs : Nat → BlockTable) (ro) :
    Ensures (s.applyScheduleRestore req tbs ro) fun s' => rt.pendingStoreOps = [] ∧
      s' = s.setRequest (restoringRequest req rt tbs ro) := by
  unfold Scheduler.applyScheduleRestore
  rw [hs]
  refine .assert fun hl => .pure ⟨?_, rfl⟩
  simpa [Retracted.imageLanded] using hl

structure Restores (r : Round) (req : Request) (retracted : Retracted) (r' : Round) (demands : Nat → GroupDemand)
    (txn : CacheCoordinator.Txn) (row : Nat) (reqPool : ReqPoolAllocator) (op : SnapshotRestoreOperation)
    (transfers : TierTransferManager) : Prop where
  asks : demands = reservePrefillDemands r.sched.config (makeGroupDemands r.sched.config 0 .keep false)
    (r.restoreReserve req retracted)
  restores : r.sched.coord.restore retracted.image demands {} retracted.cacheProgress.accessEpoch = .ok (some txn)
  allocates : r.sched.reqPool.allocate = .ok (row, reqPool)
  starts : r.sched.transfers.startSnapshotRestore txn.coord req.id row retracted.blobSlot txn.result.loadPairs
    txn.result.snapshotPairs = .ok (op, transfers)
  lands : retracted.pendingStoreOps = []
  sched : r'.sched = { r.sched.setCoord txn.coord with
    reqPool := reqPool
    transfers := transfers
    snapshotSlots := r.sched.snapshotSlots.share retracted.blobSlot }.setRequest
      (restoringRequest req retracted txn.holding.tables op.opId)
  round : r' = ({ r with
    sched := r'.sched
    snapshotRestores := r.snapshotRestores ++ [op] }.recordAdmittedPages txn.result).markScheduled req.id

theorem scheduleRestore_ensures (r : Round) {rt} (hst : req.state = .retracted rt) :
    Ensures (r.scheduleRestore req rt) fun x =>
      if x.1 then ∃ dms txn row pool op trs, Restores r req rt x.2 dms txn row pool op trs
      else x.2 = r ∨ x.2 = { r with admissionFailed := true } := by
  refine .ite (fun _ => .pure (.inl rfl)) fun _ => .skip fun txn ht => ?_
  cases txn with
  | none => exact .pure (.inr rfl)
  | some txn =>
    refine .bind ?_ fun r' hr' => .pure (by simpa using hr')
    refine .skip fun ⟨row, pool⟩ hw => .skip fun ⟨op, trs⟩ hp => ?_
    refine (applyScheduleRestore_ensures _ hst _ _).bind fun s' hs' => .pure ?_
    exact ⟨_, txn, row, pool, op, trs, rfl, ht, hw, hp, hs'.1, hs'.2, rfl⟩

end Round

end TokenSpeed

import TokenSpeed.Coordinator.Lemmas.Layout
import TokenSpeed.Scheduler.Lemmas.Acts
import TokenSpeed.Scheduler.Lemmas.Lifecycle

/-!
# The moves of a plan build

Every phase of a plan build is a sequence of moves, and the forwards those moves count are the
operations it adds to the batch.
-/

namespace TokenSpeed

open Function List Request RequestState Option Scheduler CacheCoordinator

/-- The states in which a request owns a row. -/
def StateKind.owns : StateKind → Bool
  | .prefilling | .remotePrefilling | .prefillAwaitingResult | .prefillDone | .decoding | .finishing => true
  | _ => false

theorem StateKind.Follows.owns {k k' : StateKind} (h : k.Follows k') : k.owns = true ∧ k'.owns = true := by
  revert h
  cases k <;> cases k' <;> decide

theorem StateKind.owns_of_entered {k : StateKind}
    (h : k ∈ [.prefilling, .remotePrefilling, .prefillAwaitingResult, .prefillDone]) : k.owns = true := by
  revert h
  cases k <;> decide

namespace RequestState

variable {a : RequestState} {held : ForwardResources} {row : Option Nat}

def RunsIn (a : RequestState) (row : Option Nat) : Prop := a.row? = row ∧ a.kind.owns = true

theorem row?_held (h : a.resources? = some held) : a.row? = held.reqPoolIndex := by rw [row?, h]; rfl

theorem RunsIn.of_held (h : a.resources? = some held) (hk : a.kind.owns = true) (hw : row = held.reqPoolIndex) :
    a.RunsIn row :=
  ⟨(row?_held h).trans hw.symm, hk⟩

theorem RunsIn.withResources (h : a.RunsIn row) (hh : a.resources? = some held) {held'}
    (hw : held'.reqPoolIndex = held.reqPoolIndex) : (a.withResources held').RunsIn row :=
  .of_held (resources?_withResources _ hh) ((kind_withResources ..).symm ▸ h.2)
    (by rw [hw, ← row?_held hh]; exact h.1.symm)

end RequestState

namespace Round

variable {may : May} {r r' r₁ r₂ : Round} {req : Request} {id : Nat}

/-! ## Granted steps -/

structure StepOf (r : Round) (req req' : Request) (r' : Round) : Prop where
  sched : ∃ c, r'.sched = (r.sched.setCoord c).setRequest req'
  id : req'.id = req.id
  batch : SameBatch r r'
  state : Local req.state req'.state

theorem Granted.find {n} (h : Granted r req n r') (hf : r.sched.findRequest req.id = some req) :
    ∃ c rss rss', req.state.resources? = some rss ∧
      rss'.reqPoolIndex = rss.reqPoolIndex ∧ rss'.resultsInFlight = rss.resultsInFlight ∧
      r'.sched = (r.sched.setCoord c).setRequest (req.toState (req.state.withResources rss')) ∧
      r'.sched.findRequest req.id = some (req.toState (req.state.withResources rss')) := by
  obtain ⟨c, rss, tbs, pr, hr, hs⟩ := h.sched
  refine ⟨c, rss, { rss with blockTables := tbs, cacheProgress := pr }, hr, rfl, rfl, hs, ?_⟩
  rw [hs]
  exact findRequest_setRequest_self (isSome_of_eq_some hf)

variable {state : RequestState} {rss : ForwardResources}

theorem decodable_withResources {rss'} (h : decodable (state.withResources rss') = some rss) : rss = rss' := by
  cases state <;> first | exact (some.inj h).symm | exact nomatch h

theorem decodable_follows (h : decodable state = some rss) : state.kind.Follows .decoding := by
  cases state with
  | prefillDone => exact (show StateKind.Follows .prefillDone .decoding by decide)
  | prefillAwaitingResult => exact (show StateKind.Follows .prefillAwaitingResult .decoding by decide)
  | decoding => exact (show StateKind.Follows .decoding .decoding by decide)
  | _ => exact nomatch h

theorem DecodeDone.stepOf {op : DecodeOperation} (h : DecodeDone r req op r')
    (hf : r.sched.findRequest req.id = some req) : ∃ req', StepOf r req req' r' ∧ req'.state.kind = .decoding ∧
      op.requestId = req.id ∧ op.inputLength = r.sched.config.decodeTokens ∧
      req'.state.RunsIn op.requestPoolIndex := by
  obtain ⟨r₁, ⟨_, _, _, _, _, _, hg⟩, hit, held, ids, hfo, hh, hd, hl, hw', rfl⟩ := h
  obtain ⟨c, rss, rss', hr, hw, ht, hs, hf1⟩ := hg.find hf
  obtain rfl := mem_unique hf1 hfo
  obtain rfl := decodable_withResources hh
  have hc : r₁.sched.config = r.sched.config := by rw [hs]; rfl
  refine ⟨{ req with specCandidateIds := ids }.toState (.decoding held r₁.sched.config.decodeTokens false),
    ⟨⟨c, ?_⟩, rfl, hg.batch.trans (by constructor <;> rfl), ?_⟩, rfl, hd, by rw [hl, hc], .of_held rfl rfl hw'⟩
  · show r₁.sched.setRequest _ = _
    rw [hs]
    exact setRequest_setRequest rfl
  · refine .paged hr rfl hw ht ?_
    have := decodable_follows hh
    rwa [toState_state, kind_withResources] at this

section

variable (role : Role) (size : Nat) (rss : ForwardResources) (window : Window) (reserve : Int)

theorem prefillState_kind : StateKind.Follows .prefilling (prefillState role size rss window reserve).kind := by
  unfold prefillState
  split
  · split
    · exact (show StateKind.Follows .prefilling .prefillAwaitingResult by decide)
    · exact (show StateKind.Follows .prefilling .prefillDone by decide)
  · exact (show StateKind.Follows .prefilling .prefilling by decide)

theorem prefillState_prefilling_iff : (prefillState role size rss window reserve).kind = .prefilling ↔
    window.pastEnd ≠ size := by
  unfold prefillState
  split
  next h => split <;> simp [kind, h]
  next h => simp [kind, h]

end

variable {budget : Int} {op : PrefillOperation}

theorem ChunkDone.stepOf (h : ChunkDone r req budget op r')
    (hf : r.sched.findRequest req.id = some req) : ∃ req' window, StepOf r req req' r' ∧ Carries op req window ∧
      (req'.state.kind = .prefilling ↔ window.pastEnd ≠ req.prefillSize) ∧ window.pastEnd ≤ req.prefillSize ∧
      window.replay = 0 ∧ window.size ≤ budget.toNat ∧ req'.state.resources?.isSome ∧
      req'.state.RunsIn op.requestPoolIndex := by
  obtain ⟨chunk, r₁, hg, hp, hsi, hb, fn, held, window, reserve, hfo, hst, hc, hw', rfl⟩ := h
  obtain ⟨c, rss, rss', hs, hw, ht, hh, hf1⟩ := hg.find hf
  obtain rfl := mem_unique hf1 hfo
  obtain ⟨reserve', hr⟩ : ∃ reserve', req.state = .prefilling rss window reserve' := by
    rw [toState_state] at hst
    cases hr : req.state <;> rw [hr] at hst hs <;> cases hst
    cases hs
    exact ⟨_, rfl⟩
  obtain rfl : held = rss' := by
    rw [toState_state, hr] at hst
    exact (prefilling.inj hst).1.symm
  refine ⟨req.toState (prefillState r₁.sched.config.role req.prefillSize held
      { first := window.pastEnd, size := chunk.tokens } chunk.decodeReserve),
        { first := window.pastEnd, size := chunk.tokens },
    ⟨⟨c, ?_⟩, rfl, hg.batch.trans (by constructor <;> rfl), ?_⟩, { hc with },
    prefillState_prefilling_iff _ _ _ _ _, ?_, rfl, hb, by
      rw [toState_state, resources?_prefillState]; rfl,
    .of_held (resources?_prefillState _ _ _ _ _) (prefillState_kind _ _ _ _ _).owns.2 hw'⟩
  · show r₁.sched.setRequest _ = _
    rw [hh]
    exact setRequest_setRequest rfl
  · rw [hr]
    exact .paged rfl (resources?_prefillState _ _ _ _ _) hw ht (prefillState_kind _ _ _ _ _)
  · rw [unscheduledPrefillSize, hr] at hsi
    simp only [Window.pastEnd] at hsi ⊢
    omega

variable {req' : Request}

theorem StepOf.moves (h : StepOf r req req' r') (hf : r.sched.findRequest req.id = some req) :
    Silent may r.sched r'.sched := by
  obtain ⟨c, hs⟩ := h.sched
  rw [hs]
  exact silent_keep hf h.id h.state

/-! ## Attempts -/

structure Declined (r r' : Round) : Prop where
  batch : SameBatch r r'
  core : r'.sched.core = r.sched.core

theorem Refused.declined (h : Refused r req r') : Declined r r' := by
  obtain ⟨c, hs⟩ := h.sched
  exact ⟨h.batch, by rw [hs]; rfl⟩

theorem FirstRefused.declined (h : FirstRefused r r') : Declined r r' := by
  rcases h with rfl | rfl
  · exact ⟨SameBatch.refl r', rfl⟩
  · exact ⟨by constructor <;> rfl, rfl⟩

structure Joined (may : May) (r : Round) (req req' : Request) (r' : Round) : Prop where
  batch : SameBatch r r'
  config : r'.sched.config = r.sched.config
  find : r'.sched.findRequest req.id = some req'
  others : ∀ id ≠ req.id, r'.sched.findRequest id = r.sched.findRequest id
  holds : req'.state.resources?.isSome
  moves : Scheduler.Silent may r.sched r'.sched

theorem StepOf.joined (h : StepOf r req req' r') (hf : r.sched.findRequest req.id = some req)
    (hh : req'.state.resources?.isSome) : Joined may r req req' r' := by
  obtain ⟨c, hs⟩ := h.sched
  refine ⟨h.batch, by rw [hs]; rfl, ?_, fun id hn => ?_, hh, h.moves hf⟩
  · rw [hs, ← h.id]
    exact findRequest_setRequest_self (isSome_of_eq_some (h.id ▸ hf))
  · rw [hs]
    exact findRequest_setRequest_ne (h.id ▸ hn)

structure DecodeJoined (may : May) (r : Round) (req req' : Request) (op : DecodeOperation) (r' : Round) : Prop
    extends Joined may r req req' r' where
  kind : req'.state.kind = .decoding
  requestId : op.requestId = req.id
  inputLength : op.inputLength = r.sched.config.decodeTokens
  row : req'.state.RunsIn op.requestPoolIndex

structure PrefillJoined (may : May) (r : Round) (req req' : Request) (budget : Int) (op : PrefillOperation)
    (r' : Round) : Prop extends Joined may r req req' r' where
  requestId : op.requestId = req.id
  row : req'.state.RunsIn op.requestPoolIndex
  within : op.extendPrefixLen + op.inputLength ≤ op.prefillLength
  completes : r.sched.config.role ≠ .d →
    (req'.state.kind = .prefilling ↔ op.extendPrefixLen + op.inputLength ≠ op.prefillLength)
  fits : r.sched.config.role ≠ .d → op.inputLength ≤ budget.toNat

theorem decodeCandidate_joined (may : May) (hf : r.sched.findRequest id = some req) :
    Ensures (r.decodeCandidate id)
      (Outcome (fun op r' => ∃ req', DecodeJoined may r req req' op r') (Declined r)) := by
  refine (decodeCandidate_ensures hf).mono ?_
  rintro ⟨_ | op, r'⟩ ht
  · exact ht.declined
  · have hs : r.sched.findRequest req.id = some req := (findRequest_id hf).symm ▸ hf
    obtain ⟨req', hp, hk, hd, hl, hw⟩ := ht.stepOf hs
    refine ⟨req', ⟨hp.joined hs ?_, hk, hd, hl, hw⟩⟩
    rw [isSome_resources?, hk]
    decide

variable {c : CacheCoordinator} {txn : CacheCoordinator.Txn} {chunk : Scheduler.FirstChunk}
  {m : Scheduler.AdmissionMatch} {sh : Scheduler.FirstChunkShape} {ch : Bool} {holding : CacheCoordinator.Holding}

theorem FirstGranted.submitted
    (h : FirstGranted r req budget chunk r₁ m sh ch txn holding c) : req.state.kind = .submitted := by
  have hm := h.matched
  obtain ⟨_, hs, _⟩ := bind_ok.mp hm
  exact is_iff.mp (assert_ok.mp hs)

theorem publishExtension_groups (fs ep hashes)
    (t : Holding × CacheCoordinator) :
    Ensures (publishExtension fs ep hashes t) fun t' => t'.2.groups = t.2.groups := by
  exact .foldlM_keep (fun t' : Holding × CacheCoordinator => t'.2.groups = t.2.groups)
    rfl fun x _ s h => cacheFullBlocks_groups s.1 [x.1] ep x.2 .chunk h

theorem FirstGranted.groups (h : FirstGranted r req budget chunk r₁ m sh ch txn holding c) :
    c.groups = r.sched.coord.groups :=
  ((publishExtension_groups _ _ _ _).of_ok h.publishes).trans
    ((admit_groups _ _ _ _ _).of_ok h.admits txn rfl)

theorem firstChunkState_kind (role size rss window reserve) : (firstChunkState role size rss window reserve).kind ∈
      [.prefilling, .remotePrefilling, .prefillAwaitingResult, .prefillDone] := by
  unfold firstChunkState
  split
  · exact (show StateKind.remotePrefilling ∈ _ by decide)
  · have := prefillState_kind role size rss window reserve
    revert this
    cases (prefillState role size rss window reserve).kind <;> decide

theorem startPrefixLoad_moves {m m' : TierTransferManager} {pairs op} (h : m.startPrefixLoad c pairs = .ok (op, m')) :
    m' = m.addLoadBack pairs := by
  obtain ⟨_, _, h⟩ := bind_ok.mp h
  obtain ⟨_, _, h⟩ := bind_ok.mp h
  obtain ⟨_, _, h⟩ := bind_ok.mp h
  cases h
  rfl

theorem FirstDone.joined (may : May) (h : FirstDone r req budget op r')
    (hf : r.sched.findRequest req.id = some req) : ∃ req', PrefillJoined may r req req' budget op r' := by
  obtain ⟨chunk, r₁, ⟨m, sh, ch, txn, holding, c, hg⟩, row, rt, transfers, st, hp⟩ := h
  have hs := hg.submitted
  obtain rfl := hg.round_eq
  refine ⟨firstAdmitted ((r.setCoord c).recordAdmittedPages txn.result) req chunk row, ⟨?_, ?_, ?_, ?_, ?_, ?_⟩,
    hp.carries.requestId, ?_, ?_, ?_, ?_⟩
  · exact SameBatch.trans (by constructor <;> rfl) hp.batch
  · rw [hp.sched]; rfl
  · rw [hp.sched]
    exact findRequest_setRequest_self
      (r := firstAdmitted ((r.setCoord c).recordAdmittedPages txn.result) req chunk row) (isSome_of_eq_some hf)
  · intro id hne
    rw [hp.sched]
    exact findRequest_setRequest_ne
      (r := firstAdmitted ((r.setCoord c).recordAdmittedPages txn.result) req chunk row) hne
  · rw [firstAdmitted, toState_state, resources?_firstChunkState]; rfl
  · have hm : Move may r.sched.core []
      ({ r.sched.core with rows := { r.sched.core.rows with freeSlots := rt } }.setRequest
        (firstAdmitted ((r.setCoord c).recordAdmittedPages txn.result) req chunk row)) :=
      .enter hf rfl hs hp.rows (resources?_firstChunkState _ _ _ _ _) rfl rfl
        (firstChunkState_kind _ _ _ _ _)
    have hc : r'.sched.core = ({ r.sched.core with rows := { r.sched.core.rows with freeSlots := rt } }.setRequest
        (firstAdmitted ((r.setCoord c).recordAdmittedPages txn.result) req chunk row)).setTransfers transfers := by
      rw [hp.sched]; rfl
    rw [Silent, hc]
    rcases hp.loads with ⟨_, ht, _⟩ | ⟨_, hl, _⟩
    · rw [ht]
      exact .single hm
    · rw [startPrefixLoad_moves hl]
      exact (Moves.single hm).then_silent (Moves.single .load)
  · exact .of_held (resources?_firstChunkState _ _ _ _ _)
      (StateKind.owns_of_entered (firstChunkState_kind _ _ _ _ _)) hp.pool
  · have := hp.carries.extendPrefixLen
    have hn := hp.carries.inputLength
    have hsi := hg.tokens_le
    have hpo := hg.tokens_pos
    rw [hp.carries.prefillLength]
    simp only [firstWindow, hg.hitTokens] at this hn
    omega
  · intro hr
    have hfr := hp.carries.extendPrefixLen
    have hn := hp.carries.inputLength
    rw [hp.carries.prefillLength, firstAdmitted, toState_state, firstChunkState,
      if_neg (show ((r.setCoord c).recordAdmittedPages txn.result).sched.config.role ≠ .d from hr),
      prefillState_prefilling_iff, Window.pastEnd]
    omega
  · intro hr
    have hn := hp.carries.inputLength
    have hb := hg.budget_le hr
    have hy : ((r.setCoord c).recordAdmittedPages txn.result).sched.coord.replayTokens sh.hitTokens =
        r.sched.coord.replayTokens sh.hitTokens := by
      show c.replayTokens sh.hitTokens = _
      rw [replayTokens, replayWindowTokens, hg.groups]
      rfl
    simp only [firstWindow, hg.hitTokens] at hn
    rw [if_neg (show ((r.setCoord c).recordAdmittedPages txn.result).sched.config.role ≠ .d from hr)] at hn
    rw [hn, hy]
    exact hb

theorem ChunkDone.joined (may : May) (h : ChunkDone r req budget op r')
    (hf : r.sched.findRequest req.id = some req) : ∃ req', PrefillJoined may r req req' budget op r' := by
  obtain ⟨req', window, hs, hc, hco, hd, hr, hb, hh, hw⟩ := h.stepOf hf
  have hl := hc.inputLength
  have hn := hc.extendPrefixLen
  rw [hr, Nat.add_zero] at hl hn
  refine ⟨req', ⟨hs.joined hf hh, hc.requestId, hw, ?_, fun _ => ?_, fun _ => hl ▸ hb⟩⟩
  · rw [hn, hl, hc.prefillLength]
    exact hd
  · rw [hco, hn, hl, hc.prefillLength]
    rfl

theorem schedulePrefillCandidate_joined (may : May) {dr} (hf : r.sched.findRequest id = some req) :
    Ensures (r.schedulePrefillCandidate id budget dr)
      (Outcome (fun op r' => ∃ req', PrefillJoined may r req req' budget op r') (Declined r)) := by
  have hs := find_self hf
  unfold schedulePrefillCandidate
  rw [hf]
  refine .ite (fun _ => ?_) fun _ => ?_
  · refine (chunkCandidate_ensures r req budget dr).mono ?_
    rintro ⟨_ | op, r'⟩ ht
    · exact ht.declined
    · exact ht.joined may hs
  · refine (firstChunkCandidate_ensures r req budget dr).mono ?_
    rintro ⟨_ | op, r'⟩ ht
    · exact ht.declined
    · exact ht.joined may hs

/-! ## Stores of a retraction -/

theorem mem_waitFor {ops op x} (h : x ∈ TierTransferManager.waitFor ops op) : x ∈ ops ∨ x = op := by
  unfold TierTransferManager.waitFor at h
  split at h
  · exact .inl h
  · simpa using h

theorem inFlightHostBlock_mem {m : TierTransferManager} {key l op}
    (h : m.inFlightHostBlock key = some (l, op)) : op ∈ m.writeBacks.map (·.1) := by
  obtain ⟨x, hx, hf⟩ := exists_of_findSome?_eq_some h
  obtain ⟨tc, _, ht⟩ := map_eq_some_iff.mp hf
  cases ht
  exact mem_map_of_mem hx

theorem serveSlot_ensures (m : TierTransferManager) (leg : TierTransferManager.HostLeg) (entry : Nat × ImageSlot) :
    Ensures (m.serveSlot leg entry) fun leg' => ∀ op ∈ leg'.waiting, op ∈ leg.waiting ∨
      op ∈ m.writeBacks.map (·.1) := by
  refine .skip fun ⟨cc, c⟩ _ => ?_
  cases cc with
  | some host => exact .pure fun op h => .inl h
  | none =>
    dsimp only
    split
    next host oi hf =>
      refine .skip fun c _ => .pure fun op h => (mem_waitFor h).imp_right ?_
      rintro rfl
      exact inFlightHostBlock_mem hf
    next => exact .pure fun op h => .inl h

theorem serveSlots_ensures (m : TierTransferManager) (c) (pb : Nat → List ImageSlot) :
    Ensures (m.serveSlots c pb) fun leg => ∀ op ∈ leg.waiting, op ∈ m.writeBacks.map (·.1) := by
  refine .ite (fun _ => .pure fun _ h => absurd h not_mem_nil) fun _ => ?_
  refine .foldlM_keep (fun leg : TierTransferManager.HostLeg => ∀ op ∈ leg.waiting, op ∈ m.writeBacks.map (·.1))
    ?_ fun entry _ leg hl => ?_
  · exact forall_mem_nil _
  · exact (serveSlot_ensures m leg entry).mono fun leg' h op hp => (h op hp).elim (hl op) id

structure StoresStarted (m : TierTransferManager) (requestId blob : Nat) (pending : List Nat)
    (m' m₁ : TierTransferManager) (destinations : List CacheBlockLocation) : Prop where
  leg : m₁ = m ∨ ∃ writeBack, m₁ = m.addWriteBack writeBack
  snapshot : m' = m₁.addSnapshotStore ⟨requestId, destinations, blob⟩
  waits : ∀ op ∈ pending, op = m₁.nextOpId ∨ op ∈ m₁.writeBacks.map (·.1)

theorem startRetractionStores_ensures (m : TierTransferManager) (c) (ri row blob)
    (tbs : Nat → BlockTable) (nt) :
    Ensures (m.startRetractionStores c ri row blob tbs nt) fun x => (x.1 = none → x.2.1 = m) ∧
      ∀ stores, x.1 = some stores → ∃ m1 destinations,
        StoresStarted m ri blob stores.pendingStoreOps x.2.1 m1 destinations := by
  refine .skip fun pb _ => (serveSlots_ensures m c pb).bind fun leg hl => ?_
  refine .skip fun ⟨al, c⟩ _ => .skip fun tk _ => ?_
  cases tk with
  | none => exact .skip fun c _ => .pure ⟨fun _ => rfl, nofun⟩
  | some tk =>
    obtain ⟨im, prs, c⟩ := tk
    have hh : Ensures (m.startHostLeg c (al.map TierTransferManager.legPair)) fun x =>
        (x.1 = none ∧ x.2.1 = m) ∨ ∃ op writeBack, x.1 = some op ∧ op.opId = m.nextOpId ∧
        x.2.1 = m.addWriteBack writeBack := by
      refine .ite (fun _ => .pure (.inl ⟨rfl, rfl⟩)) fun _ => ?_
      exact .skip fun _ _ => .skip fun _ _ => .pure (.inr ⟨_, _, rfl, rfl, rfl⟩)
    refine hh.bind fun ⟨hostStore, m1, c⟩ hm1 => ?_
    have hn : Ensures (m1.startSnapshotStore c ri row blob prs) fun x =>
        x.1.opId = m1.nextOpId ∧ ∃ destinations, x.2.1 = m1.addSnapshotStore ⟨ri, destinations, blob⟩ :=
      .skip fun _ _ => .skip fun _ _ => .pure ⟨rfl, _, rfl⟩
    refine hn.bind fun ⟨op, m2, c⟩ hp => .pure ⟨nofun, ?_⟩
    rintro stores ⟨⟩
    obtain ⟨hd, destinations, hm2⟩ := hp
    refine ⟨m1, destinations, ?_, hm2, fun x hx => ?_⟩
    · exact hm1.imp And.right fun ⟨_, writeBack, _, _, h⟩ => ⟨writeBack, h⟩
    · rcases mem_waitFor hx with hx | rfl
      · refine .inr ?_
        rcases hm1 with ⟨rfl, rfl⟩ | ⟨st, writeBack, rfl, hs, rfl⟩
        · exact hl x hx
        · simp only [TierTransferManager.addWriteBack, map_append, mem_append]
          rcases mem_waitFor hx with hx | rfl
          · exact .inl (hl x hx)
          · exact .inr (by simp [hs])
      · exact .inl hd

/-! ## Acts -/

def Built (may : May) (r r' : Round) : Prop :=
  ∃ new, r'.operations = r.operations ++ new ∧
    Moves may r.sched.core (new.map fun op => .scheduled op.row.requestId) r'.sched.core

theorem Built.refl (r) : Built may r r := ⟨[], (append_nil _).symm, Moves.refl _⟩

theorem Built.trans (h : Built may r r₁) (h' : Built may r₁ r₂) : Built may r r₂ := by
  obtain ⟨new, hs, hm⟩ := h
  obtain ⟨new', hs', hm'⟩ := h'
  refine ⟨new ++ new', by rw [hs', hs, append_assoc], ?_⟩
  rw [map_append]
  exact hm.trans hm'

theorem Built.of_silent (hs : r'.operations = r.operations) (h : Silent may r.sched r'.sched) :
    Built may r r' :=
  ⟨[], by rw [hs, append_nil], h⟩

theorem Declined.built (h : Declined r r') : Built may r r' :=
  .of_silent h.batch.operations (Silent.of_core h.core)

variable {held : ForwardResources}

theorem Joined.track (h : Joined may r req req' r₁)
    (hh : req'.state.resources? = some held) (op) :
    (r₁.pushOperation req.id op).trackScheduledForward req.id = { r₁.pushOperation req.id op with
      sched := r₁.sched.setRequest (req'.toState (req'.state.withResources
        { held with resultsInFlight := held.resultsInFlight + 1 })) } := by
  unfold trackScheduledForward
  rw [show (r₁.pushOperation req.id op).sched.findRequest req.id = some req' from h.find]
  dsimp only
  rw [Request.trackScheduledForward, hh]
  rfl

theorem Joined.built {op : ForwardOperation} (h : Joined may r req req' r₁) (hd : op.row.requestId = req.id) :
    Built may r ((r₁.pushOperation req.id op).trackScheduledForward req.id) := by
  obtain ⟨held, hh⟩ := isSome_iff_exists.mp h.holds
  have hr' : req'.id = req.id := findRequest_id h.find
  have ht := h.track hh op
  refine ⟨[op], ?_, ?_⟩
  · rw [ht]
    show r₁.operations ++ [op] = _
    rw [h.batch.operations]
  · rw [ht]
    have hm : Move may r₁.sched.core [.scheduled req'.id] (r₁.sched.core.setRequest (req'.toState
        (req'.state.withResources { held with resultsInFlight := held.resultsInFlight + 1 }))) :=
      .track (show r₁.sched.core.find req'.id = some req' from hr'.symm ▸ h.find) hh
    have := Moves.trans h.moves (Moves.single hm)
    rw [map_cons, map_nil, hd, ← hr']
    exact this

theorem Grant.joined {op : ForwardOperation} (may : May) (h : Grant r req op r₁)
    (hf : r.sched.findRequest req.id = some req) :
    ∃ req', Joined may r req req' r₁ ∧ op.row.requestId = req.id := by
  cases h with
  | decode dn =>
    obtain ⟨req', hs, hk, hd, _⟩ := dn.stepOf hf
    refine ⟨req', hs.joined hf ?_, hd⟩
    rw [isSome_resources?, hk]
    decide
  | chunk dn =>
    obtain ⟨req', window, hs, hc, _, _, _, _, hh, _⟩ := dn.stepOf hf
    exact ⟨req', hs.joined hf hh, hc.requestId⟩
  | first dn =>
    obtain ⟨req', hj⟩ := dn.joined may hf
    exact ⟨req', hj.toJoined, hj.requestId⟩

theorem Refusal.declined (h : Refusal r req r') : Declined r r' := by
  cases h with
  | resident rf | first rf => exact rf.declined

variable {victim : Request}

theorem publishes_moves {s s' : Scheduler} {next} (h : Publishes s victim next s')
    (hf : s.findRequest victim.id = some victim)
    (hk : victim.state.kind ∈ [.prefilling, .prefillDone, .decoding]) : Silent may s s' := by
  obtain ⟨c, held, held', hh, hr, ht, hn, hs⟩ := h.sched
  rw [hs, hn]
  refine silent_keep hf rfl ?_
  refine .paged hh (resources?_withResources held' hh) hr ht ?_
  rw [toState_state, kind_withResources]
  simp only [mem_cons, not_mem_nil, or_false] at hk
  rcases hk with h | h | h <;> rw [h] <;> decide

theorem allocate_ok {a : SharedSlots} {sl a'} (h : a.allocate = .ok (sl, a')) :
    ∃ rt, a.slots.freeSlots = sl :: rt ∧
      a' = ⟨{ a.slots with freeSlots := rt }, update a.owners sl 1⟩ := by
  unfold SharedSlots.allocate ReqPoolAllocator.allocate at h
  cases hf : a.slots.freeSlots with
  | nil => rw [hf] at h; exact nomatch h
  | cons x rt =>
    rw [hf] at h
    cases h
    exact ⟨rt, rfl, rfl⟩

variable {row cm blob : Nat} {transfers : TierTransferManager} {sls : SharedSlots}

theorem ImageRefused.moves
    (h : ImageRefused r victim r' held cm row blob sls transfers c) : Silent may r.sched r'.sched := by
  obtain ⟨rt, hf, hs⟩ := allocate_ok h.allocates
  have ht := ((startRetractionStores_ensures _ _ _ _ _ _ _).of_ok h.starts).1 rfl
  have hc : r'.sched.core = { r.sched.core with blobs :=
      ⟨{ r.sched.core.blobs.slots with freeSlots := rt ++ [blob] }, update r.sched.core.blobs.owners blob 0⟩ } := by
    rw [h.round, hs]
    simp [core, SharedSlots.release, ReqPoolAllocator.deallocate, show transfers = r.sched.transfers from ht]
  rw [Silent, hc]
  exact .single (.spin hf)

theorem resumeShape_resumesAs {sh : ResumeShape}
    (h : resumeShape state = some (held, sh)) : sh.kind = state.kind := by
  cases state <;> cases h <;> rfl

theorem ImageStored.moves {sh stores c'} (h : ImageStored r victim r' held sh cm row blob sls stores transfers c c')
    (hf : r.sched.findRequest victim.id = some victim)
    (hk : victim.state.kind ∈ [.prefilling, .prefillDone, .decoding]) :
    Silent may r.sched r'.sched := by
  obtain ⟨rt, hr, hl⟩ := allocate_ok h.allocates
  obtain ⟨m1, dss, hs⟩ := ((startRetractionStores_ensures _ _ _ _ _ _ _).of_ok h.starts).2 stores rfl
  have hg : Moves may r.sched.core [] (r.sched.core.setTransfers m1) := by
    rcases hs.leg with rfl | ⟨wb, rfl⟩
    · exact .refl _
    · exact .single .store
  have hsh : sls.share blob =
      ⟨{ r.sched.snapshotSlots.slots with freeSlots := rt }, update r.sched.snapshotSlots.owners blob 2⟩ := by
    rw [hl]
    simp [SharedSlots.share]
  have hh := h.retracts.sched
  rw [h.owns] at hh
  generalize hn : { victim with retractionCount := victim.retractionCount + 1 }.toState _ = next at hh
  have hc : r'.sched.core = { (r.sched.core.setTransfers m1).returnRow held.reqPoolIndex with
      blobs := ⟨{ r.sched.core.blobs.slots with freeSlots := rt }, update r.sched.core.blobs.owners blob 2⟩
      transfers := m1.addSnapshotStore ⟨victim.id, dss, blob⟩ }.setRequest next := by
    rw [hh, h.owns, ← show transfers = _ from hs.snapshot]
    exact congrArg (fun blobs =>
      (⟨r.sched.config, (r.sched.setRequest next).requests, r.sched.reqPool.deallocate row, blobs,
      transfers, r.sched.maxSingleRequestTokens⟩ : Core)) hsh
  rw [Silent, hc]
  subst hn
  exact hg.then_silent (.single (.retract hf rfl hk h.holds h.retracts.quiet hr rfl rfl
    (congrArg some (resumeShape_resumesAs h.retracts.shape_eq)) hs.waits))

theorem RetractOutcome.built {x} (h : RetractOutcome r victim x) (hf : r.sched.findRequest victim.id = some victim)
    (hk : victim.state.kind ∈ [.prefilling, .prefillDone, .decoding]) : Built may r x.2 := by
  cases h with
  | noSlot _ => exact Built.refl r
  | @tried s next x _ pbs ims =>
    have hp : Silent may r.sched s := publishes_moves pbs hf hk
    obtain ⟨_, _, _, _, _, _, hn, _⟩ := pbs.sched
    obtain ⟨_, hfo⟩ := pbs.find hf
    have hk' : next.state.kind ∈ [.prefilling, .prefillDone, .decoding] := by
      rw [hn, toState_state, kind_withResources]
      exact hk
    obtain ⟨_ | sr, r'⟩ := x
    · obtain ⟨_, _, _, _, _, _, _, _, _, _, hm⟩ := ims
      refine .of_silent (by rw [hm.round]) (hp.trans ?_)
      exact hm.moves hfo hk'
    · obtain ⟨_, _, _, _, _, _, _, hm⟩ := ims
      refine .of_silent (by rw [hm.round]) (hp.trans ?_)
      exact hm.moves

theorem Restores.built {rt} {dms : Nat → GroupDemand} {pool op} (h : Restores r req rt r' dms txn row pool op transfers)
    (hf : r.sched.findRequest req.id = some req) (ht : req.state = .retracted rt) : Built may r r' := by
  obtain ⟨re, hr, rfl⟩ : ∃ re, r.sched.reqPool.freeSlots = row :: re ∧
      pool = { r.sched.reqPool with freeSlots := re } := by
    have hl := h.allocates
    unfold ReqPoolAllocator.allocate at hl
    split at hl
    next => exact nomatch hl
    next sl re hq =>
      cases hl
      exact ⟨re, hq, rfl⟩
  have hs : op.opId = r.sched.transfers.nextOpId ∧ transfers = r.sched.transfers.addSnapshotRestore
      ⟨req.id, txn.result.loadPairs, txn.result.snapshotPairs, rt.blobSlot, row⟩ := by
    have hk := h.starts
    obtain ⟨_, _, hk⟩ := bind_ok.mp hk
    obtain ⟨_, _, hk⟩ := bind_ok.mp hk
    obtain ⟨_, _, hk⟩ := bind_ok.mp hk
    cases hk
    exact ⟨rfl, rfl⟩
  refine .of_silent (by rw [h.round]; rfl) ?_
  have hc : r'.sched.core = { r.sched.core with
      rows := { r.sched.core.rows with freeSlots := re }
      blobs := r.sched.core.blobs.share rt.blobSlot
      transfers := r.sched.core.transfers.addSnapshotRestore
        ⟨req.id, txn.result.loadPairs, txn.result.snapshotPairs, rt.blobSlot, row⟩ }.setRequest
      (restoringRequest req rt txn.holding.tables op.opId) := by
    rw [h.sched, hs.2]
    rfl
  rw [Silent, hc]
  exact .single (.restore hf rfl ht h.lands hr rfl rfl rfl hs.1 rfl rfl)

theorem Act.built (h : Act r r') : Built may r r' := by
  cases h with
  | book bks => exact .of_silent bks.operations (Silent.of_core (by rw [bks.sched]))
  | arm => exact .of_silent rfl (Silent.of_core rfl)
  | decline _ rf => exact rf.declined.built
  | join fn gr =>
    obtain ⟨req', hj, hd⟩ := gr.joined may fn
    exact hj.built hd
  | remote fn gr jns =>
    obtain ⟨req', hj, hd⟩ := gr.joined may fn
    rcases jns with rfl | rfl <;> exact .of_silent hj.batch.operations hj.moves
  | retract fn kn _ retracts => exact retracts.built fn kn
  | abort fn qt ab =>
    refine .of_silent rfl ((applyAbort_moves fn fun ht => ?_).of_ok ab)
    exact absurd qt (Nat.pos_iff_ne_zero.mp ht)
  | restore fn state rts => exact rts.built fn state

theorem Acts.built (h : Acts r r') : Built may r r' := by
  induction h with
  | refl => exact Built.refl r
  | tail _ act ih => exact ih.trans act.built

end Round

end TokenSpeed

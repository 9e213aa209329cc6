import TokenSpeed.Scheduler.Lemmas.RoundMoves

/-!
# The moves of the calls

Every call that returns is a sequence of moves. The labels of a plan are the rows of its batch; those
of an `Advance` are the results it was handed for requests that hold pages.
-/

namespace TokenSpeed

open List Option Request

/-! ## Setters -/

namespace Core

variable (c : Core)

def IdsNodup : Prop := (c.requests.map (·.id)).Nodup

theorem setRequest_ids (r) : (c.setRequest r).requests.map (·.id) = c.requests.map (·.id) := by
  simp only [setRequest, List.map_map]
  refine map_congr_left fun x _ => ?_
  by_cases hx : x.id = r.id
  · simp [hx]
  · simp [hx]

@[simp] theorem returnRow_requests (row) : (c.returnRow row).requests = c.requests := by
  cases row <;> rfl

@[simp] theorem returnRow_config (row) : (c.returnRow row).config = c.config ∧
    (c.returnRow row).maxSingleRequestTokens = c.maxSingleRequestTokens := by
  cases row <;> exact ⟨rfl, rfl⟩

@[simp] theorem releaseBlob_requests (blob) : (c.releaseBlob blob).requests = c.requests := by
  cases blob <;> rfl

@[simp] theorem releaseBlob_config (blob) : (c.releaseBlob blob).config = c.config ∧
    (c.releaseBlob blob).maxSingleRequestTokens = c.maxSingleRequestTokens := by
  cases blob <;> exact ⟨rfl, rfl⟩

@[simp] theorem setRequest_config (r) : (c.setRequest r).config = c.config ∧
    (c.setRequest r).maxSingleRequestTokens = c.maxSingleRequestTokens := ⟨rfl, rfl⟩

end Core

/-! ## What every move keeps -/

namespace Move

variable {may : May} {c c' : Core} {out : List Forward}

/-- No id is added but a fresh one, by a call that may submit. -/
theorem ids (h : Move may c out c') : c'.requests.map (·.id) <+ c.requests.map (·.id) ∨
    may.join ∧ ∃ id ∉ c.requests.map (·.id), c'.requests.map (·.id) = c.requests.map (·.id) ++ [id] := by
  cases h with
  | keep | track | report | note | enter | restore | resume => rw [Core.setRequest_ids]; exact .inl (.refl _)
  | leave | retract => rw [Core.setRequest_ids]; simp
  | spin | stored | store | writtenBack | load | loaded | abandon => exact .inl (.refl _)
  | @submit r join fresh _ =>
    refine .inr ⟨join, r.id, fun hm => ?_, by simp⟩
    obtain ⟨x, hx, hd⟩ := mem_map.mp hm
    exact absurd fresh (isSome_iff_ne_none.mp (find?_isSome.mpr ⟨x, hx, by simpa using hd⟩))
  | erase => exact .inl (filter_sublist.map _)

theorem idsNodup (h : Move may c out c') (hc : c.IdsNodup) : c'.IdsNodup := by
  unfold Core.IdsNodup at hc ⊢
  rcases h.ids with hs | ⟨-, id, hn, hs⟩
  · exact hc.sublist hs
  · rw [hs, nodup_append]
    refine ⟨hc, nodup_singleton _, fun a ha b hb hq => ?_⟩
    rw [mem_singleton.mp hb] at hq
    exact hn (hq ▸ ha)

theorem config (h : Move may c out c') :
    c'.config = c.config ∧ c'.maxSingleRequestTokens = c.maxSingleRequestTokens := by
  cases h with
  | leave | retract => simp
  | _ => exact ⟨rfl, rfl⟩

end Move

namespace Moves

variable {may : May} {c c' : Core} {out : List Forward}

theorem idsNodup (h : Moves may c out c') (hc : c.IdsNodup) : c'.IdsNodup := by
  induction h with
  | refl => exact hc
  | tail _ mv ih => exact mv.idsNodup ih

theorem ids (h : Moves may c out c') (hj : ¬ may.join) : c'.requests.map (·.id) <+ c.requests.map (·.id) := by
  induction h with
  | refl => exact .refl _
  | tail _ mv ih => exact (mv.ids.resolve_right fun h => hj h.1).trans ih

theorem config (h : Moves may c out c') :
    c'.config = c.config ∧ c'.maxSingleRequestTokens = c.maxSingleRequestTokens := by
  induction h with
  | refl => exact ⟨rfl, rfl⟩
  | tail _ mv ih => exact ⟨mv.config.1.trans ih.1, mv.config.2.trans ih.2⟩

end Moves

namespace Scheduler

variable {may : May} {s s' : Scheduler} {r r' : Request} {id : Nat}

/-! ## Landed stores -/

theorem applyStoreLanded_ensures {rt : Retracted} (hs : r.state = .retracted rt) (opId)
    (pb) : Ensures (s.applyStoreLanded r opId pb) fun s' => ∃ c image,
      s.coord.followPublished pb rt.image = .ok (image, c) ∧
      s' = (s.setCoord c).setRequest (r.toState (.retracted
        { rt with image := image, pendingStoreOps := rt.pendingStoreOps.filter (· != opId) })) := by
  unfold applyStoreLanded
  rw [hs]
  exact .skip fun ⟨image, c⟩ hl => .pure ⟨c, image, hl, rfl⟩

structure Notes (may : May) (s s' : Scheduler) : Prop where
  core : s'.core = { s.core with requests := s'.requests }
  moves : ∀ k : Core, k.requests = s.requests → Moves may k [] { k with requests := s'.requests }

theorem Notes.refl (s) : Notes may s s := ⟨rfl, fun k hk => by rw [← hk]; exact Moves.refl k⟩

theorem Notes.trans {s1 s2} (h : Notes may s s1) (h' : Notes may s1 s2) : Notes may s s2 where
  core := by rw [h'.core, h.core]
  moves := fun k hk => (h.moves k hk).then_silent (h'.moves { k with requests := s1.requests } rfl)

theorem notes_storeLanded (hf : s.findRequest r.id = some r) {rt : Retracted}
    (hs : r.state = .retracted rt) (opId) (image : Nat → ImageTable) (c) :
    Notes may s ((s.setCoord c).setRequest (r.toState (.retracted
      { rt with image := image, pendingStoreOps := rt.pendingStoreOps.filter (· != opId) }))) := by
  refine ⟨rfl, fun k hk => ?_⟩
  have hm : Move may k [] (k.setRequest (r.toState (.retracted
      { rt with image := image, pendingStoreOps := rt.pendingStoreOps.filter (· != opId) }))) :=
    .note (r := r) (by rw [Core.find, hk]; exact hf) rfl hs rfl
  rw [Core.setRequest, hk] at hm
  exact .single hm

theorem mem_filter_ne {ops : List Nat} {op} : op ∉ ops.filter (· != op) := by
  simp [mem_filter]

theorem noteStoreLanded_notes (may : May) (hf : s.findRequest r.id = some r) (opId) (pb) :
    Ensures (s.noteStoreLanded opId pb r) fun s' => Notes may s s' ∧
      ((s' = s ∧ opId ∉ r.state.pendingOps) ∨ ∃ r' c, s' = (s.setCoord c).setRequest r' ∧ r'.id = r.id ∧
        opId ∉ r'.state.pendingOps) := by
  unfold noteStoreLanded
  split
  next rt hs =>
    refine .ite (fun _ => ?_) fun hw => .pure ⟨.refl s, .inl ⟨rfl, ?_⟩⟩
    · refine (applyStoreLanded_ensures hs opId pb).mono ?_
      rintro _ ⟨c, im, _, rfl⟩
      exact ⟨notes_storeLanded hf hs opId im c, .inr ⟨_, c, rfl, rfl, mem_filter_ne⟩⟩
    · rw [hs, RequestState.pendingOps]
      simpa [Retracted.waitsForStore] using hw
  next hs =>
    refine .pure ⟨.refl s, .inl ⟨rfl, ?_⟩⟩
    cases hr : r.state <;> first | exact not_mem_nil | exact absurd hr (hs _)

theorem noteStoreLandedAll_notes (may : May) (hnd : s.IdsNodup) (opId) (published) :
    Ensures (s.noteStoreLandedAll opId published) fun s' => Notes may s s' ∧
      ∀ r ∈ s'.requests, opId ∉ r.state.pendingOps := by
  -- What was asked so far no longer waits.
  refine Ensures.foldlM (fun rest s' => Notes may s s' ∧ s'.IdsNodup ∧
    ∀ r ∈ s'.requests, r.id ∉ rest → opId ∉ r.state.pendingOps) _ s ⟨.refl s, hnd, ?_⟩ ?_ |>.mono fun s' h =>
      ⟨h.1, fun r hr => h.2.2 r hr not_mem_nil⟩
  · exact fun r hr ht => absurd (mem_map_of_mem hr) ht
  · rintro id rest s' ⟨hs, his, hk⟩
    unfold withRequest
    split
    next hn =>
      refine .pure ⟨hs, his, fun r hr ht => hk r hr ?_⟩
      refine not_mem_cons_of_ne_of_not_mem (fun hq => ?_) ht
      exact findRequest_eq_none_iff.mp hn (hq ▸ mem_map_of_mem hr)
    next r hr =>
      have hd := findRequest_id hr
      refine (noteStoreLanded_notes may (hd.symm ▸ hr) opId published).mono ?_
      rintro s'' ⟨hs', hc⟩
      refine ⟨hs.trans hs', ?_⟩
      rcases hc with ⟨rfl, hp⟩ | ⟨r', c, rfl, hd', hp⟩
      · refine ⟨his, fun x hx ht => ?_⟩
        by_cases hq : x.id = id
        · rw [inj_on_of_nodup_map his hx (findRequest_mem hr) (hq.trans hd.symm)]
          exact hp
        · exact hk x hx (not_mem_cons_of_ne_of_not_mem hq ht)
      · refine ⟨IdsNodup.setRequest his, fun x hx ht => ?_⟩
        rcases mem_setRequest hx with rfl | ⟨hx, hne⟩
        · exact hp
        · refine hk x hx (not_mem_cons_of_ne_of_not_mem (fun hq => hne ?_) ht)
          rw [hq, hd', hd]

theorem handleWriteBackDone_moves (hnd : s.IdsNodup) (opId) : Ensures (s.handleWriteBackDone opId) (Silent may s) := by
  have hm : Ensures (s.transfers.completeWriteBack s.coord opId) fun x =>
      x.2.1 = s.transfers ∨ x.2.1 = { s.transfers with writeBacks := eraseOp s.transfers.writeBacks opId } := by
    unfold TierTransferManager.completeWriteBack
    split
    · exact .pure (.inl rfl)
    · exact .skip fun _ _ => .skip fun _ _ => .pure (.inr rfl)
  refine hm.bind fun ⟨pb, transfers, c⟩ ht => ?_
  have hd : Ensures ((s.setTransfers transfers c).noteStoreLandedAll opId pb) fun s' =>
      Notes may (s.setTransfers transfers c) s' ∧ ∀ r ∈ s'.requests, opId ∉ r.state.pendingOps :=
    noteStoreLandedAll_notes may (show (s.setTransfers transfers c).IdsNodup from hnd) opId pb
  refine hd.bind fun s1 h1 => ?_
  refine .skip fun c' _ => .pure ?_
  have hc : ((s1.queuePublished pb).setCoord c').core = s1.core := by
    unfold queuePublished
    split <;> rfl
  have hs1 : s1.core = { s.core with requests := s1.requests, transfers := transfers } := h1.1.core
  have hn : Moves may s.core [] { s.core with requests := s1.requests } := h1.1.moves s.core rfl
  rw [Silent, hc, hs1]
  rcases ht with hq | hq
  · rw [show transfers = s.transfers from hq]
    exact hn
  · rw [show transfers = _ from hq]
    exact hn.then_silent (.single (.writtenBack h1.2))

theorem handleLoadBackDone_moves (s : Scheduler) (opId) : Ensures (s.handleLoadBackDone opId) (Silent may s) := by
  unfold handleLoadBackDone TierTransferManager.completeLoadBack
  split
  · exact .pure (.refl s)
  · exact .skip fun x hx => by
      obtain ⟨c, _, hx⟩ := bind_ok.mp hx
      cases hx
      exact .pure (.single .loaded)

theorem handleSnapshotDone_moves (hnd : s.IdsNodup) (opId) : Ensures (s.handleSnapshotDone opId) (Silent may s) := by
  unfold handleSnapshotDone TierTransferManager.completeSnapshotStore
  split
  next => exact .pure (.refl s)
  next st hs =>
    refine .skip fun x hx => ?_
    obtain ⟨c, _, hx⟩ := bind_ok.mp hx
    cases hx
    dsimp only
    -- the blob goes back once no request still names the operation
    have hd : ∀ k, k.transfers = s.transfers →
        (∀ r ∈ k.requests, r.id = st.requestId → opId ∉ r.state.pendingOps) →
        Moves may k [] { (k.releaseBlob (some st.blobSlot)) with
          transfers := { k.transfers with snapshotStores := eraseOp k.transfers.snapshotStores opId } } :=
      fun k hk hnt => .single (.stored (by rw [hk]; exact hs) hnt)
    unfold withRequest
    split
    next hn =>
      refine .pure (hd s.core rfl fun r hr hq => ?_)
      exact absurd (hq ▸ mem_map_of_mem hr) (findRequest_eq_none_iff.mp hn)
    next r hr =>
      have hid := findRequest_id hr
      have hon : ∀ x ∈ s.requests, x.id = st.requestId → x = r := fun x hx hq =>
        inj_on_of_nodup_map hnd hx (findRequest_mem hr) (hq.trans hid.symm)
      refine .ite (fun hki => ?_) fun hki => .pure (hd s.core rfl fun x hx hq => ?_)
      · obtain ⟨retracted, hst⟩ : ∃ retracted, r.state = .retracted retracted := by
          have := is_iff.mp hki
          cases hr : r.state <;> rw [hr] at this <;> first | exact ⟨_, rfl⟩ | exact nomatch this
        refine (applyStoreLanded_ensures hst opId []).mono ?_
        rintro _ ⟨c', image, _, rfl⟩
        have ht : Notes may s ((s.setCoord c').setRequest (r.toState (.retracted
            { retracted with image := image, pendingStoreOps := retracted.pendingStoreOps.filter (· != opId) }))) :=
          notes_storeLanded (hid.symm ▸ hr) hst opId image c'
        refine (ht.moves s.core rfl).then_silent (hd _ rfl fun x hx hq => ?_)
        rcases mem_setRequest hx with rfl | ⟨hx, hne⟩
        · exact mem_filter_ne
        · exact absurd (hq.trans hid.symm) hne
      · rw [hon x hx hq]
        cases hr : r.state <;> first | exact not_mem_nil | exact absurd (by rw [is_iff, hr]; rfl) hki

theorem handleRestoreDone_moves (hn : s.IdsNodup) (opId) : Ensures (s.handleRestoreDone opId) (Silent may s) := by
  unfold handleRestoreDone
  split
  next => exact .pure (.refl s)
  next ri hs =>
    obtain ⟨tc, ht, rfl⟩ := map_eq_some_iff.mp hs
    unfold TierTransferManager.completeSnapshotRestore
    rw [ht]
    refine .skip fun x hx => ?_
    obtain ⟨_, _, hx⟩ := bind_ok.mp hx
    obtain ⟨_, _, hx⟩ := bind_ok.mp hx
    obtain ⟨_, _, hx⟩ := bind_ok.mp hx
    obtain ⟨c, _, hx⟩ := bind_ok.mp hx
    cases hx
    refine .ite (fun hrs => ?_) fun hg => .pure (.single (.abandon ht ?_))
    · unfold resumes at hrs
      obtain ⟨r, hr, hm⟩ : ∃ r, s.findRequest tc.requestId = some r ∧ _ = true := by
        simpa [Option.any_eq_true] using hrs
      split at hm
      next rest hst =>
        have hp : rest.restoreOp = opId := by simpa using hm
        unfold withRequest
        rw [show ((s.setTransfers _ c).releaseBlob tc.blobSlot).findRequest tc.requestId = some r from hr]
        dsimp only
        unfold applyRestoreDone
        rw [hst]
        refine .skip fun _ _ => .skip fun c' _ => .pure (.single ?_)
        have hd := findRequest_id hr
        subst hp
        let held : ForwardResources := { rest.resources with reqPoolIndex := some tc.requestPoolIndex }
        have hh : (r.toState (resumed held rest.shape)).state.resources? = some held := by
          rw [toState_state]
          cases rest.shape <;> rfl
        refine .resume (r := r) (hd.symm ▸ hr) rfl hst ht hd.symm hh rfl rfl ?_
        rw [hst, toState_state]
        cases h : rest.shape <;> simp [RequestState.resumesAs?, resumed, ResumeShape.kind, RequestState.kind, h]
      next => cases hm
    · intro r hr rest hst hd hq
      refine hg ?_
      unfold resumes
      rw [← hd, hn.find hr, any_some, hst]
      simpa using hq

/-! ## Events of requests -/

def Waiting (s : Scheduler) (id : Nat) : Prop := ∃ r, s.findRequest id = some r ∧ r.state.admission?.isSome

theorem waiting_setRequest (hd : (s.findRequest r'.id).isSome) (hs : r'.state.admission?.isSome) :
    (s.setRequest r').Waiting r'.id :=
  ⟨r', findRequest_setRequest_self hd, hs⟩

theorem continuation_admission (ab ad) : (continuation ab ad).admission?.isSome := by
  cases ab <;> rfl

section

variable (hf : s.findRequest r.id = some r)
include hf

theorem leavePrefetch_waiting (hs : r.state.admission?.isSome) : Ensures (s.leavePrefetch r) (·.Waiting r.id) := by
  unfold leavePrefetch
  split
  next =>
    refine .skip fun st _ => ?_
    unfold applyFinishPrefetch
    split
    next => exact .pure (@waiting_setRequest _ (r.toState _) (isSome_of_eq_some hf) (continuation_admission _ _))
    next => exact ensures_error
  next => exact .pure ⟨r, hf, hs⟩

theorem leaveHold_waiting (ht : r.state.admission?.isSome) : Ensures (s.leaveHold r) (·.Waiting r.id) := by
  unfold leaveHold
  split
  next => exact .pure ⟨r, hf, ht⟩
  next =>
    refine (detachStorageHold_core _).bind fun s' hs' => .pure ?_
    refine @waiting_setRequest _ (r.toState _) ?_ ?_
    · have hs : s'.findRequest r.id = s.findRequest r.id := congrArg (·.find r.id) hs'
      exact isSome_of_eq_some (hs.trans hf)
    · cases hr : r.state <;> rw [hr] at ht <;> first | rfl | exact nomatch ht

theorem releaseStorage_state : Ensures (s.releaseStorage r) fun s' => s' = s ∨ s'.Waiting r.id := by
  refine .ite (fun _ => ?_) fun _ => .pure (.inl rfl)
  cases hm : r.state.admission? with
  | none =>
    have hl : s.leavePrefetch r = .ok s := by
      unfold leavePrefetch
      split
      next ht => rw [ht] at hm; exact nomatch hm
      next => rfl
    rw [hl]
    refine .mono ?_ fun s' h => .inl h
    refine withRequest_ensures rfl fun r' hr' => ?_
    rw [hf] at hr'
    cases hr'
    unfold leaveHold
    rw [hm]
    exact .pure rfl
  | some ad =>
    have hw : r.state.admission?.isSome := by rw [hm]; rfl
    refine (leavePrefetch_waiting hf hw).bind fun s' hs' => ?_
    obtain ⟨r', hr', ht'⟩ := hs'
    refine .mono (P := (·.Waiting r.id)) ?_ fun s' h => .inr h
    refine withRequest_ensures ⟨r', hr', ht'⟩ fun r'' hr'' => ?_
    rw [hr'] at hr''
    cases hr''
    have hd := findRequest_id hr'
    rw [← hd]
    exact leaveHold_waiting (hd.symm ▸ hr') ht'

end

theorem forwardsOut_of_admission {st : RequestState} (h : st.admission?.isSome) : st.forwardsOut = 0 := by
  cases st <;> first | rfl | exact nomatch h

theorem releaseThen_moves {ev : Scheduler → Request → Result Scheduler} (hf : s.findRequest r.id = some r)
    (hv : ∀ s r', s.findRequest r'.id = some r' →
      r'.state = r.state ∨ r'.state.admission?.isSome → Ensures (ev s r') (Silent may s)) :
    Ensures (s.releaseThen r ev) (Silent may s) := by
  refine ((releaseStorage_moves hf : Ensures _ (Silent may s)).and (releaseStorage_state hf)).bind fun s' hs' => ?_
  refine withRequest_ensures hs'.1 fun r' hr' => ?_
  have hd := findRequest_id hr'
  refine (hv s' r' (hd.symm ▸ hr') ?_).mono fun s'' h => hs'.1.trans h
  rcases hs'.2 with rfl | ⟨x, hx, ht⟩
  · rw [hf] at hr'
    cases hr'
    exact .inl rfl
  · rw [hx] at hr'
    cases hr'
    exact .inr ht

def tears (s : Scheduler) : OutsideEvent → Bool
  | .abort id | .failed id => (s.findRequest id).any fun r =>
    r.state.kind != .restoring && decide (0 < r.state.forwardsOut)
  | _ => false

def reports (s : Scheduler) : OutsideEvent → List Forward
  | .extendResult id _ _ => if (s.findRequest id).any fun r => r.state.resources?.isSome then [.reported id] else []
  | _ => []

theorem releaseAbort_moves (hf : s.findRequest id = some r)
    (ht : ((s.findRequest id).any fun r => r.state.kind != .restoring && decide (0 < r.state.forwardsOut)) = true →
      may.tear) :
    Ensures (s.releaseThen r applyAbort) (Silent may s) := by
  have hd := findRequest_id hf
  refine releaseThen_moves (hd.symm ▸ hf) fun s' r' hr' hs => applyAbort_moves hr' fun hou hk => ht ?_
  rcases hs with hq | hw
  · rw [hf, any_some, ← hq]
    simpa using ⟨hk, hou⟩
  · rw [forwardsOut_of_admission hw] at hou
    exact absurd hou (Nat.lt_irrefl 0)

theorem applyExtendResult_setRequest {tokens} {x : Request} (hd : x.id = r.id) :
    (s.setRequest x).applyExtendResult r tokens = s.applyExtendResult r tokens := by
  unfold applyExtendResult
  have hs : ∀ r', r'.id = r.id → (s.setRequest x).setRequest r' = s.setRequest r' := fun r' h =>
    setRequest_setRequest (h.trans hd.symm)
  split
  all_goals simp only [hs _ rfl, hs { r with tokens := r.tokens ++ tokens } rfl]
  rw [hs]
  rfl

theorem storeSpecCandidates_moves (hf : s.findRequest r.id = some r) (ids) :
    Ensures (s.storeSpecCandidates ids r) (Silent may s) := by
  refine .pure ?_
  split
  · exact .refl s
  · exact silent_keep hf rfl (.refl _)

theorem handleExtendResult_moves (hf : s.findRequest r.id = some r) (tokens ids) :
    Ensures (s.handleExtendResult tokens ids r) fun s' =>
      Moves may s.core (if r.state.resources?.isSome then [.reported r.id] else []) s'.core := by
  unfold handleExtendResult
  have ht : ∀ s r, s.findRequest r.id = some r →
      Ensures (do
        let s ← s.applyExtendResult r tokens
        s.withRequest r.id fun s r => s.storeSpecCandidates ids r) (Silent may s) := by
    intro s r hr
    refine (applyExtendResult_moves hr tokens : Ensures _ (Silent may s)).bind fun s' hs' => ?_
    exact (withRequest_moves fun r' hr' => storeSpecCandidates_moves hr' ids).mono fun s'' h => hs'.trans h
  unfold noteResultLanded
  cases hh : r.state.resources? with
  | none => exact ht s r hf
  | some held =>
    -- the result is counted off before the request moves on
    refine .bind (Q := fun r' => 0 < held.resultsInFlight ∧
      r' = r.toState (r.state.withResources { held with resultsInFlight := held.resultsInFlight - 1 }))
      (.fatalCheck fun hou => .pure ⟨of_decide_eq_true hou, rfl⟩) ?_
    rintro r' ⟨hou, rfl⟩
    generalize hn : r.toState (r.state.withResources { held with resultsInFlight := held.resultsInFlight - 1 }) = r'
    have hd : r'.id = r.id := by rw [← hn]; rfl
    have hp : Moves may s.core [.reported r.id] (s.setRequest r').core := by
      rw [← hn]
      exact .single (.report hf hh hou)
    have ht' := ht (s.setRequest r') r' (findRequest_setRequest_self (by rw [hd, hf]; rfl))
    rw [applyExtendResult_setRequest rfl] at ht'
    exact ht'.mono fun s' h => hp.then_silent h

theorem handleStorageTick_moves (s : Scheduler) (nu) (pr) (als af) :
    Ensures (s.handleStorageTick nu pr als af) (Silent may s) := by
  have hp : ∀ s r, s.findRequest r.id = some r → Ensures (s.expireIfDue r) (Silent may s) :=
    fun s r hr => .ite (fun _ => releaseStorage_moves hr) fun _ => .pure (.refl s)
  refine .assert fun _ => ?_
  split <;> refine .skip fun st _ => ?_
  all_goals exact (foldlM_withRequest_moves _ hp _).mono fun s' h => .trans (.of_core rfl) h

theorem handleEvent_moves (hn : s.IdsNodup) (ev) (ht : s.tears ev = true → may.tear) :
    Ensures (s.handleEvent ev) fun s' => Moves may s.core (s.reports ev) s'.core := by
  cases ev with
  | bootstrapped id =>
    refine withRequest_moves fun r hr => ?_
    exact .ite (fun _ => applyBootstrapped_moves hr) fun _ => .pure (.refl s)
  | failed id =>
    refine withRequest_ensures (Silent.refl s) fun r hr => ?_
    exact Ensures.ite (fun _ => ensures_pure.mpr (Silent.refl s)) fun _ => releaseAbort_moves hr ht
  | abort id => exact withRequest_ensures (Silent.refl s) fun r hr => releaseAbort_moves hr ht
  | succeeded id =>
    refine withRequest_moves fun r hr => ?_
    refine .ite (fun _ => .pure (.refl s)) fun _ => .assert fun _ => ?_
    exact releaseThen_moves hr fun s' r' hr' _ => applyFinish_moves hr'
  | remotePrefillDone id tk =>
    refine @withRequest_moves _ _ id (fun s r => s.handleRemotePrefillDone tk r) fun r hr => ?_
    refine .ite (fun _ => .assert fun _ => applyRemotePrefillDone_moves hr tk) fun _ => ?_
    exact .assert fun _ => .pure (.refl s)
  | finish id =>
    refine withRequest_moves fun r hr => .assert fun _ => ?_
    exact releaseThen_moves hr fun s' r' hr' _ => applyFinish_moves hr'
  | updateReserve id vl =>
    exact @withRequest_moves _ _ id (fun s r => s.handleUpdateReserve vl r) fun r hr => applyUpdateReserve_moves hr vl
  | extendResult id tokens sci =>
    simp only [handleEvent, withRequest, reports]
    cases hr : s.findRequest id with
    | none => exact ensures_pure.mpr (Silent.refl s)
    | some r =>
      have hd := findRequest_id hr
      rw [any_some, ← hd]
      exact handleExtendResult_moves (hd.symm ▸ hr) tokens sci
  | writeBackDone opId => exact handleWriteBackDone_moves hn opId
  | loadBackDone opId => exact handleLoadBackDone_moves s opId
  | snapshotDone opId => exact handleSnapshotDone_moves hn opId
  | restoreDone opId => exact handleRestoreDone_moves hn opId
  | storageTick nu pr als af => exact handleStorageTick_moves s nu pr als af
  | storageDone ev => exact Ensures.assert fun _ => Ensures.skip fun st _ => ensures_pure.mpr (Silent.of_core rfl)
  | storageDetach id => exact withRequest_moves fun r hr => releaseStorage_moves hr

/-! ## Settling -/

theorem startPendingStores_ensures (m : TierTransferManager) (c) (gr) :
    Ensures (m.startPendingStores c gr) fun x => x.2.1 = m ∨ ∃ writeBack, x.2.1 = m.addWriteBack writeBack := by
  refine .ite (fun _ => .pure (.inl rfl)) fun _ => ?_
  refine .skip fun ⟨bls, c⟩ _ => .skip fun trs _ => .skip fun c _ => ?_
  exact .ite (fun _ => .pure (.inl rfl)) fun _ => .pure (.inr ⟨_, rfl⟩)

theorem silent_startPendingStores {m} (h : m = s.transfers ∨ ∃ wb, m = s.transfers.addWriteBack wb)
    (hc : s'.core = { s.core with transfers := m }) : Silent may s s' := by
  rcases h with rfl | ⟨wb, rfl⟩
  · exact .of_core hc
  · rw [Silent, hc]
    exact .single .store

theorem setBlockTables_finishing {rss} (h : r.state = .finishing rss) (tbs : Nat → BlockTable) :
    (r.setBlockTables tbs).state = .finishing { rss with blockTables := tbs } := by
  rw [@setBlockTables_eq r rss (by rw [h]; rfl), h]
  rfl

theorem publishCompletedPages_moves (hf : s.findRequest r.id = some r) (hk : r.state.kind = .finishing) :
    Ensures (s.publishCompletedPages r) (Silent may s) := by
  obtain ⟨resources, hs⟩ : ∃ resources, r.state = .finishing resources := by
    cases hr : r.state <;> rw [hr] at hk <;> first | exact ⟨_, rfl⟩ | exact nomatch hk
  have hl : Ensures (s.publishFinal r) fun x => Silent may s x.2 := by
    refine .skip fun _ _ => .skip fun _ _ => .skip fun ⟨_, _⟩ _ => .skip fun c _ => ?_
    refine .skip fun ⟨holding, c⟩ _ => .skip fun c _ => .pure ?_
    have hd : (r.setBlockTables holding.tables).id = r.id := by
      rw [@setBlockTables_eq r resources (by rw [hs]; rfl)]
      rfl
    refine .trans (.of_core rfl) (silent_keep hf hd ?_)
    rw [setBlockTables_finishing hs, hs]
    exact .paged rfl rfl rfl rfl (show StateKind.Follows .finishing .finishing by decide)
  refine hl.bind fun ⟨hashes, s1⟩ h1 => ?_
  refine .ite (fun _ => ?_) fun _ => .pure h1
  refine (startPendingStores_ensures _ _ _).bind fun ⟨op, m, c⟩ hm => .pure ?_
  exact .trans h1 (silent_startPendingStores hm rfl)

theorem settleFinished_moves (hf : s.findRequest r.id = some r) : Ensures (s.settleFinished r) (Silent may s) := by
  refine .ite (fun _ => .pure (.refl s)) fun hn => ?_
  have hk : r.state.kind = .finishing := by
    simp only [Bool.or_eq_true, Bool.not_eq_true', not_or] at hn
    exact is_iff.mp (by simpa using hn.1)
  refine (publishCompletedPages_moves hf hk : Ensures _ (Silent may s)).bind fun s' hs' => ?_
  exact (withRequest_moves fun r' hr' => applyRelease_moves hr').mono fun s'' h => hs'.trans h

theorem settleFinishedRequests_moves (s : Scheduler) : Ensures s.settleFinishedRequests (Silent may s) :=
  foldlM_withRequest_moves _ (fun _ _ hr => settleFinished_moves hr) s

/-! ## Submission and flushes -/

theorem make_admission (sp rl) : (Request.make sp rl).state.admission?.isSome := by
  unfold Request.make
  split <;> rfl

theorem checkedRequests_ensures (s : Scheduler) (submitted) (sps) :
    Ensures (s.checkedRequests submitted sps) fun rqs =>
      (rqs.map (·.id)).Nodup ∧ ∀ r ∈ rqs, s.findRequest r.id = none ∧ r.id ∉ submitted ∧ r.state.admission?.isSome := by
  induction sps generalizing submitted with
  | nil => exact .pure ⟨nodup_nil, forall_mem_nil _⟩
  | cons sp rest ih =>
    have hc : Ensures (s.checkSpec submitted sp) fun _ =>
        s.findRequest sp.requestId = none ∧ sp.requestId ∉ submitted := by
      refine .assert fun _ => .assert fun hfr => .assert fun _ => .assert fun _ =>
        .assert fun _ => fun _ _ => ?_
      simpa using hfr
    refine hc.bind fun _ hs => (ih (submitted ++ [sp.requestId])).bind fun rqs hq => .pure ?_
    refine ⟨nodup_cons.mpr ⟨fun hm => ?_, hq.1⟩, fun r hr => ?_⟩
    · obtain ⟨r, hr, heq⟩ := mem_map.mp hm
      refine (hq.2 r hr).2.1 (mem_append_right _ (mem_singleton.mpr ?_))
      exact heq
    · rcases mem_cons.mp hr with rfl | hr
      · exact ⟨hs.1, hs.2, make_admission _ _⟩
      · obtain ⟨hn, ht, hw⟩ := hq.2 r hr
        exact ⟨hn, fun h => ht (mem_append_left _ h), hw⟩

theorem moves_submit (hj : may.join) {requests : List Request} (hd : (requests.map (·.id)).Nodup) (c : Core)
    (hfr : ∀ r ∈ requests, c.find r.id = none ∧ r.state.admission?.isSome) :
    Moves may c [] { c with requests := c.requests ++ requests } := by
  induction requests generalizing c with
  | nil => rw [append_nil]; exact .refl c
  | cons r rest ih =>
    obtain ⟨hn, hw⟩ := hfr r mem_cons_self
    rw [map_cons, nodup_cons] at hd
    have hr : ∀ x ∈ rest, ({ c with requests := c.requests ++ [r] } : Core).find x.id = none ∧
      x.state.admission?.isSome := by
      intro x hx
      refine ⟨?_, (hfr x (mem_cons_of_mem _ hx)).2⟩
      have hne : r.id ≠ x.id := fun hq => hd.1 (hq ▸ mem_map_of_mem hx)
      have hx' : c.find x.id = none := (hfr x (mem_cons_of_mem _ hx)).1
      unfold Core.find at hx' ⊢
      rw [find?_append, hx']
      simp [hne]
    have hm := ih hd.2 { c with requests := c.requests ++ [r] } hr
    rw [append_assoc] at hm
    exact (Moves.single (.submit hj hn hw)).then_silent hm

section

variable (s : Scheduler)

theorem submitRequests_moves (hj : may.join) (sps) : Ensures (s.submitRequests sps) (Silent may s) := by
  refine (checkedRequests_ensures s [] sps).bind fun rqs h => .pure ?_
  exact moves_submit hj h.1 s.core fun r hr => ⟨(h.2 r hr).1, (h.2 r hr).2.2⟩

theorem clearCache_core (ih) : Ensures (s.clearCache ih) fun x => x.2.core = s.core := by
  refine .ite (fun _ => .pure rfl) fun _ => .skip fun ⟨cl, c⟩ _ => ?_
  refine .ite (fun _ => ?_) fun _ => .pure rfl
  have hm : Ensures ((s.setCoord c).clearMetadata ih) fun s' => s'.core = s.core :=
    .ite (fun _ => .skip fun _ _ => .pure rfl) fun _ => .pure rfl
  exact hm.bind fun s' hs' => .pure hs'

/-! ## Plans -/

theorem eraseFinished_moves : Ensures s.eraseFinished (Silent may s) := by
  have hl : ∀ ids : List Nat, Ensures (ids.foldlM (fun s id => s.withRequest id releaseStorage) s) (Silent may s) :=
    fun ids => foldlM_withRequest_moves ids (fun _ _ hr => releaseStorage_moves hr) s
  exact (hl _).bind fun s' hs' => .pure (hs'.trans (.single .erase))

theorem startStorage_core : Ensures s.startStorage fun x => x.2.core = s.core := by
  refine .ite (fun _ => ?_) fun _ => .pure rfl
  split <;> exact .skip fun _ _ => .pure rfl

theorem startStores_moves : Ensures s.startStores fun x => Silent may s x.2 := by
  refine .ite (fun _ => ?_) fun _ => .pure (.refl s)
  refine (startPendingStores_ensures _ _ _).bind fun ⟨op, m, c⟩ hm => .pure ?_
  exact silent_startPendingStores hm rfl

theorem buildForward_moves (wb) :
    Ensures (s.buildForward wb) fun r =>
      Moves may s.core (r.operations.map fun op => .scheduled op.row.requestId) r.sched.core := by
  refine .ite (fun _ => ?_) fun _ => .pure (.refl _)
  refine (Round.build_acts _ s.candidates).mono fun r hc => ?_
  obtain ⟨new, hs, hm⟩ := Round.Acts.built hc
  rw [hs]
  exact hm

theorem nextExecutionPlan_moves : Ensures s.nextExecutionPlan fun x => ∃ ops,
    x.1.forward = forwardBatch ops ∧ Moves may s.core (ops.map fun op => .scheduled op.row.requestId) x.2.core := by
  refine .bind (eraseFinished_moves _ : Ensures _ (Silent may { s with pendingWriteBacks := [] })) fun s1 h1 => ?_
  refine .bind (prepareRequests_moves s1 : Ensures _ (Silent may s1)) fun s2 h2 => ?_
  refine .bind (@buildForward_moves may { s2 with planCalls := s2.planCalls + 1 } _) fun r hr => ?_
  refine (startStorage_core r.sched).bind fun ⟨st, s3⟩ h3 => ?_
  refine .bind (startStores_moves s3 : Ensures _ fun x => Silent may s3 x.2) fun ⟨stores, s4⟩ h4 => ?_
  refine .skip fun _ _ => .pure ⟨r.operations, rfl, ?_⟩
  have hb : Moves may s.core (r.operations.map fun op => .scheduled op.row.requestId) r.sched.core :=
    .trans (.trans h1 h2) hr
  have hc : s3.core = r.sched.core := h3
  rw [← hc] at hb
  exact hb.then_silent h4

end

end Scheduler

end TokenSpeed

import TokenSpeed.Scheduler.Lemmas.Candidates
import TokenSpeed.Scheduler.Lifecycle

/-!
# The scheduler refines the lifecycle

Every call that returns is a sequence of moves: one lemma per function, over the scheduler without its
caches.
-/

namespace TokenSpeed

namespace Moves

variable {may : May} {c c' c'' : Core} {out out' : List Forward}

theorem trans (h : Moves may c out c') (h' : Moves may c' out' c'') : Moves may c (out ++ out') c'' := by
  induction h' with
  | refl => rw [List.append_nil]; exact h
  | tail _ mv ih => rw [← List.append_assoc]; exact .tail ih mv

theorem single (h : Move may c out c') : Moves may c out c' := .tail (.refl c) h

theorem then_silent (h : Moves may c out c') (h' : Moves may c' [] c'') : Moves may c out c'' := by
  have := h.trans h'
  rwa [List.append_nil] at this

end Moves

namespace Scheduler

variable {may : May} {s s' s'' : Scheduler} {r r' : Request} {id : Nat}

def Silent (may : May) (s s' : Scheduler) : Prop := Moves may s.core [] s'.core

theorem Silent.refl (s) : Silent may s s := Moves.refl s.core

theorem Silent.of_core (h : s'.core = s.core) : Silent may s s' := by
  rw [Silent, h]; exact Moves.refl s.core

theorem Silent.trans (h : Silent may s s') (h' : Silent may s' s'') : Silent may s s'' := Moves.then_silent h h'

theorem Silent.single (h : Move may s.core [] s'.core) : Silent may s s' := Moves.single h

theorem silent_keep (hf : s.findRequest r.id = some r) (hd : r'.id = r.id) (hs : Local r.state r'.state) :
    Silent may s (s.setRequest r') :=
  .single (.keep hf hd hs)

/-! ## Events -/

theorem silent_leave (hf : s.findRequest r.id = some r)
    (hq : r.state.forwardsOut = 0 ∨ r.state.kind = .restoring ∨ may.tear)
    (hc : s'.core = ((s.core.releaseBlob r.state.blob?).returnRow r.state.row?).setRequest (r.toState .finished)) :
    Silent may s s' := by
  refine .single ?_
  rw [hc]
  exact .leave hf rfl rfl hq

theorem core_returnRow (s : Scheduler) (row) : (s.returnRow row).core = s.core.returnRow row := by
  cases row <;> rfl

theorem core_releaseResources {rss : ForwardResources} :
    Ensures (s.releaseResources rss) fun s' => s'.core = s.core.returnRow rss.reqPoolIndex := by
  refine .skip fun c _ => .pure ?_
  rw [core_returnRow]; rfl

theorem core_releaseRetracted {rt : Retracted} :
    Ensures (s.releaseRetracted rt) fun s' => s'.core = s.core.releaseBlob (some rt.blobSlot) := by
  exact .skip fun c _ => .skip fun c _ => .pure rfl

theorem core_releaseRestoring {restoring : Restoring} : Ensures (s.releaseRestoring restoring) fun s' =>
      s'.core = (s.core.releaseBlob (some restoring.blobSlot)).returnRow restoring.resources.reqPoolIndex := by
  refine .skip fun c _ => .skip fun c _ => .skip fun c _ => .pure ?_
  rw [core_returnRow]; rfl

variable {st : RequestState}

theorem release_moves {call : Result Scheduler} {blob row : Option Nat} (ht : r.state = st)
    (hc : Ensures call fun s' => s'.core = (s.core.releaseBlob blob).returnRow row)
    (hb : st.blob? = blob) (hr : st.row? = row) (hf : s.findRequest r.id = some r)
    (hq : r.state.forwardsOut = 0 ∨ r.state.kind = .restoring ∨ may.tear) :
    Ensures (do let s ← call; pure (s.setRequest (r.toState .finished))) (Silent may s) := by
  subst ht
  refine hc.bind fun s' hs' => .pure (silent_leave hf hq ?_)
  rw [hb, hr, ← hs']; rfl

section

variable (hf : s.findRequest r.id = some r)
include hf

theorem keep_moves (hs : r.state = st) (hd : r'.id = r.id) (hl : Local st r'.state) :
    Ensures (pure (s.setRequest r') : Result Scheduler) (Silent may s) :=
  .pure (silent_keep hf hd (hs ▸ hl))

theorem applyFinish_moves : Ensures (s.applyFinish r) (Silent may s) := by
  unfold applyFinish
  split
  next hs =>
    exact keep_moves hf hs rfl (.paged rfl rfl rfl rfl (show StateKind.Follows .prefillDone .finishing by decide))
  next hs =>
    exact keep_moves hf hs rfl
      (.paged rfl rfl rfl rfl (show StateKind.Follows .prefillAwaitingResult .finishing by decide))
  next hs =>
    exact keep_moves hf hs rfl (.paged rfl rfl rfl rfl (show StateKind.Follows .decoding .finishing by decide))
  next hs =>
    exact release_moves hs core_releaseRetracted rfl rfl hf (.inl (congrArg RequestState.forwardsOut hs))
  next hs =>
    exact release_moves hs core_releaseRestoring rfl rfl hf (.inr (.inl (congrArg RequestState.kind hs)))
  next => exact .pure (.refl s)
  next => exact .pure (.refl s)
  next => exact ensures_error

theorem applyRelease_moves : Ensures (s.applyRelease r) (Silent may s) := by
  unfold applyRelease
  split
  next rss hs =>
    refine .assert fun hq => release_moves hs core_releaseResources rfl rfl hf (.inl ?_)
    rw [hs]
    exact of_decide_eq_true hq
  next => exact ensures_error

theorem applyAbort_moves
    (ht : 0 < r.state.forwardsOut → r.state.kind ≠ .restoring → may.tear) :
    Ensures (s.applyAbort r) (Silent may s) := by
  have hq : r.state.forwardsOut = 0 ∨ r.state.kind = .restoring ∨ may.tear := by
    rcases Nat.eq_zero_or_pos r.state.forwardsOut with h | h
    · exact .inl h
    · by_cases hk : r.state.kind = .restoring
      · exact .inr (.inl hk)
      · exact .inr (.inr (ht h hk))
  have hd : ∀ {st}, r.state = st → st.blob? = none → st.row? = none →
      Silent may s (s.setRequest (r.toState .finished)) := by
    rintro _ rfl hb hr
    refine silent_leave hf hq ?_
    rw [hb, hr]; rfl
  unfold applyAbort
  split <;> rename_i hs
  iterate 3 exact .pure (hd hs rfl rfl)
  iterate 6 exact release_moves hs core_releaseResources rfl rfl hf hq
  · exact release_moves hs core_releaseRetracted rfl rfl hf hq
  · exact release_moves hs core_releaseRestoring rfl rfl hf hq
  · exact .pure (.refl s)

theorem applyBootstrapped_moves : Ensures (s.applyBootstrapped r) (Silent may s) := by
  unfold applyBootstrapped
  split
  next hs => exact keep_moves hf hs rfl (.waiting rfl rfl nofun)
  next hs => exact keep_moves hf hs rfl (.waiting rfl rfl nofun)
  next => exact ensures_error

theorem applyRemotePrefillDone_moves (tk) : Ensures (s.applyRemotePrefillDone r tk) (Silent may s) := by
  unfold applyRemotePrefillDone
  split
  next hs =>
    exact keep_moves hf hs rfl
      (.paged rfl rfl rfl rfl (show StateKind.Follows .remotePrefilling .prefillDone by decide))
  next => exact ensures_error

theorem applyStartPrefetch_moves (pr) : Ensures (s.applyStartPrefetch r pr) (Silent may s) := by
  unfold applyStartPrefetch
  split
  next hs => exact keep_moves hf hs rfl (.waiting rfl rfl id)
  next hs => exact keep_moves hf hs rfl (.waiting rfl rfl id)
  next => exact ensures_error

end

theorem local_continuation (ab ad ad' pr) : Local (.prefetching ab ad pr) (continuation ab ad') := by
  cases ab <;> exact .waiting rfl rfl id

section

variable (hf : s.findRequest r.id = some r)
include hf

theorem applyFinishPrefetch_moves (hold) : Ensures (s.applyFinishPrefetch r hold) (Silent may s) := by
  unfold applyFinishPrefetch
  split
  next hs => exact keep_moves hf hs rfl (local_continuation _ _ _ _)
  next => exact ensures_error

theorem applyUpdateReserve_moves (vl) : Ensures (s.applyUpdateReserve r vl) (Silent may s) := by
  unfold applyUpdateReserve
  split
  next hs =>
    exact keep_moves hf hs rfl (.paged rfl rfl rfl rfl (show StateKind.Follows .decoding .decoding by decide))
  next => exact .pure (.refl s)
  next => exact ensures_error

theorem applyExtendResult_moves (tokens) : Ensures (s.applyExtendResult r tokens) (Silent may s) := by
  unfold applyExtendResult
  split
  next hs => exact keep_moves hf rfl rfl (.refl _)
  next hs => exact keep_moves hf rfl rfl (.refl _)
  next hs => exact keep_moves hf rfl rfl (.refl _)
  next rss window restoring hs =>
    refine .ite (fun _ => keep_moves hf rfl rfl (.refl _)) fun _ => ?_
    exact keep_moves hf hs rfl
      (.paged rfl rfl rfl rfl (show StateKind.Follows .prefillAwaitingResult .prefillDone by decide))
  next => exact .assert fun _ => keep_moves hf rfl rfl (.refl _)
  next => exact keep_moves hf rfl rfl (.refl _)
  next => exact keep_moves hf rfl rfl (.refl _)
  next => exact ensures_error

end

/-! ## Storage work -/

theorem leavePrefetch_moves (hf : s.findRequest r.id = some r) : Ensures (s.leavePrefetch r) (Silent may s) := by
  unfold leavePrefetch
  split
  next =>
    refine .skip fun sr _ => ?_
    exact applyFinishPrefetch_moves (s := s.setStorage sr) hf none
  next => exact .pure (.refl s)

theorem detachStorageHold_core (hold) : Ensures (s.detachStorageHold hold) fun s' => s'.core = s.core := by
  unfold detachStorageHold
  split
  next => exact .pure rfl
  next => exact .skip fun sr _ => .pure rfl

theorem local_withAdmission (h : st.admission?.isSome) (ad) : Local st (st.withAdmission ad) := by
  cases st <;> first | exact .waiting rfl rfl id | exact nomatch h

theorem leaveHold_moves (hf : s.findRequest r.id = some r) : Ensures (s.leaveHold r) (Silent may s) := by
  unfold leaveHold
  split
  next => exact .pure (.refl s)
  next ad hm =>
    refine (detachStorageHold_core ad.storageHold).bind fun s' hs' => .pure ?_
    have hk : Move may s.core [] (s.core.setRequest (r.toState (r.state.withAdmission
        { storagePrepared := true, storageHold := none }))) :=
      .keep hf rfl (local_withAdmission (by rw [hm]; rfl) _)
    refine .single ?_
    have hc : (s'.setRequest (r.toState (r.state.withAdmission
        { storagePrepared := true, storageHold := none }))).core = s'.core.setRequest _ := rfl
    rw [hc, hs']
    exact hk

variable {call : Scheduler → Request → Result Scheduler}

theorem withRequest_moves (hc : ∀ r, s.findRequest r.id = some r → Ensures (call s r) (Silent may s)) :
    Ensures (s.withRequest id call) (Silent may s) :=
  withRequest_ensures (.refl s) fun r hr => hc r ((findRequest_id hr).symm ▸ hr)

theorem releaseStorage_moves (hf : s.findRequest r.id = some r) : Ensures (s.releaseStorage r) (Silent may s) := by
  refine .ite (fun _ => ?_) fun _ => .pure (.refl s)
  refine .bind (leavePrefetch_moves hf : Ensures _ (Silent may s)) fun s' hs' => ?_
  exact (withRequest_moves fun r hr => leaveHold_moves hr).mono fun s'' h => hs'.trans h

variable {ad : AdmissionResources} {ab : Bool} {pr : Prefetch}

section

variable (hf : s.findRequest r.id = some r)
include hf

theorem startPrefetchRead_moves
    (hs : r.state = .prefetching ab ad pr) (pm) :
    Ensures (s.startPrefetchRead r ab ad pr pm) (Silent may s) := by
  refine .skip fun sr _ => .skip fun x _ => ?_
  have hk : Silent may s ((s.setStorage x.2).setRequest (r.toState (.prefetching ab ad
      { pr with operationId := x.1 }))) :=
    silent_keep hf rfl (hs ▸ .waiting rfl rfl id)
  refine .ite (fun _ => ?_) fun _ => .pure hk
  refine (releaseStorage_moves ?_).mono fun s' h => hk.trans h
  exact findRequest_setRequest_self (Option.isSome_of_eq_some hf)

theorem continuePrefetch_moves (hs : r.state = .prefetching ab ad pr) :
    Ensures (s.continuePrefetch r ab ad pr) (Silent may s) := by
  refine .ite (fun _ => applyFinishPrefetch_moves hf _) fun _ => ?_
  refine .ite (fun _ => releaseStorage_moves hf) fun _ => .skip fun pb _ => ?_
  refine .ite (fun _ => releaseStorage_moves hf) fun _ => ?_
  refine .ite (fun _ => releaseStorage_moves hf) fun _ => ?_
  refine .ite (fun _ => .pure (.refl s)) fun _ => ?_
  exact startPrefetchRead_moves hf hs _

theorem startPrefetch_moves : Ensures (s.startPrefetch r) (Silent may s) := by
  refine .ite (fun _ => .pure (.refl s)) fun _ => .skip fun pb _ => ?_
  refine .ite (fun _ => .pure (.refl s)) fun _ => ?_
  refine .skip fun qr _ => ?_
  refine .ite (fun _ => .pure (.refl s)) fun _ => .skip fun sr _ => ?_
  refine .ite (fun _ => .pure (.of_core rfl)) fun _ => ?_
  exact applyStartPrefetch_moves (s := s.setStorage sr.2) hf _

theorem prepareAdmission_moves
    (hm : r.state.admission? = some ad) : Ensures (s.prepareAdmission r ad) (Silent may s) := by
  refine .ite (fun _ => .pure (.refl s)) fun _ => ?_
  have hk : Silent may s (s.setRequest (r.toState (r.state.withAdmission
      { ad with storagePrepared := true }))) :=
    silent_keep hf rfl (local_withAdmission (by rw [hm]; rfl) _)
  refine (startPrefetch_moves ?_).mono fun s' h => hk.trans h
  exact findRequest_setRequest_self (Option.isSome_of_eq_some hf)

theorem prepareStorage_moves : Ensures (s.prepareStorage r) (Silent may s) := by
  unfold prepareStorage
  split
  next hs => exact continuePrefetch_moves hf hs
  next hs => exact prepareAdmission_moves hf (congrArg RequestState.admission? hs)
  next hs => exact prepareAdmission_moves hf (congrArg RequestState.admission? hs)
  next => exact .pure (.refl s)

end

theorem foldlM_withRequest_moves (ids : List Nat)
    (hc : ∀ s r, s.findRequest r.id = some r → Ensures (call s r) (Silent may s)) (s : Scheduler) :
    Ensures (ids.foldlM (fun s id => s.withRequest id call) s) (Silent may s) :=
  .foldlM_rel Silent.refl Silent.trans (fun _ _ s => withRequest_moves (hc s)) s

theorem prepareRequests_moves (s : Scheduler) : Ensures s.prepareRequests (Silent may s) := by
  refine .ite (fun _ => ?_) fun _ => .pure (.refl s)
  exact foldlM_withRequest_moves _ (fun s r hr => prepareStorage_moves hr) s

end Scheduler

end TokenSpeed

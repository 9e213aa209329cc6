import TokenSpeed.Scheduler.Lemmas.Retractions
import TokenSpeed.Scheduler.Plan

/-!
# A plan build as a sequence of acts

Every phase of a plan build is a sequence of acts on the round: a candidate is granted a step or
declined, a victim gives way, an image is restored. What a build keeps is shown act by act.
-/

namespace TokenSpeed.Round

open List Option Scheduler

variable {r r' r₁ : Round} {req : Request} {id : Nat}

/-! ## Acts -/

inductive Grant (r : Round) (req : Request) : ForwardOperation → Round → Prop
  | decode {op : DecodeOperation} {r' : Round} (done : DecodeDone r req op r') : Grant r req (.decode op) r'
  | chunk {budget : Int} {op : PrefillOperation} {r' : Round} (done : ChunkDone r req budget op r') :
      Grant r req (.prefill op) r'
  | first {budget : Int} {op : PrefillOperation} {r' : Round} (done : FirstDone r req budget op r') :
      Grant r req (.prefill op) r'

inductive Refusal (r : Round) (req : Request) : Round → Prop
  | resident {r' : Round} (refused : Refused r req r') : Refusal r req r'
  | first {r' : Round} (refused : FirstRefused r r') : Refusal r req r'

structure Books (r r' : Round) : Prop where
  sched : r'.sched = r.sched
  pagesToCopy : r'.pagesToCopy = r.pagesToCopy
  operations : r'.operations = r.operations
  remoteDecode : r'.remoteDecode = r.remoteDecode
  remotePrefill : r'.remotePrefill = r.remotePrefill
  loadBacks : r'.loadBacks = r.loadBacks
  writeBacks : r'.writeBacks = r.writeBacks
  snapshotStores : r'.snapshotStores = r.snapshotStores
  snapshotRestores : r'.snapshotRestores = r.snapshotRestores

def JoinsRemote (r : Round) (id : Nat) (op : ForwardOperation) (r' : Round) : Prop :=
  r' = { r.markScheduled id with remoteDecode := r.remoteDecode ++ [op] } ∨
    r' = { r.markScheduled id with remotePrefill := r.remotePrefill ++ [op] }

inductive Act : Round → Round → Prop
  | book {r r' : Round} (books : Books r r') : Act r r'
  | arm {r : Round} {victim : Option Nat} : Act r { r with sched := { r.sched with forcedVictim := victim } }
  | decline {r r' : Round} {req : Request} (find : r.sched.findRequest req.id = some req) (refusal : Refusal r req r') :
      Act r r'
  | join {r r₁ : Round} {req : Request} {op : ForwardOperation} (find : r.sched.findRequest req.id = some req)
      (granted : Grant r req op r₁) : Act r ((r₁.pushOperation req.id op).trackScheduledForward req.id)
  | remote {r r₁ r' : Round} {req : Request} {op : ForwardOperation} (find : r.sched.findRequest req.id = some req)
      (granted : Grant r req op r₁) (joins : JoinsRemote r₁ req.id op r') : Act r r'
  | retract {r : Round} {victim : Request} {x : Option ImageShortfall × Round}
      (find : r.sched.findRequest victim.id = some victim)
      (kind : victim.state.kind ∈ [.prefilling, .prefillDone, .decoding]) (quiet : victim.resultsInFlight = 0)
      (outcome : RetractOutcome r victim x) : Act r x.2
  | abort {r : Round} {victim : Request} {s : Scheduler} {aborts : List SchedulerAbort}
      (find : r.sched.findRequest victim.id = some victim) (quiet : victim.resultsInFlight = 0)
      (aborted : r.sched.applyAbort victim = .ok s) : Act r { r with sched := s, aborts := aborts }
  | restore {r r' : Round} {req : Request} {retracted : Retracted} {demands : Nat → GroupDemand}
      {txn : CacheCoordinator.Txn} {row : Nat} {reqPool : ReqPoolAllocator} {op : SnapshotRestoreOperation}
      {transfers : TierTransferManager} (find : r.sched.findRequest req.id = some req)
      (state : req.state = .retracted retracted)
      (restores : Restores r req retracted r' demands txn row reqPool op transfers) : Act r r'

abbrev Acts : Round → Round → Prop := Relation.ReflTransGen Act

theorem Books.acts (h : Books r r') : Acts r r' := .single (.book h)

/-! ## Phases -/

theorem find_self (h : r.sched.findRequest id = some req) : r.sched.findRequest req.id = some req :=
  (findRequest_id h).symm ▸ h

theorem decodeCandidate_acts (r : Round) (id) : Ensures (r.decodeCandidate id) (Outcome
      (fun op r' => ∃ req, r.sched.findRequest req.id = some req ∧ req.id = id ∧ Grant r req (.decode op) r')
      (Acts r)) := by
  cases hf : r.sched.findRequest id with
  | none =>
    unfold decodeCandidate
    rw [hf]
    exact .pure Relation.ReflTransGen.refl
  | some req =>
    refine (decodeCandidate_ensures hf).mono ?_
    rintro ⟨_ | op, r'⟩ ht
    · exact .single (.decline (find_self hf) (.resident ht))
    · exact ⟨req, find_self hf, findRequest_id hf, .decode ht⟩

theorem schedulePrefillCandidate_acts (r : Round) (id) (budget) (reserve) :
    Ensures (r.schedulePrefillCandidate id budget reserve) (Outcome
      (fun op r' => ∃ req, r.sched.findRequest req.id = some req ∧ req.id = id ∧ Grant r req (.prefill op) r')
      (Acts r)) := by
  unfold schedulePrefillCandidate
  split
  next => exact .pure Relation.ReflTransGen.refl
  next req hf =>
    refine .ite (fun _ => ?_) fun _ => ?_
    · refine (chunkCandidate_ensures r req budget reserve).mono ?_
      rintro ⟨_ | op, r'⟩ ht
      · exact .single (.decline (find_self hf) (.resident ht))
      · exact ⟨req, find_self hf, findRequest_id hf, .chunk ht⟩
    · refine (firstChunkCandidate_ensures r req budget reserve).mono ?_
      rintro ⟨_ | op, r'⟩ ht
      · exact .single (.decline (find_self hf) (.first ht))
      · exact ⟨req, find_self hf, findRequest_id hf, .first ht⟩

theorem acts_admissionFailed (r fl) : Acts r { r with admissionFailed := fl } :=
  Books.acts (by constructor <;> rfl)

theorem acts_retry (h : Acts { r with admissionFailed := false } r') : Acts r r' :=
  (acts_admissionFailed r false).trans h

theorem acts_noteCapacityBlocked (r : Round) (id) : Acts r (r.noteCapacityBlocked id) :=
  Books.acts (by constructor <;> rfl)

theorem acts_join {op} (h : ∃ req, r.sched.findRequest req.id = some req ∧ req.id = id ∧ Grant r req op r₁) :
    Acts r ((r₁.pushOperation id op).trackScheduledForward id) := by
  obtain ⟨req, hf, rfl, hg⟩ := h
  exact .single (.join hf hg)

theorem acts_remote {op} (h : ∃ req, r.sched.findRequest req.id = some req ∧ req.id = id ∧ Grant r req op r₁)
    (hj : JoinsRemote r₁ id op r') : Acts r r' := by
  obtain ⟨req, hf, rfl, hg⟩ := h
  exact .single (.remote hf hg hj)

theorem scheduleDecodeBatch_acts : ∀ candidates r, Ensures (scheduleDecodeBatch candidates r) (Acts r)
  | [], _ => .pure Relation.ReflTransGen.refl
  | id :: rest, r => by
    refine .ite (fun _ => .pure .refl) fun _ => ?_
    refine .ite (fun _ => scheduleDecodeBatch_acts rest r) fun _ => ?_
    refine (decodeCandidate_acts _ id).bind ?_
    rintro ⟨_ | op, r'⟩ ht
    · have hd : Acts r r' := acts_retry ht
      refine (scheduleDecodeBatch_acts rest _).mono fun r'' h => hd.trans (.trans ?_ h)
      unfold noteDecode
      dsimp only
      split
      · exact acts_noteCapacityBlocked r' id
      · exact .refl
    · refine (scheduleDecodeBatch_acts rest _).mono fun r'' h => ?_
      exact (acts_retry (acts_join ht)).trans h

theorem prefillTier_acts (resident reserve) : ∀ candidates r,
    Ensures (prefillTier resident reserve candidates r) fun x => Acts r x.2
  | [], _ => .pure Relation.ReflTransGen.refl
  | id :: rt, r => by
    refine .ite (fun _ => .pure .refl) fun _ => ?_
    refine .ite (fun _ => prefillTier_acts resident reserve rt r) fun _ => ?_
    refine (schedulePrefillCandidate_acts _ id _ reserve).bind ?_
    rintro ⟨_ | op, r'⟩ ht
    · have hd : Acts r r' := acts_retry ht
      have hn := hd.trans (acts_noteCapacityBlocked r' id)
      refine .ite (fun _ => .ite (fun _ => .pure hn) fun _ => ?_) fun _ => ?_
      · exact (prefillTier_acts resident reserve rt _).mono fun _ h => hn.trans h
      · exact (prefillTier_acts resident reserve rt r').mono fun _ h => hd.trans h
    · have hj := acts_retry (acts_join ht)
      refine .ite (fun _ => .pure hj) fun _ => ?_
      exact (prefillTier_acts resident reserve rt _).mono fun _ h => hj.trans h

theorem scheduleLocalPrefillWork_acts (r : Round) (candidates) (iss) (reserve) :
    Ensures (r.scheduleLocalPrefillWork candidates iss reserve) (Acts r) := by
  refine (prefillTier_acts true reserve candidates r).bind fun x hx => ?_
  refine .ite (fun _ => .pure hx) fun _ => ?_
  exact (prefillTier_acts false reserve candidates x.2).bind fun y hy => .pure (hx.trans hy)

/-! ## Victims -/

theorem firstFitting_ensures (s : Scheduler) : ∀ rn,
    Ensures (s.firstFitting rn) fun x => ∀ id, x = some id → ∃ req ∈ rn, req.id = id
  | [] => .pure nofun
  | req :: rest => by
    refine .skip fun fs _ => .ite (fun _ => .pure ?_) fun _ => ?_
    · rintro id ⟨⟩
      exact ⟨req, mem_cons_self, rfl⟩
    · refine (firstFitting_ensures s rest).mono fun x hx id hd => ?_
      obtain ⟨req', hm, hr'⟩ := hx id hd
      exact ⟨req', mem_cons_of_mem _ hm, hr'⟩

theorem mem_rankedVictims {s : Scheduler} {residents} (h : req ∈ s.rankedVictims residents) : req ∈ residents := by
  unfold rankedVictims at h
  rw [mem_append, mem_insertionSort, mem_insertionSort, mem_filter, mem_filter] at h
  exact h.elim And.left And.left

theorem chooseVictim_ensures (s : Scheduler) (candidates) (ie) :
    Ensures (s.chooseVictim candidates ie) fun ch => ∀ id, ch.victim = some id →
      ∃ req, s.findRequest id = some req ∧ req.state.kind ∈ [.prefilling, .prefillDone, .decoding] := by
  have hr : ∀ req ∈ (candidates.filterMap s.findRequest).filter (retractable ie),
      s.findRequest req.id = some req ∧ req.state.kind ∈ [.prefilling, .prefillDone, .decoding] := by
    intro req hq
    obtain ⟨hm, hretractable⟩ := mem_filter.mp hq
    obtain ⟨id, _, hf⟩ := mem_filterMap.mp hm
    refine ⟨(findRequest_id hf).symm ▸ hf, ?_⟩
    exact Request.isAnyOf_iff.mp (Bool.and_eq_true_iff.mp hretractable).1
  refine (firstFitting_ensures s _).bind fun x hx => ?_
  cases x with
  | some id =>
    refine .pure ?_
    rintro _ ⟨⟩
    obtain ⟨req, hm, rfl⟩ := hx id rfl
    exact ⟨req, hr req (mem_rankedVictims hm)⟩
  | none =>
    refine .pure fun id hd => ?_
    obtain ⟨req, hl, rfl⟩ := map_eq_some_iff.mp hd
    exact ⟨req, hr req (mem_of_getLast? hl)⟩

theorem iterationVictim_ensures (r : Round) (candidates) :
    Ensures (r.iterationVictim candidates) fun x => ∀ id, x.1.victim = some id →
      ∃ req, r.sched.findRequest id = some req ∧ req.state.kind ∈ [.prefilling, .prefillDone, .decoding] := by
  refine (chooseVictim_ensures r.sched candidates false).bind fun ch hc => ?_
  refine .ite (fun _ => ?_) fun _ => .pure hc
  exact (chooseVictim_ensures r.sched candidates true).bind fun _ h => .pure h

variable {victim : Request}

theorem RetractOutcome.remains {sh}
    (h : RetractOutcome r victim (some sh, r')) (hf : r.sched.findRequest victim.id = some victim) :
    ∃ next, r'.sched.findRequest victim.id = some next ∧ next.id = victim.id ∧
      next.resultsInFlight = victim.resultsInFlight := by
  cases h with
  | noSlot _ => exact ⟨victim, hf, rfl, rfl⟩
  | @tried s next _ _ pbs ims =>
    obtain ⟨_, _, held', hh, _, ht, hn, _⟩ := pbs.sched
    obtain ⟨_, _, _, _, _, _, c', hm⟩ := ims
    obtain ⟨hd, hfo⟩ := pbs.find hf
    refine ⟨next, ?_, hd, ?_⟩
    · rw [hm.round]
      exact hd ▸ hfo
    · rw [Request.resultsInFlight, Request.resultsInFlight, hn, Request.toState_state,
        RequestState.resources?_withResources held' hh, hh]
      exact ht

theorem giveWay_acts (hf : r.sched.findRequest victim.id = some victim)
    (hk : victim.state.kind ∈ [.prefilling, .prefillDone, .decoding]) (hq : victim.resultsInFlight = 0)
    (fs) : Ensures (r.giveWay victim fs) (Acts r) := by
  have hy : Ensures (r.tryRetract victim fs) fun x => Acts r x.2 ∧ ∀ sh, x.1 = some sh →
      ∃ next, x.2.sched.findRequest victim.id = some next ∧ next.id = victim.id ∧ next.resultsInFlight = 0 := by
    refine .ite (fun _ => ?_) fun _ => .pure ⟨.refl, fun _ _ => ⟨victim, hf, rfl, hq⟩⟩
    refine (retractVictim_ensures r hf).mono fun ⟨sh, r'⟩ hx => ⟨.single (.retract hf hk hq hx), ?_⟩
    rintro sh' rfl
    obtain ⟨next, hn, hd, ht⟩ := hx.remains hf
    exact ⟨next, hn, hd, ht.trans hq⟩
  refine hy.bind fun ⟨sh, r'⟩ hx => ?_
  cases sh with
  | none => exact .pure hx.1
  | some sh =>
    obtain ⟨next, hn, hd, ht⟩ := hx.2 sh rfl
    dsimp only
    unfold onImageDoesNotFit
    rw [hn]
    refine .skip fun s hs => .pure (hx.1.trans (.single ?_))
    exact .abort (hd ▸ hn) ht hs

theorem grantDecode_acts (r : Round) (blocker) : Ensures (r.grantDecode blocker) fun x => Acts r x.2 := by
  refine (decodeCandidate_acts _ blocker).bind ?_
  rintro ⟨_ | op, r'⟩ ht
  · exact .pure (acts_retry ht)
  · exact .pure (acts_retry (acts_join ht))

theorem grantPrefill_acts (r : Round) (blocker) : Ensures (r.grantPrefill blocker) fun x => Acts r x.2 := by
  refine (schedulePrefillCandidate_acts _ blocker _ _).bind ?_
  rintro ⟨_ | op, r'⟩ ht
  · exact .pure (acts_retry ht)
  · refine .ite (fun _ => .pure ?_) fun _ => .pure ?_
    · exact acts_retry (acts_remote ht (.inr rfl))
    · exact acts_retry (acts_join ht)

theorem grant_acts (r : Round) (blocker) : Ensures (r.grant blocker) fun x => Acts r x.2 := by
  refine .ite (fun _ => grantDecode_acts r blocker) fun _ => ?_
  exact .ite (fun _ => .pure .refl) fun _ => grantPrefill_acts r blocker

theorem retractAndGrant_acts (hf : r.sched.findRequest victim.id = some victim)
    (hk : victim.state.kind ∈ [.prefilling, .prefillDone, .decoding]) (hq : victim.resultsInFlight = 0) (candidates)
    (ch) (ie) (blocker) : Ensures (r.retractAndGrant candidates victim ch ie blocker) fun x => Acts r x.2 := by
  refine (giveWay_acts hf hk hq ch.imageFits).bind fun r₁ h1 => ?_
  have hs : Ensures (r₁.serveDecodes candidates ie blocker victim.id) fun x => Acts r₁ x.2 := by
    refine .ite (fun _ => ?_) fun _ => .pure .refl
    exact (scheduleDecodeBatch_acts candidates r₁).bind fun _ h => .pure h
  refine hs.bind fun x hx => ?_
  refine .ite (fun _ => .pure (h1.trans hx)) fun _ => ?_
  exact (grant_acts x.2 blocker).mono fun _ h => (h1.trans hx).trans h

theorem retractLoop_acts (candidates) : ∀ fl blocker r, Ensures (retractLoop candidates fl blocker r) (Acts r)
  | 0, _, _ => .pure .refl
  | fl + 1, blocker, r => by
    refine (iterationVictim_ensures r candidates).bind fun ⟨ch, ie⟩ hv => ?_
    dsimp only
    split
    next => exact .pure .refl
    next victim hbi =>
      obtain ⟨id, hc, hf⟩ := bind_eq_some_iff.mp hbi
      obtain ⟨req, hr, hk⟩ := hv id hc
      obtain rfl := mem_unique hr hf
      refine .ite (fun _ => .pure .refl) fun hb => ?_
      have hq : req.resultsInFlight = 0 := by simp at hb; exact hb.1
      split
      next => exact .pure .refl
      next next _ =>
        refine (retractAndGrant_acts (find_self hf) hk hq candidates ch ie next).bind fun x hx => ?_
        refine .ite (fun _ => .pure hx) fun _ => ?_
        exact (retractLoop_acts candidates fl next x.2).mono fun _ h => hx.trans h

theorem maybeRetractForCapacity_acts (r : Round) (candidates) :
    Ensures (r.maybeRetractForCapacity candidates) (Acts r) := by
  unfold maybeRetractForCapacity
  split
  next => exact .pure .refl
  next blocker _ =>
    have hc : Acts r { r with capacityBlocker := none } := Books.acts (by constructor <;> rfl)
    refine .ite (fun _ => .pure hc) fun _ => ?_
    exact (retractLoop_acts candidates _ blocker _).mono fun _ h => hc.trans h

/-! ## Forced retraction and readmission -/

theorem forceRetraction_acts {ar : Request} (hf : r.sched.findRequest ar.id = some ar)
    (hk : ar.state.kind ∈ [.prefilling, .prefillDone, .decoding]) : Ensures (r.forceRetraction ar) (Acts r) := by
  refine .ite (fun _ => .pure ?_) fun hq => ?_
  · exact (Relation.ReflTransGen.single Act.arm).trans (Books.acts (by constructor <;> rfl))
  · refine (retractVictim_ensures { r with sched := { r.sched with forcedVictim := none } } hf).bind fun x hx =>
      .pure ?_
    have hm : Acts r { r with sched := { r.sched with forcedVictim := none } } := .single .arm
    exact hm.trans (.single (.retract hf hk (by omega) hx))

theorem isForcedKind_kind {i} (h : isForcedKind i req = true) :
    req.state.kind ∈ [.prefilling, .prefillDone, .decoding] := by
  unfold isForcedKind at h
  split at h
  · rw [Request.is_iff.mp h]; decide
  · rw [Request.is_iff.mp h]; decide

theorem armed_spec {i candidates} {ar : Request} (h : (r.armedRequest i).or (r.armCandidate i candidates) = some ar) :
    r.sched.findRequest ar.id = some ar ∧ ar.state.kind ∈ [.prefilling, .prefillDone, .decoding] := by
  rcases or_eq_some_iff.mp h with h | ⟨_, h⟩
  · obtain ⟨hb, hc⟩ := filter_eq_some_iff.mp h
    obtain ⟨id, _, hf⟩ := bind_eq_some_iff.mp hb
    exact ⟨find_self hf, isForcedKind_kind hc⟩
  · unfold armCandidate at h
    split at h
    · exact nomatch h
    · obtain ⟨id, _, hf⟩ := mem_filterMap.mp (mem_of_find?_eq_some h)
      have hc := find?_some h
      simp only [Bool.and_eq_true] at hc
      exact ⟨find_self hf, isForcedKind_kind hc.1.1⟩

theorem maybeForceRetraction_acts (r : Round) (candidates) : Ensures (r.maybeForceRetraction candidates) (Acts r) := by
  refine .ite (fun _ => .pure .refl) fun _ => ?_
  split
  · exact .pure (.single .arm)
  · next hm => exact forceRetraction_acts (armed_spec hm).1 (armed_spec hm).2

theorem landedImage_state {retracted} (h : landedImage req = some retracted) : req.state = .retracted retracted := by
  unfold landedImage at h
  split at h
  next im hq =>
    split at h
    · rw [hq, some.inj h]
    · exact nomatch h
  next => exact nomatch h

theorem tryReadmissions_acts : ∀ rn iss r,
    (∀ x ∈ rn, r.sched.findRequest x.1.id = some x.1 ∧ x.1.state = .retracted x.2) →
    Ensures (tryReadmissions rn iss r) fun x => Acts r x.2
  | [], _, _, _ => .pure .refl
  | (req, retracted) :: rest, iss, r, hr => by
    obtain ⟨hf, hst⟩ := hr _ mem_cons_self
    refine (scheduleRestore_ensures { r with admissionFailed := false } hst).bind fun ⟨resident, r'⟩ hx => ?_
    cases resident with
    | true =>
      obtain ⟨_, _, _, _, _, _, ht⟩ : ∃ _ _ _ _ _ _, Restores _ _ _ _ _ _ _ _ _ _ := by simpa using hx
      refine .ite (fun _ => .pure ?_) fun h => absurd (Bool.true_or _) h
      exact acts_retry (.single (.restore hf hst ht))
    | false =>
      have hs : r'.sched = r.sched := by
        rcases (by simpa using hx : r' = _ ∨ r' = _) with rfl | rfl <;> rfl
      have hb : Acts r r' := by
        rcases (by simpa using hx : r' = _ ∨ r' = _) with rfl | rfl
        · exact acts_admissionFailed r false
        · exact acts_admissionFailed r true
      refine .ite (fun _ => .pure hb) fun _ => ?_
      refine (tryReadmissions_acts rest true r' fun x hx => ?_).mono fun _ h => hb.trans h
      rw [hs]
      exact hr x (mem_cons_of_mem _ hx)

theorem scheduleReadmission_acts (r : Round) (candidates) :
    Ensures (r.scheduleReadmission candidates) fun x => Acts r x.2 := by
  refine tryReadmissions_acts _ false r fun x hx => ?_
  have hm := (mem_insertionSort _).mp (mem_of_mem_take hx)
  obtain ⟨req, hq, hl⟩ := mem_filterMap.mp hm
  obtain ⟨id, _, hf⟩ := mem_filterMap.mp hq
  obtain ⟨rt, hr, rfl⟩ := map_eq_some_iff.mp hl
  exact ⟨find_self hf, landedImage_state hr⟩

/-! ## The role grammars -/

theorem scheduleRemoteDecodes_acts : ∀ candidates r, Ensures (scheduleRemoteDecodes candidates r) (Acts r)
  | [], _ => .pure .refl
  | id :: rest, r => by
    refine .ite (fun _ => ?_) fun _ => scheduleRemoteDecodes_acts rest r
    refine (decodeCandidate_acts r id).bind ?_
    rintro ⟨_ | op, r'⟩ ht
    · exact (scheduleRemoteDecodes_acts rest r').mono fun _ h => .trans ht h
    · exact (scheduleRemoteDecodes_acts rest _).mono fun _ h => (acts_remote ht (.inl rfl)).trans h

theorem scheduleRemoteAdmission_acts : ∀ candidates r, Ensures (scheduleRemoteAdmission candidates r) (Acts r)
  | [], _ => .pure .refl
  | id :: rest, r => by
    unfold scheduleRemoteAdmission
    split
    next => exact scheduleRemoteAdmission_acts rest r
    next =>
      refine .ite (fun _ => scheduleRemoteAdmission_acts rest r) fun _ => ?_
      refine (schedulePrefillCandidate_acts _ id _ _).bind ?_
      rintro ⟨_ | op, r'⟩ ht
      · have hd : Acts r r' := acts_retry ht
        refine (scheduleRemoteAdmission_acts rest _).mono fun _ h => hd.trans (.trans ?_ h)
        split
        · exact acts_noteCapacityBlocked r' id
        · exact .refl
      · exact .pure (acts_retry (acts_remote ht (.inr rfl)))

theorem build_acts (r : Round) (candidates) : Ensures (r.build candidates) (Acts r) := by
  unfold build
  split
  · refine (scheduleRemoteDecodes_acts candidates r).bind fun r₁ h1 => ?_
    exact (scheduleLocalPrefillWork_acts r₁ candidates false _).mono fun _ h => h1.trans h
  · refine (maybeForceRetraction_acts r candidates).bind fun r₁ h1 => ?_
    refine (scheduleReadmission_acts r₁ candidates).bind fun x hx => ?_
    refine (scheduleDecodeBatch_acts candidates x.2).bind fun r3 h3 => ?_
    have hr : Ensures (r3.admitRemote candidates x.1) (Acts r3) :=
      .ite (fun _ => .pure .refl) fun _ => scheduleRemoteAdmission_acts candidates r3
    refine hr.bind fun r4 h4 => (maybeRetractForCapacity_acts r4 candidates).mono fun _ h => ?_
    exact (((h1.trans hx).trans h3).trans h4).trans h
  · refine (maybeForceRetraction_acts r candidates).bind fun r₁ h1 => ?_
    refine (scheduleReadmission_acts r₁ candidates).bind fun x hx => ?_
    have hm : Ensures (x.2.mixedDecodes candidates) (Acts x.2) := by
      refine .ite (fun _ => ?_) fun _ => .pure .refl
      refine (scheduleDecodeBatch_acts candidates _).mono fun _ h => .trans (Books.acts ?_) h
      constructor <;> rfl
    refine hm.bind fun r3 h3 => (scheduleLocalPrefillWork_acts r3 candidates x.1 _).bind fun r4 h4 => ?_
    have hl : Ensures (r4.lateDecodes candidates) (Acts r4) :=
      .ite (fun _ => scheduleDecodeBatch_acts candidates r4) fun _ => .pure .refl
    refine hl.bind fun r5 h5 => (maybeRetractForCapacity_acts r5 candidates).mono fun _ h => ?_
    exact ((((h1.trans hx).trans h3).trans h4).trans h5).trans h

end TokenSpeed.Round

import TokenSpeed.Engine.Intake
import TokenSpeed.Scheduler.Lemmas.Runs

/-!
# What the intake hands over

A spec of the ingress asks for no more than the limits allow. What the intake hands over was waiting or was sent,
each request once, so an id that nobody had when it was sent is fresh when it reaches the scheduler.
-/

namespace TokenSpeed.Engine

open List

theorem firstReason_eq_none {rss} : firstReason rss = none ↔ ∀ r ∈ rss, r = none := by
  simp [firstReason]

theorem reasonIf_eq_none {p : Prop} [Decidable p] {rest} : reasonIf p rest = none ↔ ¬ p := by
  simp [reasonIf]

structure Fits (limits : IngressLimits) (spec : RequestSpec) : Prop where
  newTokens : 0 ≤ spec.maxNewTokens
  cachedPrefix : 0 ≤ spec.maxCachedPrefixTokens
  inputLen : spec.tokens.length ≤ limits.maxReqInputLen
  total : spec.maxNewTokens = 0 ∨ spec.tokens.length + spec.maxNewTokens ≤ limits.maxModelLen

namespace TokenizedGenerateReqInput

variable {rq : TokenizedGenerateReqInput} {limits : IngressLimits}

theorem prompt_of_refusal {params} (h : rq.refusal limits params = none) :
    rq.inputIds = some rq.prompt ∧ rq.prompt.length ≤ limits.maxReqInputLen := by
  have hr := firstReason_eq_none.mp h
  have hl := hr _ (mem_cons_of_mem _ (mem_cons_of_mem _ mem_cons_self))
  cases hs : rq.inputIds with
  | none => simp [hs] at hl
  | some ids =>
    simp only [hs] at hl
    have hn := reasonIf_eq_none.mp (firstReason_eq_none.mp hl _ mem_cons_self)
    simp only [prompt, hs, Option.getD_some]
    exact ⟨trivial, Int.not_lt.mp hn⟩

theorem logprobStart_nonneg : 0 ≤ rq.logprobStart := by
  simp only [logprobStart]
  split
  · exact Int.le_max_right _ _
  · exact Int.le_min.mpr ⟨by omega, Int.le_max_right _ _⟩

theorem spec_fits {prs} (rid) (h : rq.refusal limits prs = none) :
    Fits limits (rq.spec limits rid prs) where
  newTokens := Int.le_max_left _ _
  cachedPrefix := by
    simp only [spec]
    split
    · exact logprobStart_nonneg
    · exact Int.natCast_nonneg _
  inputLen := (prompt_of_refusal h).2
  total := by
    simp only [spec, budget]
    omega

theorem admit_spec {ad : Admission} (h : rq.admitRequest limits = some (.run ad)) :
    Fits limits ad.spec ∧ rq.rid = some ad.spec.requestId ∧ rq.inputIds = some ad.spec.tokens := by
  unfold admitRequest at h
  cases hr : rq.rid with
  | none => simp [hr] at h
  | some rid =>
    simp only [hr] at h
    cases hm : rq.refusalMessage limits rq.samplingParams.resolve with
    | some message => simp [hm] at h
    | none =>
      simp only [hm, Option.some.injEq, Admitted.run.injEq] at h
      subst h
      have hv := firstReason_eq_none.mp hm _ mem_cons_self
      rw [Option.map_eq_none_iff] at hv
      have hn := firstReason_eq_none.mp hv _ (mem_cons_of_mem _ (mem_cons_of_mem _ mem_cons_self))
      exact ⟨spec_fits rid hn, rfl, (prompt_of_refusal hn).1⟩

end TokenizedGenerateReqInput

/-! ## What flows through the intake -/

theorem picked_sublist {α : Type} (l : List α) (names) : picked l names <+ l := by
  have h : (l.zipIdx.filter fun x => names x.2).map (·.1) <+ l.zipIdx.map (·.1) := filter_sublist.map _
  rwa [zipIdx_map_fst] at h

/-- Apart picks of a list are no more than the list. -/
theorem picked_add_picked {α : Type} (l : List α) {names names' : Nat → Bool}
    (hd : ∀ i, names i = true → names' i = false) :
    (picked l names : Multiset α) + picked l names' ≤ picked l fun i => names i || names' i := by
  have hp : l.zipIdx.filter (fun x => names x.2) ++ l.zipIdx.filter (fun x => names' x.2) <+~
      l.zipIdx.filter fun x => names x.2 || names' x.2 := by
    induction l.zipIdx with
    | nil => exact .refl _
    | cons x rest ih =>
      cases hn : names x.2 with
      | true => simpa [hn, hd _ hn] using (subperm_cons x).mpr ih
      | false =>
        cases hn' : names' x.2 with
        | true => simpa [hn, hn'] using perm_middle.subperm.trans ((subperm_cons x).mpr ih)
        | false => simpa [hn, hn'] using ih
  have hm := Multiset.map_le_map (f := (·.1)) (Multiset.coe_le.mpr hp)
  simpa only [picked, ← Multiset.coe_add, Multiset.map_add, Multiset.map_coe] using hm

/-- What is handed over and what waits afterwards were waiting or were added. -/
structure Intake.Flows (h : Intake) (added : List RequestSpec) (x : Handed) : Prop where
  limits : x.2.limits = h.limits
  flow : (x.1.flatten : Multiset RequestSpec) + x.2.waiting ≤ h.waiting + added

namespace Intake

variable {h : Intake} {submissions : List Submission}

theorem submit_flows : h.Flows (submissions.map (·.spec)) (h.submit submissions) := by
  unfold submit
  split
  · next he => exact ⟨rfl, by simp [isEmpty_iff.mp he]⟩
  · exact ⟨rfl, by simp only [flatten_cons, flatten_nil, append_nil, add_comm, le_refl]⟩

theorem submitOrWithhold_flows (blocked) :
    h.Flows (submissions.map (·.spec)) (h.submitOrWithhold blocked submissions) := by
  unfold submitOrWithhold
  split
  · exact ⟨rfl, by simp [waiting, ← Multiset.coe_add, add_assoc]⟩
  · exact submit_flows

theorem Flows.mono {added added' : List RequestSpec} {x} (hf : h.Flows added x) (ha : added <+~ added') :
    h.Flows added' x :=
  ⟨hf.limits, hf.flow.trans (add_le_add_right (Multiset.coe_le.mpr ha) _)⟩

theorem route_flows (gates) : h.Flows (submissions.map (·.spec)) (h.route gates submissions) := by
  have hs : (if gates.refusing then [] else submissions) <+ submissions := by
    split
    · exact nil_sublist _
    · exact .refl _
  obtain ⟨hl, hf⟩ := @submitOrWithhold_flows { h with staged := h.staged ++
    (if gates.refusing then [] else submissions).filter fun s => gates.epdPrefill && !s.embeddings.isEmpty }
    ((if gates.refusing then [] else submissions).filter fun s => !(gates.epdPrefill && !s.embeddings.isEmpty))
    gates.admitBlocked
  refine Flows.mono ⟨hl, hf.trans (le_of_eq ?_)⟩ (hs.map _).subperm
  generalize (if gates.refusing then [] else submissions) = sent
  have hp := Multiset.coe_eq_coe.mpr
    ((filter_append_perm (fun s : Submission => gates.epdPrefill && !s.embeddings.isEmpty) sent).map (·.spec))
  simp only [waiting, map_append, ← Multiset.coe_add] at hp ⊢
  rw [← hp]
  ac_rfl

/-- A request is queued for its grammar or submitted, once. -/
theorem sorted_flows (admissions : List (Admission × GrammarOutcome)) :
    ((sorted admissions).1.map (·.1.spec) : Multiset RequestSpec) + (sorted admissions).2.map (·.spec) ≤
      admissions.map (·.1.spec) := by
  induction admissions with
  | nil => exact le_refl _
  | cons x rest ih =>
    obtain ⟨a, outcome⟩ := x
    unfold sorted
    cases a.grammar with
    | none => simpa [← Multiset.cons_coe, Admission.submission] using ih
    | some key =>
      cases outcome with
      | waits | starts | startsLate => simpa [← Multiset.cons_coe, Admission.submission] using ih
      | fails => simpa [← Multiset.cons_coe] using ih.trans (Multiset.le_cons_self _ _)

theorem register_flows (around) (admissions) : h.Flows (admissions.map (·.spec)) (h.register around admissions) := by
  have hs := sorted_flows (admissions.zipIdx.map fun x => (x.1, around.grammars x.2))
  have hm : (admissions.zipIdx.map fun x => (x.1, around.grammars x.2)).map (·.1.spec) = admissions.map (·.spec) := by
    rw [map_map]
    exact (map_map (f := Prod.fst) (g := Admission.spec)).symm.trans (congrArg _ (zipIdx_map_fst ..))
  rw [hm] at hs
  obtain ⟨hl, hf⟩ := @route_flows { h with grammarQueue := h.grammarQueue ++
    (sorted (admissions.zipIdx.map fun x => (x.1, around.grammars x.2))).1 } _ around.gates
  refine ⟨hl, hf.trans ?_⟩
  calc (_ : Multiset RequestSpec)
    _ = h.waiting + ((sorted (admissions.zipIdx.map fun x => (x.1, around.grammars x.2))).1.map (·.1.spec) +
          (sorted (admissions.zipIdx.map fun x => (x.1, around.grammars x.2))).2.map (·.spec)) := by
        simp only [waiting, map_append, ← Multiset.coe_add]
        ac_rfl
    _ ≤ h.waiting + admissions.map (·.spec) := add_le_add_right hs _

/-- The specs of the requests the messages' receive admits. -/
def admittedSpecs (limits : IngressLimits) (messages : List (EngineRequest × Surroundings)) : List RequestSpec :=
  (requestsSent messages).filterMap fun request =>
    match request.admitRequest limits with
    | some (.run admission) => some admission.spec
    | _ => none

theorem admitMessages_flows (last) (messages) : ∀ h admissions, Flows h
    (admissions.map (·.spec) ++ admittedSpecs h.limits messages) (admitMessages last admissions h messages) := by
  induction messages with
  | nil =>
    intro h admissions
    simpa [admittedSpecs, requestsSent, admitMessages] using register_flows last admissions
  | cons message rest ih =>
    intro h admissions
    obtain ⟨message, around⟩ := message
    cases message with
    | abort rids => exact ih h admissions
    | add request =>
      simp only [admitMessages]
      split
      · next admission ha =>
        have hf := ih h (admissions ++ [admission])
        simpa [admittedSpecs, requestsSent, ha] using hf
      · have hf := ih h admissions
        simpa only [admittedSpecs, requestsSent, filterMap_cons] using hf
    | control =>
      obtain ⟨hl, hf⟩ := @register_flows h around admissions
      obtain ⟨hl', hf'⟩ := ih (h.register around admissions).2 []
      refine ⟨hl'.trans hl, ?_⟩
      rw [hl] at hf'
      simp only [admitMessages, flatten_append, map_nil, nil_append, ← Multiset.coe_add] at hf' ⊢
      calc (_ : Multiset RequestSpec)
        _ = (h.register around admissions).1.flatten +
            ((admitMessages last [] (h.register around admissions).2 rest).1.flatten +
              (admitMessages last [] (h.register around admissions).2 rest).2.waiting) := add_assoc ..
        _ ≤ (h.register around admissions).1.flatten + ((h.register around admissions).2.waiting +
            admittedSpecs h.limits rest) := add_le_add_right hf' _
        _ ≤ h.waiting + admissions.map (·.spec) + admittedSpecs h.limits rest := by
          rw [← add_assoc]
          exact add_le_add_left hf _
        _ = _ := by
          rw [add_assoc]
          rfl

/-- The specs an event adds. -/
def Event.added (limits : IngressLimits) : Event → List RequestSpec
  | .admitMessages messages _ => admittedSpecs limits messages
  | _ => []

theorem step_flows (event : Event) : h.Flows (event.added h.limits) (h.step event) := by
  cases event with
  | admitMessages messages last => exact admitMessages_flows last messages h []
  | pause blocked runs =>
    simp only [step, applyPauseTransitions]
    split
    · exact ⟨rfl, by simp [Event.added]⟩
    · obtain ⟨hl, hf⟩ := @submit_flows { h with withheld := [] } (picked h.withheld runs)
      refine ⟨hl, hf.trans ?_⟩
      have hp := Multiset.coe_le.mpr ((picked_sublist h.withheld runs).map (·.spec)).subperm
      simpa [waiting, Event.added, ← Multiset.coe_add, add_assoc] using hp
  | grammars gates outcomes =>
    obtain ⟨hl, hf⟩ := @route_flows { h with
      grammarQueue := picked h.grammarQueue fun i => decide (outcomes i = GrammarOutcome.waits) } _ gates
    refine ⟨hl, hf.trans ?_⟩
    have hq : (picked h.grammarQueue (fun i => decide (outcomes i = .waits)) : Multiset (Submission × GrammarKey)) +
        (picked h.grammarQueue (fun i => decide (outcomes i = .starts)) +
          picked h.grammarQueue fun i => decide (outcomes i = .startsLate)) ≤ h.grammarQueue :=
      (add_le_add_right (picked_add_picked _ (by simp_all)) _).trans
        ((picked_add_picked _ (by simp_all)).trans (Multiset.coe_le.mpr (picked_sublist ..).subperm))
    have hm := add_le_add_left (Multiset.map_le_map (f := (·.1.spec)) hq)
      (h.staged.map (·.spec) + h.withheld.map (·.spec))
    simp only [Multiset.map_add, Multiset.map_coe] at hm
    simp only [waiting, Event.added, map_append, map_map, ← Multiset.coe_add, Multiset.coe_nil, add_zero]
    refine le_trans (le_of_eq ?_) (hm.trans (le_of_eq ?_))
    · simp only [Function.comp_def]
      ac_rfl
    · ac_rfl
  | staged blocked outcomes runs =>
    obtain ⟨hl, hf⟩ := @submitOrWithhold_flows { h with
      staged := picked h.staged fun i => decide (outcomes i = ReceiveOutcome.pending) } _ blocked
    refine ⟨hl, hf.trans ?_⟩
    have hq : (picked h.staged (fun i => decide (outcomes i = .pending)) : Multiset Submission) +
        (picked h.staged fun i => decide (outcomes i = .landed) && runs i) ≤ h.staged :=
      (picked_add_picked _ (by simp_all)).trans (Multiset.coe_le.mpr (picked_sublist ..).subperm)
    have hm := add_le_add_left (Multiset.map_le_map (f := (·.spec)) hq)
      (h.grammarQueue.map (·.1.spec) + h.withheld.map (·.spec))
    simp only [Multiset.map_add, Multiset.map_coe] at hm
    simp only [waiting, Event.added, ← Multiset.coe_add, Multiset.coe_nil, add_zero]
    refine le_trans (le_of_eq ?_) (hm.trans (le_of_eq ?_)) <;> ac_rfl

end Intake

/-! ## The scheduler's checks -/

namespace Fits

variable {limits : IngressLimits} {spec : RequestSpec} {s : Scheduler}

theorem tokenLimit_le (h : Fits limits spec) (hw : limits.Within s) :
    s.specTokenLimit spec ≤ s.maxSingleRequestTokens := by
  have hm := hw.modelLen
  have hp := hw.inputLen
  have hn := hw.decodeWindow
  have hl := h.inputLen
  have ht := h.total
  unfold Scheduler.specTokenLimit
  split <;> omega

theorem checkSpec_ok (h : Fits limits spec) (hw : limits.Within s) (submitted) :
    s.checkSpec submitted spec = .ok () ↔
      spec.tokens ≠ [] ∧ s.findRequest spec.requestId = none ∧ spec.requestId ∉ submitted := by
  have hl := h.tokenLimit_le hw
  have hint := Int.le_trans hl hw.int32
  have hu : ∀ {c ms}, (∃ x, assert c ms = .ok x) ↔ c = true :=
    ⟨fun ⟨_, h⟩ => assert_ok.mp h, fun h => ⟨(), assert_ok.mpr h⟩⟩
  simp [Scheduler.checkSpec, bind_ok, hu, assert_ok, h.newTokens, h.cachedPrefix, hl, hint]

end Fits

theorem checkedRequests_cons {s : Scheduler} {sb} {spec : RequestSpec} {rest} :
    (∃ requests, s.checkedRequests sb (spec :: rest) = .ok requests) ↔
      s.checkSpec sb spec = .ok () ∧
        ∃ requests, s.checkedRequests (sb ++ [spec.requestId]) rest = .ok requests := by
  constructor
  · rintro ⟨requests, h⟩
    obtain ⟨⟨⟩, hs, h⟩ := bind_ok.mp h
    obtain ⟨ots, hr, _⟩ := bind_ok.mp h
    exact ⟨hs, ots, hr⟩
  · rintro ⟨hs, ots, hr⟩
    exact ⟨.make spec s.config.role :: ots, bind_ok.mpr ⟨(), hs, bind_ok.mpr ⟨ots, hr, rfl⟩⟩⟩

theorem checkedRequests_ok {limits : IngressLimits} {s : Scheduler} (hw : limits.Within s) {sps : List RequestSpec}
    (hf : ∀ spec ∈ sps, Fits limits spec) (sb) :
    (∃ requests, s.checkedRequests sb sps = .ok requests) ↔
      (∀ spec ∈ sps, spec.tokens ≠ [] ∧ s.findRequest spec.requestId = none ∧ spec.requestId ∉ sb) ∧
        (sps.map (·.requestId)).Nodup := by
  induction sps generalizing sb with
  | nil => simp [Scheduler.checkedRequests, pure, Except.pure]
  | cons spec rest ih =>
    have hs := (hf spec mem_cons_self).checkSpec_ok hw sb
    have hr := ih (fun x hx => hf x (mem_cons_of_mem _ hx)) (sb ++ [spec.requestId])
    rw [checkedRequests_cons, hs, hr]
    simp only [forall_mem_cons, map_cons, nodup_cons, mem_append, mem_singleton, not_or,
      mem_map, not_exists, not_and]
    constructor
    · rintro ⟨hh, ht, hn⟩
      refine ⟨⟨hh, fun x hx => ⟨(ht x hx).1, (ht x hx).2.1, (ht x hx).2.2.1⟩⟩, ?_, hn⟩
      intro x hx hq
      exact (ht x hx).2.2.2 hq
    · rintro ⟨⟨hh, ht⟩, hfr, hn⟩
      refine ⟨hh, fun x hx => ⟨(ht x hx).1, (ht x hx).2.1, (ht x hx).2.2, ?_⟩, hn⟩
      exact hfr x hx

theorem checkedRequests_ids {s : Scheduler} {submitted} {specs : List RequestSpec} {requests}
    (h : s.checkedRequests submitted specs = .ok requests) : requests.map (·.id) = specs.map (·.requestId) := by
  induction specs generalizing submitted requests with
  | nil =>
    cases h
    rfl
  | cons spec rest ih =>
    obtain ⟨_, -, h⟩ := bind_ok.mp h
    obtain ⟨others, hr, h⟩ := bind_ok.mp h
    cases h
    rw [map_cons, map_cons, ih hr]
    rfl

theorem IngressLimits.Within.congr {limits : IngressLimits} {s s' : Scheduler} (h : limits.Within s)
    (hc : s'.config = s.config ∧ s'.maxSingleRequestTokens = s.maxSingleRequestTokens) : limits.Within s' := by
  obtain ⟨hc, hm⟩ := hc
  exact ⟨hm ▸ h.modelLen, hm ▸ h.inputLen, hc ▸ hm ▸ h.decodeWindow, hm ▸ h.int32⟩

/-! ## Runs -/

/-- A spec that `SubmitRequests` takes under a fresh id. -/
def Submittable (limits : IngressLimits) (spec : RequestSpec) : Prop := Fits limits spec ∧ spec.tokens ≠ []

theorem submitBatches_ok {limits : IngressLimits} {batches : List (List RequestSpec)} : ∀ {s : Scheduler},
    limits.Within s → (∀ spec ∈ batches.flatten, Submittable limits spec) →
      (batches.flatten.map (·.requestId) ++ s.requests.map (·.id)).Nodup →
        ∃ s', batches.foldlM (fun s specs => s.submitRequests specs) s = .ok s' ∧ limits.Within s' ∧
          s'.requests.map (·.id) = s.requests.map (·.id) ++ batches.flatten.map (·.requestId) := by
  induction batches with
  | nil => exact fun hw _ _ => ⟨_, rfl, hw, by simp⟩
  | cons specs rest ih =>
    intro s hw hr hn
    rw [flatten_cons, forall_mem_append] at hr
    rw [flatten_cons, map_append, append_assoc] at hn
    obtain ⟨hd, hn', hdis⟩ := nodup_append.mp hn
    obtain ⟨requests, hc⟩ := (checkedRequests_ok hw (fun spec hs => (hr.1 spec hs).1) []).mpr
      ⟨fun spec hs => ⟨(hr.1 spec hs).2, Scheduler.findRequest_eq_none_iff.mpr fun hm =>
        hdis _ (mem_map_of_mem hs) _ (mem_append_right _ hm) rfl, by simp⟩, hd⟩
    have hids := checkedRequests_ids hc
    have hsub : s.submitRequests specs = .ok { s with requests := s.requests ++ requests } :=
      bind_ok.mpr ⟨requests, hc, rfl⟩
    obtain ⟨s', hf, hw', hi⟩ := @ih { s with requests := s.requests ++ requests } (hw.congr ⟨rfl, rfl⟩) hr.2 (by
      rw [map_append, hids, ← append_assoc]
      exact perm_append_comm.nodup_iff.mp hn)
    refine ⟨s', ?_, hw', ?_⟩
    · rw [foldlM_cons, hsub]
      exact hf
    · rw [hi, map_append, hids, flatten_cons, map_append, append_assoc]

theorem admittedSpecs_ids {limits messages} : (Intake.admittedSpecs limits messages).map (·.requestId) <+
    (requestsSent messages).filterMap (·.rid) := by
  unfold Intake.admittedSpecs
  induction requestsSent messages with
  | nil => exact .refl _
  | cons request rest ih =>
    rw [filterMap_cons, filterMap_cons]
    split
    · split
      · exact ih
      · exact ih.cons _
    · next spec hs =>
      split at hs
      · next ad ha =>
        cases hs
        rw [(TokenizedGenerateReqInput.admit_spec ha).2.1]
        exact ih.cons_cons _
      · cases hs

namespace IntakeRun

variable {limits : IngressLimits} {h h' : IntakeRun}

structure Sound (limits : IngressLimits) (h : IntakeRun) : Prop where
  under : h.intake.limits = limits
  within : limits.Within h.scheduler
  ready : ∀ spec ∈ h.intake.waiting, Submittable limits spec
  ids : (h.intake.waiting.map (·.requestId) ++ h.scheduler.requests.map (·.id)).Nodup

/-- What an orderly event adds is ready, under ids that nobody has. -/
theorem Sound.added (hs : h.Sound limits) {event} (ho : h.Orderly (.intake event)) :
    (∀ spec ∈ event.added limits, Submittable limits spec) ∧
      (((h.intake.waiting : Multiset RequestSpec) + event.added limits).map (·.requestId) +
        h.scheduler.requests.map (·.id)).Nodup := by
  cases event with
  | admitMessages messages last =>
    obtain ⟨hne, hnd, hfresh⟩ := ho
    refine ⟨fun spec hm => ?_, ?_⟩
    · obtain ⟨request, hq, hm⟩ := mem_filterMap.mp hm
      split at hm
      · next ad ha =>
        cases hm
        obtain ⟨hf, -, hi⟩ := TokenizedGenerateReqInput.admit_spec ha
        exact ⟨hf, fun ht => hne request hq (hi.trans (congrArg some ht))⟩
      · cases hm
    · have hsub := @admittedSpecs_ids limits messages
      have hn : ((Intake.admittedSpecs limits messages).map (·.requestId) ++
          (h.intake.waiting.map (·.requestId) ++ h.scheduler.requests.map (·.id))).Nodup := by
        refine nodup_append.mpr ⟨hnd.sublist hsub, hs.ids, ?_⟩
        rintro rid hr _ hm rfl
        obtain ⟨hw, hf⟩ := hfresh rid (hsub.subset hr)
        rcases mem_append.mp hm with hm | hm
        · exact hw hm
        · exact Scheduler.findRequest_eq_none_iff.mp hf hm
      simp only [Multiset.map_coe, map_append, Multiset.coe_add, Multiset.coe_nodup, Intake.Event.added]
      rw [← append_assoc] at hn
      exact (perm_append_comm.append_right _).nodup_iff.mp hn
  | pause | grammars | staged =>
    exact ⟨by simp [Intake.Event.added], by simpa [Intake.Event.added] using hs.ids⟩

theorem Sound.intake (hs : h.Sound limits) {event} (ho : h.Orderly (.intake event)) :
    ∃ h', h.step (.intake event) = .ok h' ∧ h'.Sound limits := by
  obtain ⟨hl, hf⟩ := @Intake.step_flows h.intake event
  rw [hs.under] at hl hf
  obtain ⟨hr, hn⟩ := hs.added ho
  have hready : ∀ spec ∈ ((h.intake.step event).1.flatten : Multiset RequestSpec) + (h.intake.step event).2.waiting,
      Submittable limits spec := fun spec hm => by
    rcases Multiset.mem_add.mp (Multiset.mem_of_le hf hm) with hm | hm
    · exact hs.ready spec hm
    · exact hr spec hm
  have hids := Multiset.nodup_of_le (add_le_add_left (Multiset.map_le_map hf) _) hn
  simp only [Multiset.map_coe, map_append, Multiset.coe_add, Multiset.coe_nodup] at hids
  obtain ⟨s', hsub, hw, hi⟩ := submitBatches_ok hs.within
    (fun spec hm => hready spec (Multiset.mem_add.mpr (.inl hm)))
    (hids.sublist ((sublist_append_left ..).append_right _))
  refine ⟨⟨(h.intake.step event).2, s'⟩, bind_ok.mpr ⟨s', hsub, rfl⟩, hl, hw,
    fun spec hm => hready spec (Multiset.mem_add.mpr (.inr hm)), ?_⟩
  rw [append_assoc] at hids
  rw [hi, ← append_assoc]
  exact perm_append_comm.nodup_iff.mp hids

theorem Sound.call (hs : h.Sound limits) {c} (ho : h.Orderly (.call c)) (hstep : h.step (.call c) = .ok h') :
    h'.Sound limits := by
  obtain ⟨⟨plan, s⟩, hc, hh⟩ := bind_ok.mp hstep
  cases hh
  have hj : ∀ specs, c = .submit specs → False := by
    rintro specs rfl
    exact ho
  obtain ⟨out, hm⟩ := @Scheduler.call_moved h.scheduler ⟨True, False⟩ trivial (nodup_append.mp hs.ids).2.1 c hj _ hc
  exact ⟨hs.under, hs.within.congr hm.config, hs.ready, hs.ids.sublist ((hm.ids id).append_left _)⟩

theorem sound_of_steps {s₀ : Scheduler} (hn : s₀.IdsNodup) (hw : limits.Within s₀)
    (hr : Relation.ReflTransGen Step ⟨{ limits := limits }, s₀⟩ h) : h.Sound limits := by
  induction hr with
  | refl => exact ⟨rfl, hw, by simp [Intake.waiting], by simpa [Intake.waiting, Scheduler.IdsNodup] using hn⟩
  | tail _ hs ih =>
    obtain ⟨event, ho, hs⟩ := hs
    cases event with
    | intake event =>
      obtain ⟨h', hs', hsound⟩ := ih.intake ho
      cases hs.symm.trans hs'
      exact hsound
    | call c => exact ih.call ho hs

end IntakeRun

end TokenSpeed.Engine

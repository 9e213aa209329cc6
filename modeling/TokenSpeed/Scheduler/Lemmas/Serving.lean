import TokenSpeed.Scheduler.Lemmas.Batch

/-!
# The batch across a retraction loop

The loop of `maybeRetractForCapacity` keeps the batch's invariant: the request it serves is in no operation
yet, and while only decodes are in the batch one more fits the budget.
-/

namespace TokenSpeed

open List Scheduler

namespace Round

variable {r r' r₁ : Round} {req req' : Request} {id : Nat} {op : ForwardOperation}

/-! ## Victims -/

structure Aside (id : Nat) (r r' : Round) : Prop where
  batch : SameBatch r r'
  config : r'.sched.config = r.sched.config
  others : ∀ id' ≠ id, r'.sched.findRequest id' = r.sched.findRequest id'

theorem Aside.refl (id r) : Aside id r r := ⟨SameBatch.refl r, rfl, fun _ _ => rfl⟩

variable {r₂ : Round}

theorem Aside.trans (h : Aside id r r₁) (h' : Aside id r₁ r₂) : Aside id r r₂ :=
  ⟨h.batch.trans h'.batch, h'.config.trans h.config, fun id' hn => (h'.others id' hn).trans (h.others id' hn)⟩

theorem findRequest_setRequest_of_requests {s s1 : Scheduler} (h : s1.requests = s.requests) (hn : id ≠ req.id) :
    (s1.setRequest req).findRequest id = s.findRequest id := by
  rw [findRequest_setRequest_ne hn, findRequest, findRequest, h]

theorem applyAbort_others (s : Scheduler) (victim : Request) : Ensures (s.applyAbort victim) fun s' =>
    s'.config = s.config ∧ ∀ id ≠ victim.id, s'.findRequest id = s.findRequest id := by
  have hk : ∀ {blob row} {cl : Result Scheduler},
    (Ensures cl fun s' => s'.core = (s.core.releaseBlob blob).returnRow row) →
      Ensures (do let s ← cl; pure (s.setRequest (victim.toState .finished)))
        fun s' => s'.config = s.config ∧ ∀ id ≠ victim.id, s'.findRequest id = s.findRequest id := by
    intro blob row cl hc
    refine hc.bind fun s1 h1 => .pure ⟨?_, fun id hn => findRequest_setRequest_of_requests ?_ hn⟩
    · exact (congrArg Core.config h1).trans (by cases blob <;> cases row <;> rfl)
    · exact (congrArg Core.requests h1).trans (by cases blob <;> cases row <;> rfl)
  have hp : (s.setRequest (victim.toState .finished)).config = s.config ∧ ∀ id ≠ victim.id,
      (s.setRequest (victim.toState .finished)).findRequest id = s.findRequest id :=
    ⟨rfl, fun id hn => findRequest_setRequest_ne hn⟩
  have hd := fun rss => @hk none _ _ (@core_releaseResources s rss)
  unfold applyAbort
  split
  · exact .pure hp
  · exact .pure hp
  · exact .pure hp
  · exact hd _
  · exact hd _
  · exact hd _
  · exact hd _
  · exact hd _
  · exact hd _
  · exact @hk (some _) none _ core_releaseRetracted
  · exact hk core_releaseRestoring
  · exact .pure ⟨rfl, fun _ _ => rfl⟩

variable {victim : Request}

theorem RetractOutcome.aside {x} (h : RetractOutcome r victim x) : Aside victim.id r x.2 := by
  cases h with
  | noSlot _ => exact Aside.refl _ _
  | @tried s next x _ pbs ims =>
    obtain ⟨c, _, _, _, _, _, hn, hh⟩ := pbs.sched
    have hd : next.id = victim.id := by rw [hn]; rfl
    have hp : Aside victim.id r { r with sched := s } := by
      refine ⟨by constructor <;> rfl, by rw [hh]; rfl, fun id' hne => ?_⟩
      rw [hh]
      exact findRequest_setRequest_ne (hd ▸ hne)
    refine hp.trans ?_
    obtain ⟨_ | sh, r'⟩ := x
    · obtain ⟨held, _, _, row, _, _, _, _, _, _, hm⟩ := ims
      have hs := hm.retracts.sched
      rw [hm.owns] at hs
      refine ⟨by rw [hm.round]; constructor <;> rfl, by rw [hs]; rfl, fun id' hne => ?_⟩
      rw [hs]
      refine @findRequest_setRequest_of_requests (Request.toState _ _) _ _ _ rfl ?_
      exact fun hq => hne (hq.trans hd)
    · obtain ⟨_, _, _, _, _, _, _, hm⟩ := ims
      refine ⟨by rw [hm.round]; constructor <;> rfl, by rw [hm.round]; rfl, fun id' hne => ?_⟩
      rw [hm.round]
      rfl

theorem giveWay_aside (hf : r.sched.findRequest victim.id = some victim) (fs) :
    Ensures (r.giveWay victim fs) (Aside victim.id r) := by
  have ht : Ensures (r.tryRetract victim fs) fun x => Aside victim.id r x.2 := by
    refine .ite (fun _ => ?_) fun _ => .pure (Aside.refl _ r)
    exact (retractVictim_ensures r hf).mono fun _ h => h.aside
  refine ht.bind fun ⟨sh, r₁⟩ h1 => ?_
  cases sh with
  | none => exact .pure h1
  | some sh =>
    dsimp only
    unfold onImageDoesNotFit
    split
    · exact ensures_error
    next fn hfo =>
      refine (applyAbort_others r₁.sched fn).bind fun s hs => .pure (h1.trans ?_)
      refine ⟨by constructor <;> rfl, hs.1, fun id' hn => hs.2 id' ?_⟩
      rwa [findRequest_id hfo]

theorem Aside.batch_inv (h : Aside id r r') (hb : Batch r) (hd : id ∉ r.ids) : Batch r' :=
  hb.of_same h.batch h.config fun x hx => h.others x fun hq => hd (hq ▸ hx)

/-! ## The retraction loop -/

structure Serving (blocker : Nat) (r : Round) : Prop where
  batch : Batch r
  blocked : ∀ id ∈ r.capacityBlocked, id ∉ r.ids
  blocker : blocker ∉ r.ids
  decodes : ∀ op ∈ r.operations, op.isPrefill = false

structure Served (r r' : Round) : Prop where
  batch : Batch r'
  config : r'.sched.config = r.sched.config
  funded : r.sched.config.role = .fused → r.sched.config.DecodesFit → 0 ≤ r.tokenBudget → 0 ≤ r'.tokenBudget

theorem Served.trans (h : Served r r₁) (h' : Served r₁ r₂) : Served r r₂ :=
  ⟨h'.batch, h'.config.trans h.config, fun hr hf hn =>
    h'.funded (h.config.symm ▸ hr) (h.config.symm ▸ hf) (h.funded hr hf hn)⟩

variable {blocker : Nat}

theorem Serving.open (h : Serving blocker r) : Open r := by
  intro o ho
  have hd := h.decodes o ho
  cases o with
  | prefill => exact nomatch hd
  | decode => exact not_false

theorem inputTokens_of_decodes (hb : Batch r) (hd : ∀ op ∈ r.operations, op.isPrefill = false) :
    inputTokens r.operations = r.operations.length * r.sched.config.decodeTokens := by
  unfold inputTokens
  rw [map_congr_left fun o ho => hb.width o ho (hd o ho), map_const', sum_replicate_nat]

theorem Serving.decode_fits (h : Serving blocker r) (hr : r.sched.config.role = .fused) (ht : r.sched.config.DecodesFit)
    (hfu : r.full = false) : (r.sched.config.decodeTokens : Int) ≤ r.tokenBudget := by
  have hb := h.batch.budget
  rw [inputTokens_of_decodes h.batch h.decodes] at hb
  obtain ⟨hs, hl⟩ := Bool.or_eq_false_iff.mp hfu
  have hs : 0 < r.tokenBudget := by simpa using hs
  have hl : (r.operations.length : Int) ≠ r.sched.config.maxBatchSize := by simpa using hl
  have hsi := h.batch.size
  rcases lt_or_ge r.sched.config.decodeInputTokens 1 with hw | hw
  · have : r.sched.config.decodeTokens = 0 := by
      rw [EngineConfig.decodeTokens]
      omega
    rw [this]
    omega
  have hc : (r.sched.config.decodeTokens : Int) = r.sched.config.decodeInputTokens := by
    rw [EngineConfig.decodeTokens]
    omega
  push_cast at hb
  rw [hc] at hb ⊢
  rcases ht with hp | hd | hf
  · rw [hr] at hp
    exact nomatch hp
  · refine Int.le_of_dvd hs ?_
    rw [hb]
    exact Int.dvd_sub hd (Dvd.intro_left _ rfl)
  · have hn : ((r.operations.length : Int) + 1) * r.sched.config.decodeInputTokens ≤
        r.sched.config.maxBatchSize * r.sched.config.decodeInputTokens :=
      Int.mul_le_mul_of_nonneg_right (by omega) (by omega)
    rw [Int.add_mul, Int.one_mul] at hn
    omega

theorem Serving.of_same (hs : Serving blocker r) (h : SameBatch r r') (hb : Batch r') : Serving blocker r' where
  batch := hb
  blocked := by
    rw [h.capacityBlocked, ids_of_batch h]
    exact hs.blocked
  blocker := (ids_of_batch h).symm ▸ hs.blocker
  decodes := h.operations.symm ▸ hs.decodes

/-- What an attempt leaves: a round as good as before, in which the blocker may still wait. -/
abbrev Attempt (blocker : Nat) (r : Round) (x : Bool × Round) : Prop :=
  Served r x.2 ∧ (x.1 = false → Serving blocker x.2)

theorem Declined.attempt {granted} (h : Declined r r') (hs : Serving blocker r) : Attempt blocker r (granted, r') :=
  have hb := h.batch_inv hs.batch
  ⟨⟨hb, config_of_core h.core, fun _ _ hf => h.batch.tokenBudget.symm ▸ hf⟩, fun _ => hs.of_same h.batch hb⟩

theorem Served.refl (h : Batch r) : Served r r := ⟨h, rfl, fun _ _ h => h⟩

theorem Serving.none_found (h : Serving blocker r) : Served r { r with admissionFailed := false } :=
  ⟨{ h.batch with }, rfl, fun _ _ h => h⟩

section

variable (hr : r.sched.config.role = .fused) (h : Serving blocker r) (hfu : r.full = false)
include hr h hfu

theorem grantDecode_serving : Ensures (r.grantDecode blocker) (Attempt blocker r) := by
  unfold grantDecode
  cases hf : r.sched.findRequest blocker with
  | none =>
    unfold decodeCandidate
    rw [show ({ r with admissionFailed := false } : Round).sched.findRequest blocker = none from hf]
    exact .pure ⟨h.none_found, nofun⟩
  | some req =>
    have hid := findRequest_id hf
    have hd : r.sched.config.role ≠ .d := by rw [hr]; nofun
    refine (decodeCandidate_joined .all (r := { r with admissionFailed := false }) hf).bind ?_
    rintro ⟨_ | op, r₁⟩ ht
    · exact .pure ((Declined.forget ht).attempt h)
    · obtain ⟨req', hj⟩ := ht
      have hp : Pushed r blocker (.decode op) _ _ := hj.toJoined.pushed_at hid hj.requestId hj.row
      refine .pure ⟨⟨?_, hp.config, fun _ hfi _ => ?_⟩, nofun⟩
      · exact hp.batch_inv hd h.batch hfu h.blocker nofun fun _ => hj.inputLength
      · have hs := h.decode_fits hr hfi hfu
        have hl : (op.inputLength : Int) = (r.sched.config.decodeTokens : Int) := congrArg Nat.cast hj.inputLength
        rw [hp.tokenBudget hd]
        show 0 ≤ r.tokenBudget - (op.inputLength : Int)
        omega

theorem grantPrefill_serving : Ensures (r.grantPrefill blocker) (Attempt blocker r) := by
  have hd : r.sched.config.role ≠ .d := by rw [hr]; nofun
  unfold grantPrefill
  dsimp only
  rw [if_neg hd]
  cases hf : r.sched.findRequest blocker with
  | none =>
    unfold schedulePrefillCandidate
    rw [show ({ r with admissionFailed := false } : Round).sched.findRequest blocker = none from hf]
    exact .pure ⟨h.none_found, nofun⟩
  | some req =>
    have hid := findRequest_id hf
    refine (schedulePrefillCandidate_joined .all (r := { r with admissionFailed := false }) hf).bind ?_
    rintro ⟨_ | op, r₁⟩ ht
    · exact .pure ((Declined.forget ht).attempt h)
    · obtain ⟨req', hj⟩ := ht
      have hp : Pushed r blocker (.prefill op) _ _ := hj.toJoined.pushed_at hid hj.requestId hj.row
      have hh := PrefillPhase.of_pushed hp hd h.batch hfu h.blocker h.open (hj.fits hd)
      refine .ite (fun hd' => absurd hd' hd) fun _ => .pure ⟨?_, nofun⟩
      exact ⟨hh.batch, hh.config, fun _ _ hn => hh.funded hn⟩

theorem grant_serving : Ensures (r.grant blocker) (Attempt blocker r) := by
  refine .ite (fun _ => grantDecode_serving hr h hfu) fun _ => ?_
  exact .ite (fun _ => .pure ⟨.refl h.batch, nofun⟩) fun _ => grantPrefill_serving hr h hfu

end

theorem Batch.quiet_not_mem (h : Batch r) (hf : r.sched.findRequest id = some req) (hq : req.resultsInFlight = 0) :
    id ∉ r.ids := by
  intro hm
  obtain ⟨op, hop, rfl⟩ := mem_map.mp hm
  obtain ⟨fn, hfo, ht, _⟩ := h.tracked op hop
  obtain rfl := Option.mem_unique hfo hf
  omega

theorem resultsInFlight_of_kind (h : req.state.kind = .submitted) : req.resultsInFlight = 0 := by
  unfold Request.resultsInFlight
  cases hs : req.state <;> rw [hs] at h <;> first | rfl | exact nomatch h

variable {candidates : List Nat} {ie : Bool}

theorem Serving.nextBlocker {victim next} (h : Serving blocker r)
    (hn : r.nextBlocker candidates ie blocker victim = some next) : Serving next r := by
  refine { h with blocker := ?_ }
  unfold Round.nextBlocker at hn
  split at hn
  · exact Option.some.inj hn ▸ h.blocker
  · split at hn
    next blob hb =>
      exact Option.some.inj hn ▸ h.blocked blob (mem_of_find?_eq_some hb)
    next =>
      split at hn
      next wt hw =>
        obtain rfl := Option.some.inj hn
        have hh := find?_some hw
        simp only [otherIs, Bool.and_eq_true, Option.any_eq_true] at hh
        obtain ⟨_, req, hf, hk⟩ := hh
        refine h.batch.quiet_not_mem hf (resultsInFlight_of_kind ?_)
        simpa using Request.isAnyOf_iff.mp hk
      next =>
        split at hn
        · exact Option.some.inj hn ▸ h.blocker
        · exact nomatch hn

theorem serveDecodes_serving {victim} (hr : r.sched.config.role = .fused) (h : Serving blocker r)
    (hp : ie = true → r.operations = []) :
    Ensures (r.serveDecodes candidates ie blocker victim) (Attempt blocker r) := by
  refine .ite (fun his => ?_) fun _ => .pure ⟨.refl h.batch, fun _ => h⟩
  have hd : r.sched.config.role ≠ .d := by rw [hr]; nofun
  refine (scheduleDecodeBatch_batch candidates r hd h.batch).bind fun r₁ h1 => .pure ?_
  refine ⟨⟨h1.batch, h1.config, fun _ _ => h1.funded⟩, fun hg => ?_⟩
  -- A round that pushed no decode on the way is as empty as before.
  have hs : r₁.operations = [] := by
    obtain ⟨new, hn, hde⟩ := h1.operations
    rw [hp his, nil_append] at hn
    rw [hn]
    refine eq_nil_iff_forall_not_mem.mpr fun o ho => ?_
    have hpu := h1.batch.pushedDecode o (hn ▸ ho) (hde o ho)
    rw [hpu, Bool.true_or] at hg
    exact nomatch hg
  have hid : r₁.ids = [] := by rw [ids, hs]; rfl
  refine ⟨h1.batch, fun id _ => hid ▸ not_mem_nil, hid ▸ not_mem_nil, ?_⟩
  rw [hs]
  exact forall_mem_nil _

theorem retractAndGrant_serving {ch} (hr : r.sched.config.role = .fused) (h : Serving blocker r)
    (hf : r.sched.findRequest victim.id = some victim) (hq : victim.resultsInFlight = 0)
    (hp : ie = true → r.operations = []) :
    Ensures (r.retractAndGrant candidates victim ch ie blocker) (Attempt blocker r) := by
  refine (giveWay_aside hf ch.imageFits).bind fun r₁ h1 => ?_
  have hse := h.of_same h1.batch (h1.batch_inv h.batch (h.batch.quiet_not_mem hf hq))
  have hs : Served r r₁ := ⟨hse.batch, h1.config, fun _ _ hn => h1.batch.tokenBudget.symm ▸ hn⟩
  refine (serveDecodes_serving (h1.config.symm ▸ hr) hse fun his =>
    h1.batch.operations.trans (hp his)).bind fun ⟨ended, r₂⟩ h2 => ?_
  have hso := hs.trans h2.1
  refine .ite (fun hd => .pure ⟨hso, nofun⟩) fun hg => ?_
  obtain ⟨hd, hfu⟩ : ended = false ∧ r₂.full = false := by simpa using hg
  refine (grant_serving (hso.config.symm ▸ hr) (h2.2 hd) hfu).mono fun x hx => ?_
  exact ⟨hso.trans hx.1, hx.2⟩

theorem iterationVictim_isEmpty (r : Round) (candidates) :
    Ensures (r.iterationVictim candidates) fun x => x.2 = true → r.operations = [] := by
  refine .skip fun ch _ => .ite (fun hp => .skip fun _ _ => .pure fun _ => ?_)
    fun _ => .pure nofun
  simp only [emptyRound, Bool.and_eq_true] at hp
  simpa using hp.2.1.1.1.1

theorem retractLoop_serving (candidates) : ∀ fl blocker r,
    r.sched.config.role = .fused → Serving blocker r → Ensures (retractLoop candidates fl blocker r) (Served r)
  | 0, _, _, _, h => .pure (.refl h.batch)
  | fl + 1, blocker, r, hr, h => by
    refine ((iterationVictim_ensures r candidates).and (iterationVictim_isEmpty r candidates)).bind ?_
    rintro ⟨ch, ie⟩ ⟨hv, hp⟩
    dsimp only
    split
    next => exact .pure (.refl h.batch)
    next victim hbi =>
      obtain ⟨id, _, hf⟩ := Option.bind_eq_some_iff.mp hbi
      refine .ite (fun _ => .pure (.refl h.batch)) fun hb => ?_
      have hq : victim.resultsInFlight = 0 := by simp at hb; exact hb.1
      split
      next => exact .pure (.refl h.batch)
      next next hn =>
        refine (retractAndGrant_serving hr (h.nextBlocker hn) (find_self hf) hq hp).bind fun x hx => ?_
        refine .ite (fun _ => .pure hx.1) fun hg => ?_
        exact (retractLoop_serving candidates fl next x.2 (hx.1.config.symm ▸ hr)
          (hx.2 (by simpa using hg))).mono fun _ h => hx.1.trans h

theorem maybeRetractForCapacity_serving (hr : r.sched.config.role = .fused) (hb : Batch r)
    (hl : r.pushedPrefill = false → Clear r) (candidates) :
    Ensures (r.maybeRetractForCapacity candidates) (Served r) := by
  unfold maybeRetractForCapacity
  split
  next => exact .pure (.refl hb)
  next blocker hbl =>
    have hf : Batch { r with capacityBlocker := none } := { hb with }
    refine .ite (fun _ => .pure ⟨hf, rfl, fun _ _ h => h⟩) fun hg => ?_
    have hn : r.pushedPrefill = false := by
      by_contra hp
      refine hg ?_
      have : r.pushedPrefill = true := by simpa using hp
      simp [noPrefillProgress, this]
    have hc := hl hn
    refine (retractLoop_serving candidates _ blocker { r with capacityBlocker := none } hr
      ⟨hf, hc.blocked, hc.blocked blocker (hc.blocker blocker hbl), fun o ho => ?_⟩).mono fun _ h => { h with }
    by_contra hpr
    rw [hb.pushedPrefill o ho (by simpa using hpr)] at hn
    exact nomatch hn

/-! ## A whole build -/

structure Fresh (r : Round) : Prop where
  operations : r.operations = []
  tokenBudget : r.tokenBudget = r.sched.config.maxScheduledTokens
  pushedPrefill : r.pushedPrefill = false
  capacityBlocker : r.capacityBlocker = none
  capacityBlocked : r.capacityBlocked = []

theorem Fresh.batch (h : Fresh r) (hsi : 0 ≤ r.sched.config.maxBatchSize) : Batch r := by
  have hs : r.ids = [] := by rw [ids, h.operations]; rfl
  constructor
  · rw [hs]; exact nodup_nil
  · rw [hs]; exact forall_mem_nil _
  · rw [h.operations]; exact forall_mem_nil _
  · rw [h.operations]; exact hsi
  · rw [h.tokenBudget, h.operations]; simp [inputTokens]
  · rw [h.operations]; exact Pairwise.nil
  all_goals
    rw [h.operations]
    exact forall_mem_nil _

theorem Fresh.clear (h : Fresh r) : Clear r := by
  constructor
  · rw [h.capacityBlocked]; exact forall_mem_nil _
  · rw [h.capacityBlocker]; nofun

theorem Fresh.open (h : Fresh r) : Open r := by
  unfold Open
  rw [h.operations]
  exact forall_mem_nil _

theorem Fresh.of_same (h : Fresh r) (hs : r'.operations = r.operations) (hd : r'.tokenBudget = r.tokenBudget)
    (hc : r'.sched.config = r.sched.config) (hp : r'.pushedPrefill = r.pushedPrefill)
    (hl : r'.capacityBlocker = r.capacityBlocker) (hb : r'.capacityBlocked = r.capacityBlocked) : Fresh r' :=
  ⟨hs.trans h.operations, by rw [hd, hc]; exact h.tokenBudget, hp.trans h.pushedPrefill,
    hl.trans h.capacityBlocker, hb.trans h.capacityBlocked⟩

theorem Fresh.of_batch (h : Fresh r) (hb : SameBatch r r') (hc : r'.sched.config = r.sched.config) : Fresh r' :=
  h.of_same hb.operations hb.tokenBudget hc hb.pushedPrefill hb.capacityBlocker hb.capacityBlocked

def Opens (r r' : Round) : Prop := (Fresh r → Fresh r') ∧ r'.sched.config = r.sched.config

theorem Opens.trans (h : Opens r r₁) (h' : Opens r₁ r₂) : Opens r r₂ := ⟨h'.1 ∘ h.1, h'.2.trans h.2⟩

theorem scheduleRemoteDecodes_opens : ∀ candidates r, Ensures (scheduleRemoteDecodes candidates r) (Opens r)
  | [], _ => .pure ⟨id, rfl⟩
  | id :: rest, r => by
    refine .ite (fun hy => ?_) fun _ => scheduleRemoteDecodes_opens rest r
    obtain ⟨req, hf, _⟩ : ∃ req, r.sched.findRequest id = some req ∧ req.is .prefillDone = true := by
      simpa [Option.any_eq_true] using hy
    refine (decodeCandidate_joined .all hf).bind ?_
    rintro ⟨_ | op, r₁⟩ ht
    · have hn : Opens r r₁ :=
        ⟨fun h => h.of_batch ht.batch (config_of_core ht.core), config_of_core ht.core⟩
      exact (scheduleRemoteDecodes_opens rest r₁).mono fun _ h => hn.trans h
    · obtain ⟨req', hj⟩ := ht
      have hn : Opens r { r₁.markScheduled id with remoteDecode := r₁.remoteDecode ++ [.decode op] } := by
        refine ⟨fun h => ?_, hj.config⟩
        exact { h.of_batch hj.batch hj.config with }
      exact (scheduleRemoteDecodes_opens rest _).mono fun _ h => hn.trans h

theorem maybeForceRetraction_opens (r : Round) (candidates) :
    Ensures (r.maybeForceRetraction candidates) (Opens r) := by
  have hs : ∀ {r'}, r'.operations = r.operations → r'.tokenBudget = r.tokenBudget →
      r'.sched.config = r.sched.config → r'.pushedPrefill = r.pushedPrefill → r'.capacityBlocker = r.capacityBlocker →
      r'.capacityBlocked = r.capacityBlocked → Opens r r' :=
    fun h1 h2 h3 h4 h5 h6 => ⟨fun h => h.of_same h1 h2 h3 h4 h5 h6, h3⟩
  refine .ite (fun _ => .pure ⟨id, rfl⟩) fun _ => ?_
  split
  next => exact .pure (hs rfl rfl rfl rfl rfl rfl)
  next ar hm =>
    refine .ite (fun _ => .pure (hs rfl rfl rfl rfl rfl rfl)) fun _ => ?_
    refine (retractVictim_ensures { r with sched := { r.sched with forcedVictim := none } } (armed_spec hm).1).bind
      fun x hx => .pure ?_
    have hai := hx.aside
    exact hs hai.batch.operations hai.batch.tokenBudget hai.config hai.batch.pushedPrefill
      hai.batch.capacityBlocker hai.batch.capacityBlocked

theorem tryReadmissions_opens : ∀ rn iss r,
    (∀ x ∈ rn, x.1.state = .retracted x.2) → Ensures (tryReadmissions rn iss r) fun x => Opens r x.2
  | [], _, _, _ => .pure ⟨id, rfl⟩
  | (req, retracted) :: rest, iss, r, hn => by
    refine (scheduleRestore_ensures { r with admissionFailed := false } (hn _ mem_cons_self)).bind ?_
    rintro ⟨restored, r₁⟩ hx
    have hp : Opens r r₁ := by
      cases restored with
      | true =>
        obtain ⟨_, _, _, _, _, _, h⟩ : ∃ _ _ _ _ _ _, Restores _ _ _ _ _ _ _ _ _ _ := by simpa using hx
        have hc : r₁.sched.config = r.sched.config := by rw [h.sched]; rfl
        refine ⟨fun hf => hf.of_same ?_ ?_ hc ?_ ?_ ?_, hc⟩ <;> rw [h.round] <;> rfl
      | false =>
        rcases (by simpa using hx : r₁ = _ ∨ r₁ = _) with rfl | rfl <;> exact ⟨fun h => { h with }, rfl⟩
    refine .ite (fun _ => .pure hp) fun _ => ?_
    exact (tryReadmissions_opens rest true r₁ fun x hx => hn x (mem_cons_of_mem _ hx)).mono fun _ h =>
      hp.trans h

theorem scheduleReadmission_opens (r : Round) (candidates) :
    Ensures (r.scheduleReadmission candidates) fun x => Opens r x.2 := by
  refine tryReadmissions_opens _ false r fun x hx => ?_
  have hm := (mem_insertionSort _).mp (mem_of_mem_take hx)
  obtain ⟨req, _, hl⟩ := mem_filterMap.mp hm
  obtain ⟨rt, hr, rfl⟩ := Option.map_eq_some_iff.mp hl
  exact landedImage_state hr

theorem Idle.clear (h : Idle r r') (hb : Batch r) (hc : Clear r) : Clear r' where
  blocked := by
    intro id hd
    have hs : r'.ids = r.ids := by rw [ids, h.operations, ids]
    rw [hs]
    rcases h.blocked id hd with hold | ⟨hn, _⟩
    · exact hc.blocked id hold
    · exact fun hm => hn (hb.scheduled id hm)
  blocker := h.blocker hc.blocker

/-- The decodes of mixed mode, over a round in which nobody waits yet. -/
theorem mixedDecodes_batch (hd : r.sched.config.role ≠ .d) (hfr : Fresh r) (hb : Batch r) (hnd : candidates.Nodup) :
    Ensures (r.mixedDecodes candidates) fun r' => Batch r' ∧ Clear r' ∧ Open r' ∧ r'.sched.config = r.sched.config ∧
      (0 ≤ r.tokenBudget → 0 ≤ r'.tokenBudget) ∧ (r.sched.config.enableMixedPrefillDecode = false → r' = r) := by
  refine .ite (fun hm => ?_) fun _ => ensures_pure.mpr ⟨hb, hfr.clear, hfr.open, rfl, id, fun _ => rfl⟩
  have hh : ∀ reserve, Ensures (scheduleDecodeBatch candidates { r with pendingPrefillReserve := reserve })
      (DecodePhase { r with pendingPrefillReserve := reserve } candidates) := fun _ =>
    scheduleDecodeBatch_batch candidates _ hd { hb with }
  refine (hh _).mono fun r' h => ?_
  refine ⟨h.batch, h.clear hnd ⟨hfr.clear.1, hfr.clear.2⟩ fun id _ hid => ?_, fun o ho => ?_, h.config, h.funded,
    fun hof => ?_⟩
  · rw [hfr.capacityBlocked] at hid
    exact absurd hid not_mem_nil
  · obtain ⟨new, hos, hde⟩ := h.operations
    rw [hfr.operations, nil_append] at hos
    have hdc := hde o (hos ▸ ho)
    cases o with
    | prefill => cases hdc
    | decode => exact not_false
  · rw [hof] at hm
    cases hm

/-- The decodes of a round without prefill work: whoever waits then waits for a prefill. -/
theorem lateDecodes_batch (hd : r'.sched.config.role ≠ .d) (hb : Batch r) (hcl : Clear r) (h : PrefillPhase r r')
    (hnd : candidates.Nodup) (hno : r'.sched.config.enableMixedPrefillDecode = false → r.capacityBlocked = []) :
    Ensures (r'.lateDecodes candidates) fun r₁ => Batch r₁ ∧ (r₁.pushedPrefill = false → Clear r₁) ∧
      r₁.sched.config = r'.sched.config ∧ (0 ≤ r'.tokenBudget → 0 ≤ r₁.tokenBudget) := by
  refine .ite (fun hg => ?_) fun _ => ensures_pure.mpr ⟨h.batch, fun hn => (h.idle hn).clear hb hcl, rfl, id⟩
  obtain ⟨hof, hn⟩ : r'.sched.config.enableMixedPrefillDecode = false ∧ r'.pushedPrefill = false := by
    simpa using hg
  have hie := h.idle hn
  refine (scheduleDecodeBatch_batch candidates r' hd h.batch).mono fun r₁ h1 => ?_
  refine ⟨h1.batch, fun _ => h1.clear hnd (hie.clear hb hcl) fun id _ hid => ?_, h1.config, h1.funded⟩
  rcases hie.blocked id hid with hold | ⟨_, req, hf, hk⟩
  · rw [hno hof] at hold
    exact absurd hold not_mem_nil
  · rw [skipsDecode, find_of_core hie.core, hf, Option.any_some, Bool.or_eq_true]
    refine .inl ?_
    rw [Bool.not_eq_true', Bool.eq_false_iff, Ne, Request.isAnyOf_iff]
    intro hdc
    simp only [mem_cons, not_mem_nil, or_false] at hk hdc
    rcases hk with h | h <;> rw [h] at hdc <;> simp at hdc

theorem buildFusedPlan_served (hr : r.sched.config.role = .fused) (hsi : 0 ≤ r.sched.config.maxBatchSize)
    (hfr : Fresh r) (hnd : candidates.Nodup) : Ensures (r.buildFusedPlan candidates) (Served r) := by
  refine (maybeForceRetraction_opens r candidates).bind fun r₁ h1 => ?_
  refine (scheduleReadmission_opens r₁ candidates).bind ?_
  rintro ⟨iss, r₂⟩ h2
  have hon := h1.trans h2
  have hfr2 := hon.1 hfr
  have hd : r₂.sched.config.role ≠ .d := by rw [hon.2, hr]; decide
  have hbu : r₂.tokenBudget = r.tokenBudget := by rw [hfr2.tokenBudget, hfr.tokenBudget, hon.2]
  refine (mixedDecodes_batch hd hfr2 (hfr2.batch (hon.2.symm ▸ hsi)) hnd).bind ?_
  rintro r3 ⟨hb3, hcl3, hop3, hc3, hfn3, hs3⟩
  refine (scheduleLocalPrefillWork_batch (hc3.symm ▸ hd) hb3 hop3 candidates iss _).bind fun r4 h4 => ?_
  have hc4 := h4.config.trans hc3
  refine (lateDecodes_batch (hc4.symm ▸ hd) hb3 hcl3 h4 hnd fun hof => ?_).bind ?_
  · rw [hs3 (by rw [hc4] at hof; exact hof), hfr2.capacityBlocked]
  rintro r5 ⟨hb5, hcl5, hc5, hfn5⟩
  have hc : r5.sched.config = r.sched.config := hc5.trans (hc4.trans hon.2)
  refine (maybeRetractForCapacity_serving (hc.symm ▸ hr) hb5 hcl5 candidates).mono fun r6 h6 => ?_
  refine ⟨h6.batch, h6.config.trans hc, fun hfs ht hfn => ?_⟩
  exact h6.funded (hc.symm ▸ hfs) (hc.symm ▸ ht)
    (hfn5 (h4.funded (hfn3 (hbu.symm ▸ hfn))))

theorem build_served (hr : r.sched.config.role ≠ .d) (hsi : 0 ≤ r.sched.config.maxBatchSize) (hf : Fresh r)
    (hnd : candidates.Nodup) :
    Ensures (r.build candidates) fun r' => Batch r' ∧ r'.sched.config = r.sched.config ∧
      (r.sched.config.DecodesFit → 0 ≤ r.tokenBudget → 0 ≤ r'.tokenBudget) := by
  unfold build
  split
  next hp =>
    refine (scheduleRemoteDecodes_opens candidates r).bind fun r₁ h1 => ?_
    have hf1 := h1.1 hf
    refine (scheduleLocalPrefillWork_batch (h1.2.symm ▸ hr) (hf1.batch (h1.2.symm ▸ hsi)) hf1.open candidates
      false _).mono fun r' h' => ⟨h'.batch, h'.config.trans h1.2, fun _ hn => h'.funded ?_⟩
    rw [hf1.tokenBudget, h1.2, ← hf.tokenBudget]
    exact hn
  next hd => exact absurd hd hr
  next hs =>
    exact (buildFusedPlan_served hs hsi hf hnd).mono fun r' h' => ⟨h'.batch, h'.config, h'.funded hs⟩

end Round

end TokenSpeed

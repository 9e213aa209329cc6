import TokenSpeed.Scheduler.Lemmas.RoundMoves

/-!
# The batch of a plan

The invariant of a build over the operations it has collected, for the roles whose batch the local
model runs, and how each phase keeps it.
-/

namespace TokenSpeed

open List Option Bool Scheduler

namespace Round

variable {r r' r₁ : Round} {req req' : Request} {id : Nat} {op : ForwardOperation}

def ids (r : Round) : List Nat := r.operations.map (·.row.requestId)

structure Batch (r : Round) : Prop where
  nodup : r.ids.Nodup
  scheduled : ∀ id ∈ r.ids, id ∈ r.scheduled
  tracked : ∀ op ∈ r.operations, ∃ req, r.sched.findRequest op.row.requestId = some req ∧
    0 < req.resultsInFlight ∧ req.state.RunsIn op.row.requestPoolIndex
  size : (r.operations.length : Int) ≤ r.sched.config.maxBatchSize
  budget : r.tokenBudget = r.sched.config.maxScheduledTokens - inputTokens r.operations
  ordered : PrefillsOrdered r.operations
  pushedPrefill : ∀ op ∈ r.operations, op.isPrefill = true → r.pushedPrefill = true
  pushedDecode : ∀ op ∈ r.operations, op.isPrefill = false → r.pushedDecode = true
  width : ∀ op ∈ r.operations, op.isPrefill = false → op.row.inputLength = r.sched.config.decodeTokens

def Open (r : Round) : Prop := ∀ op ∈ r.operations, ¬ op.Incomplete

structure Clear (r : Round) : Prop where
  blocked : ∀ id ∈ r.capacityBlocked, id ∉ r.ids
  blocker : ∀ id, r.capacityBlocker = some id → id ∈ r.capacityBlocked

/-! ## Steps -/

theorem find_of_core (h : r'.sched.core = r.sched.core) (id) : r'.sched.findRequest id = r.sched.findRequest id :=
  congrArg (fun c : Core => c.find id) h

theorem config_of_core (h : r'.sched.core = r.sched.core) : r'.sched.config = r.sched.config :=
  congrArg Core.config h

theorem ids_of_batch (h : SameBatch r r') : r'.ids = r.ids :=
  congrArg (map fun op : ForwardOperation => op.row.requestId) h.operations

theorem Batch.of_same (hb : Batch r) (h : SameBatch r r') (hc : r'.sched.config = r.sched.config)
    (hf : ∀ id ∈ r.ids, r'.sched.findRequest id = r.sched.findRequest id) : Batch r' where
  nodup := (ids_of_batch h).symm ▸ hb.nodup
  scheduled := by
    rw [ids_of_batch h, h.scheduled]
    exact hb.scheduled
  tracked := by
    rw [h.operations]
    intro op hp
    rw [hf _ (mem_map_of_mem hp)]
    exact hb.tracked op hp
  size := by
    rw [h.operations, hc]
    exact hb.size
  budget := by
    rw [h.operations, h.tokenBudget, hc]
    exact hb.budget
  ordered := h.operations.symm ▸ hb.ordered
  pushedPrefill := by
    rw [h.operations, h.pushedPrefill]
    exact hb.pushedPrefill
  pushedDecode := by
    rw [h.operations, h.pushedDecode]
    exact hb.pushedDecode
  width := by
    rw [h.operations, hc]
    exact hb.width

theorem Declined.batch_inv (h : Declined r r') (hb : Batch r) : Batch r' :=
  hb.of_same h.batch (config_of_core h.core) fun id _ => find_of_core h.core id

theorem Declined.clear (h : Declined r r') (hc : Clear r) : Clear r' where
  blocked := by
    rw [h.batch.capacityBlocked, ids_of_batch h.batch]
    exact hc.blocked
  blocker := by
    rw [h.batch.capacityBlocker, h.batch.capacityBlocked]
    exact hc.blocker

structure Pushed (r : Round) (id : Nat) (op : ForwardOperation) (kind : StateKind) (r' : Round) : Prop where
  operations : r'.operations = r.operations ++ [op]
  requestId : op.row.requestId = id
  scheduled : r'.scheduled = r.scheduled ++ [id]
  config : r'.sched.config = r.sched.config
  find : ∃ req, r'.sched.findRequest id = some req ∧ 0 < req.resultsInFlight ∧ req.state.kind = kind ∧
    req.state.RunsIn op.row.requestPoolIndex
  others : ∀ id' ≠ id, r'.sched.findRequest id' = r.sched.findRequest id'
  tokenBudget : r.sched.config.role ≠ .d → r'.tokenBudget = r.tokenBudget - op.row.inputLength
  pushedPrefill : r'.pushedPrefill = (r.pushedPrefill || op.isPrefill)
  pushedDecode : r'.pushedDecode = (r.pushedDecode || !op.isPrefill)
  remotePrefill : r'.remotePrefill = r.remotePrefill
  capacityBlocked : r'.capacityBlocked = r.capacityBlocked
  capacityBlocker : r'.capacityBlocker = r.capacityBlocker
  pendingPrefillReserve : r'.pendingPrefillReserve = r.pendingPrefillReserve

theorem Joined.pushed {may} (h : Joined may r req req' r₁) (hd : op.row.requestId = req.id)
    (hw : req'.state.RunsIn op.row.requestPoolIndex) :
    Pushed r req.id op req'.state.kind ((r₁.pushOperation req.id op).trackScheduledForward req.id) := by
  obtain ⟨held, hh⟩ := isSome_iff_exists.mp h.holds
  have hq' : req'.id = req.id := findRequest_id h.find
  rw [h.track hh op]
  refine ⟨?_, hd, ?_, h.config, ⟨req'.toState (req'.state.withResources
    { held with resultsInFlight := held.resultsInFlight + 1 }), ?_, ?_, ?_, ?_⟩, ?_, ?_, ?_, ?_, ?_, ?_, ?_, ?_⟩
  · exact congrArg (· ++ [op]) h.batch.operations
  · exact congrArg (· ++ [req.id]) h.batch.scheduled
  · rw [← hq']
    exact findRequest_setRequest_self
      (isSome_of_eq_some (show r₁.sched.findRequest req'.id = some req' from hq'.symm ▸ h.find))
  · rw [Request.resultsInFlight, Request.toState_state, RequestState.resources?_withResources _ hh]
    exact Nat.succ_pos _
  · rw [Request.toState_state, RequestState.kind_withResources]
  · exact hw.withResources hh rfl
  · intro id' hn
    rw [← h.others id' hn]
    exact findRequest_setRequest_ne (by rw [Request.toState_id, hq']; exact hn)
  · intro hr
    have hr' : (r₁.sched.config.role != .d) = true := by rw [h.config]; simpa using hr
    show (if op.isPrefill || r₁.sched.config.role != .d then r₁.tokenBudget - op.row.inputLength
      else r₁.tokenBudget) = _
    rw [hr', Bool.or_true, if_pos rfl, h.batch.tokenBudget]
  · exact congrArg (· || op.isPrefill) h.batch.pushedPrefill
  · exact congrArg (· || !op.isPrefill) h.batch.pushedDecode
  · exact h.batch.remotePrefill
  · exact h.batch.capacityBlocked
  · exact h.batch.capacityBlocker
  · exact h.batch.pendingPrefillReserve

variable {kind : StateKind}

theorem Pushed.ids (h : Pushed r id op kind r') : r'.ids = r.ids ++ [id] := by
  rw [Round.ids, h.operations, map_append, map_cons, map_nil, h.requestId]
  rfl

theorem inputTokens_append (ops) (op : ForwardOperation) :
    inputTokens (ops ++ [op]) = inputTokens ops + op.row.inputLength := by
  simp [inputTokens]

theorem Pushed.batch_inv (h : Pushed r id op kind r') (hr : r.sched.config.role ≠ .d)
    (ht : Batch r) (hfu : r.full = false) (hn : id ∉ r.ids) (hop : op.isPrefill = true → Open r)
    (hw : op.isPrefill = false → op.row.inputLength = r.sched.config.decodeTokens) : Batch r' where
  nodup := by
    rw [h.ids, nodup_append]
    refine ⟨ht.nodup, nodup_singleton id, fun a ha b hb => ?_⟩
    rw [mem_singleton.mp hb]
    exact fun hq => hn (hq ▸ ha)
  scheduled := by
    rw [h.ids, h.scheduled]
    exact forall_mem_append.mpr ⟨fun x hx => mem_append_left _ (ht.scheduled x hx), fun _ => mem_append_right _⟩
  tracked := by
    rw [h.operations]
    refine forall_mem_append.mpr ⟨fun o ho => ?_, forall_mem_singleton.mpr ?_⟩
    · have hne : o.row.requestId ≠ id := fun hq => hn (hq ▸ mem_map_of_mem ho)
      rw [h.others _ hne]
      exact ht.tracked o ho
    · obtain ⟨req, hf, hou, _, hw⟩ := h.find
      rw [h.requestId]
      exact ⟨req, hf, hou, hw⟩
  size := by
    have hl : (r.operations.length : Int) ≠ r.sched.config.maxBatchSize := by
      intro hq
      rw [full, hq] at hfu
      simp at hfu
    rw [h.operations, h.config, length_append, length_singleton]
    have := ht.size
    omega
  budget := by
    rw [h.operations, h.config, inputTokens_append, h.tokenBudget hr, ht.budget]
    push_cast
    omega
  ordered := by
    rw [h.operations, PrefillsOrdered, pairwise_append]
    refine ⟨ht.ordered, pairwise_singleton _ _, fun a ha b hb hc => ?_⟩
    rw [mem_singleton.mp hb]
    by_contra hp
    exact hop (by simpa using hp) a ha hc
  pushedPrefill := by
    rw [h.operations, h.pushedPrefill]
    refine forall_mem_append.mpr ⟨fun o ho hp => ?_, forall_mem_singleton.mpr fun hp => ?_⟩
    · rw [ht.pushedPrefill o ho hp, Bool.true_or]
    · rw [hp, Bool.or_true]
  pushedDecode := by
    rw [h.operations, h.pushedDecode]
    refine forall_mem_append.mpr ⟨fun o ho hd => ?_, forall_mem_singleton.mpr fun hd => ?_⟩
    · rw [ht.pushedDecode o ho hd, Bool.true_or]
    · rw [hd, Bool.not_false, Bool.or_true]
  width := by
    rw [h.operations, h.config]
    exact forall_mem_append.mpr ⟨ht.width, forall_mem_singleton.mpr hw⟩

theorem SameBatch.forget {fl} (h : SameBatch { r with admissionFailed := fl } r') : SameBatch r r' := { h with }

theorem Declined.forget {fl} (h : Declined { r with admissionFailed := fl } r') : Declined r r' :=
  ⟨h.batch.forget, h.core⟩

theorem Joined.pushed_at {may failed} (h : Joined may { r with admissionFailed := failed } req req' r')
    (hd : req.id = id) (hp : op.row.requestId = req.id) (hw : req'.state.RunsIn op.row.requestPoolIndex) :
    Pushed r id op req'.state.kind ((r'.pushOperation id op).trackScheduledForward id) := by
  have hj : Joined may r req req' r' := { h with batch := h.batch.forget }
  exact hd ▸ hj.pushed hp hw

theorem Batch.noteCapacityBlocked (h : Batch r) : Batch (r.noteCapacityBlocked id) := { h with }

theorem clear_noteCapacityBlocked (hc : Clear r) (hn : id ∉ r.ids) : Clear (r.noteCapacityBlocked id) where
  blocked := forall_mem_append.mpr ⟨hc.blocked, forall_mem_singleton.mpr hn⟩
  blocker := by
    intro x hx
    rcases or_eq_some_iff.mp hx with hx | ⟨_, hx⟩
    · exact mem_append_left _ (hc.blocker x hx)
    · rw [← some.inj hx]
      exact mem_append_right _ (mem_singleton_self id)

theorem Pushed.clear (h : Pushed r id op kind r') (hc : Clear r) (hd : id ∉ r.capacityBlocked) :
    Clear r' where
  blocked := by
    rw [h.capacityBlocked, h.ids]
    intro x hx hm
    rcases mem_append.mp hm with hm | hm
    · exact hc.blocked x hx hm
    · rw [mem_singleton.mp hm] at hx
      exact hd hx
  blocker := by
    rw [h.capacityBlocked, h.capacityBlocker]
    exact hc.blocker

/-! ## The decode phase -/

structure DecodePhase (r : Round) (candidates : List Nat) (r' : Round) : Prop where
  batch : Batch r'
  funded : 0 ≤ r.tokenBudget → 0 ≤ r'.tokenBudget
  config : r'.sched.config = r.sched.config
  operations : ∃ new, r'.operations = r.operations ++ new ∧ ∀ op ∈ new, op.isPrefill = false
  pushedPrefill : r'.pushedPrefill = r.pushedPrefill
  remotePrefill : r'.remotePrefill = r.remotePrefill
  clear : candidates.Nodup → Clear r → (∀ id ∈ candidates, id ∈ r.capacityBlocked → r.skipsDecode id = true) → Clear r'

variable {candidates : List Nat}

theorem DecodePhase.refl (h : Batch r) : DecodePhase r candidates r :=
  ⟨h, id, rfl, ⟨[], (append_nil _).symm, forall_mem_nil _⟩, rfl, rfl, fun _ h _ => h⟩

theorem DecodePhase.skip (h : DecodePhase r candidates r') : DecodePhase r (id :: candidates) r' :=
  { h with
    clear := fun hn hc hskips => h.clear hn.of_cons hc fun x hx =>
      hskips x (mem_cons_of_mem _ hx) }

theorem DecodePhase.after_declined (h : DecodePhase r₁ candidates r')
    (hop : r₁.operations = r.operations) (hd : r₁.tokenBudget = r.tokenBudget) (hr : r₁.sched.core = r.sched.core)
    (hp : r₁.pushedPrefill = r.pushedPrefill) (hm : r₁.remotePrefill = r.remotePrefill)
    (hs : r₁.scheduled = r.scheduled)
    (hb : ∀ x ∈ r₁.capacityBlocked, x ∈ r.capacityBlocked ∨ x = id) (hl : Clear r → Clear r₁) :
    DecodePhase r (id :: candidates) r' where
  batch := h.batch
  funded := hd ▸ h.funded
  config := h.config.trans (config_of_core hr)
  operations := hop ▸ h.operations
  pushedPrefill := h.pushedPrefill.trans hp
  remotePrefill := h.remotePrefill.trans hm
  clear := by
    intro hn hc hskips
    obtain ⟨hid, hn⟩ := nodup_cons.mp hn
    refine h.clear hn (hl hc) fun x hx hbl => ?_
    have hold : x ∈ r.capacityBlocked := (hb x hbl).resolve_right fun hq => hid (hq ▸ hx)
    have := hskips x (mem_cons_of_mem _ hx) hold
    rwa [skipsDecode, isScheduled, find_of_core hr, hs]

theorem scheduleDecodeBatch_batch : ∀ candidates r, r.sched.config.role ≠ .d → Batch r →
    Ensures (scheduleDecodeBatch candidates r) (DecodePhase r candidates)
  | [], _, _, hb => .pure (.refl hb)
  | id :: rest, r, hr, hb => by
    refine .ite (fun _ => .pure (.refl hb)) fun hst => ?_
    refine .ite (fun _ => (scheduleDecodeBatch_batch rest r hr hb).mono fun _ h => h.skip) fun hs => ?_
    obtain ⟨hfu, hbu⟩ : r.full = false ∧
      ¬ r.tokenBudget < r.pendingPrefillReserve + r.sched.config.decodeInputTokens := by
      simpa using hst
    have hs' : r.skipsDecode id = false := by simpa using hs
    obtain ⟨hy, hunscheduled⟩ := or_eq_false_iff.mp hs'
    have hno : id ∉ r.scheduled := by simpa [isScheduled] using hunscheduled
    have hn : id ∉ r.ids := fun h => hno (hb.scheduled id h)
    obtain ⟨req, hf, _⟩ : ∃ req, r.sched.findRequest id = some req ∧ req.isAnyOf [.prefillDone, .decoding] = true := by
      simpa [Option.any_eq_true] using hy
    have hid := findRequest_id hf
    refine (decodeCandidate_joined .all (r := { r with admissionFailed := false }) hf).bind ?_
    rintro ⟨_ | op, r₁⟩ ht
    · have hd : Declined r r₁ := .forget ht
      have hb1 := hd.batch_inv hb
      unfold noteDecode
      dsimp only
      split
      · refine (scheduleDecodeBatch_batch rest (r₁.noteCapacityBlocked id) ?_ hb1.noteCapacityBlocked).mono fun r' h =>
          ?_
        · exact (config_of_core hd.core).symm ▸ hr
        · refine h.after_declined hd.batch.operations hd.batch.tokenBudget hd.core
            hd.batch.pushedPrefill hd.batch.remotePrefill hd.batch.scheduled ?_ ?_
          · intro x hx
            rcases mem_append.mp hx with hx | hx
            · exact .inl (hd.batch.capacityBlocked ▸ hx)
            · exact .inr (mem_singleton.mp hx)
          · intro hc
            exact clear_noteCapacityBlocked (hd.clear hc) ((ids_of_batch hd.batch).symm ▸ hn)
      · refine (scheduleDecodeBatch_batch rest r₁ ((config_of_core hd.core).symm ▸ hr) hb1).mono fun r' h => ?_
        exact h.after_declined hd.batch.operations hd.batch.tokenBudget hd.core
          hd.batch.pushedPrefill hd.batch.remotePrefill hd.batch.scheduled
          (fun x hx => .inl (hd.batch.capacityBlocked ▸ hx)) hd.clear
    · obtain ⟨req', hj⟩ := ht
      have hp : Pushed r id (.decode op) _ _ := hj.toJoined.pushed_at hid hj.requestId hj.row
      have hb1 := hp.batch_inv hr hb hfu hn (fun h => by cases h) fun _ => hj.inputLength
      refine (scheduleDecodeBatch_batch rest _ (hp.config.symm ▸ hr) hb1).mono fun r' h => ?_
      refine ⟨h.batch, fun hfn => h.funded ?_, h.config.trans hp.config, ?_, ?_, ?_, ?_⟩
      · rw [hp.tokenBudget hr]
        have hl : (op.inputLength : Int) = (r.sched.config.decodeInputTokens.toNat : Int) :=
          congrArg Nat.cast hj.inputLength
        show 0 ≤ r.tokenBudget - (op.inputLength : Int)
        omega
      · obtain ⟨new, hop, hn⟩ := h.operations
        refine ⟨.decode op :: new, ?_, ?_⟩
        · rw [hop, hp.operations, append_assoc]; rfl
        · intro o ho
          rcases mem_cons.mp ho with rfl | ho
          · rfl
          · exact hn o ho
      · rw [h.pushedPrefill, hp.pushedPrefill]
        exact or_false _
      · exact h.remotePrefill.trans hp.remotePrefill
      · intro hnd hc hskips
        obtain ⟨hir, hnd⟩ := nodup_cons.mp hnd
        have hfr : id ∉ r.capacityBlocked := fun hm =>
          absurd (hskips id mem_cons_self hm) (by rw [hs']; exact false_ne_true)
        refine h.clear hnd (hp.clear hc hfr) fun x hx hbl => ?_
        have hne : x ≠ id := fun hq => hir (hq ▸ hx)
        have := hskips x (mem_cons_of_mem _ hx) (hp.capacityBlocked ▸ hbl)
        rw [skipsDecode, hp.others x hne, isScheduled, hp.scheduled]
        rw [skipsDecode, isScheduled] at this
        simp only [mem_append, or_eq_true] at this ⊢
        exact this.imp_right fun h => by simpa using Or.inl (by simpa using h)

/-! ## The prefill phase -/

structure Idle (r r' : Round) : Prop where
  operations : r'.operations = r.operations
  scheduled : r'.scheduled = r.scheduled
  core : r'.sched.core = r.sched.core
  blocked : ∀ id ∈ r'.capacityBlocked, id ∈ r.capacityBlocked ∨
    id ∉ r.scheduled ∧ ∃ req, r.sched.findRequest id = some req ∧ req.state.kind ∈ [.submitted, .prefilling]
  blocker : (∀ id, r.capacityBlocker = some id → id ∈ r.capacityBlocked) →
    ∀ id, r'.capacityBlocker = some id → id ∈ r'.capacityBlocked

theorem Idle.refl (r) : Idle r r := ⟨rfl, rfl, rfl, fun _ h => Or.inl h, id⟩

variable {r₂ : Round}

theorem Idle.trans (h : Idle r r₁) (h' : Idle r₁ r₂) : Idle r r₂ where
  operations := h'.operations.trans h.operations
  scheduled := h'.scheduled.trans h.scheduled
  core := h'.core.trans h.core
  blocked := by
    intro id hd
    rcases h'.blocked id hd with hd | ⟨hn, req, hf, hk⟩
    · exact h.blocked id hd
    · exact .inr ⟨h.scheduled ▸ hn, req, (find_of_core h.core id).symm.trans hf, hk⟩
  blocker := fun hr => h'.blocker (h.blocker hr)

theorem Declined.idle (h : Declined r r') : Idle r r' where
  operations := h.batch.operations
  scheduled := h.batch.scheduled
  core := h.core
  blocked := fun _ hd => .inl (h.batch.capacityBlocked ▸ hd)
  blocker := by
    rw [h.batch.capacityBlocked, h.batch.capacityBlocker]
    exact id

theorem idle_noteCapacityBlocked (hn : id ∉ r.scheduled) (hf : r.sched.findRequest id = some req)
    (hk : req.state.kind ∈ [.submitted, .prefilling]) : Idle r (r.noteCapacityBlocked id) where
  operations := rfl
  scheduled := rfl
  core := rfl
  blocked := forall_mem_append.mpr ⟨fun _ => .inl, forall_mem_singleton.mpr (.inr ⟨hn, req, hf, hk⟩)⟩
  blocker := by
    intro hr x hx
    rcases or_eq_some_iff.mp hx with hx | ⟨_, hx⟩
    · exact mem_append_left _ (hr x hx)
    · rw [← some.inj hx]
      exact mem_append_right _ (mem_singleton_self id)

structure PrefillPhase (r r' : Round) : Prop where
  batch : Batch r'
  funded : 0 ≤ r.tokenBudget → 0 ≤ r'.tokenBudget
  config : r'.sched.config = r.sched.config
  remotePrefill : r'.remotePrefill = r.remotePrefill
  idle : r'.pushedPrefill = false → Idle r r'
  pushed : r.pushedPrefill = true → r'.pushedPrefill = true

theorem PrefillPhase.refl (h : Batch r) : PrefillPhase r r := ⟨h, id, rfl, rfl, fun _ => Idle.refl r, id⟩

theorem PrefillPhase.trans (h : PrefillPhase r r₁) (h' : PrefillPhase r₁ r₂) : PrefillPhase r r₂ where
  batch := h'.batch
  funded := h'.funded ∘ h.funded
  config := h'.config.trans h.config
  remotePrefill := h'.remotePrefill.trans h.remotePrefill
  idle := by
    intro hd
    have h1 : r₁.pushedPrefill = false := by
      by_contra hp
      rw [h'.pushed (by simpa using hp)] at hd
      exact nomatch hd
    exact (h.idle h1).trans (h'.idle hd)
  pushed := h'.pushed ∘ h.pushed

theorem Declined.prefillPhase (h : Declined r r') (hb : Batch r) : PrefillPhase r r' :=
  ⟨h.batch_inv hb, h.batch.tokenBudget.symm ▸ id, config_of_core h.core, h.batch.remotePrefill, fun _ => h.idle,
    h.batch.pushedPrefill.symm ▸ id⟩

theorem PrefillPhase.noteCapacityBlocked (h : PrefillPhase r r') (hn : id ∉ r'.scheduled)
    (hf : r'.sched.findRequest id = some req) (hk : req.state.kind ∈ [.submitted, .prefilling]) :
    PrefillPhase r (r'.noteCapacityBlocked id) :=
  { h with batch := h.batch.noteCapacityBlocked, idle := fun hd =>
    (h.idle hd).trans (idle_noteCapacityBlocked hn hf hk) }

theorem PrefillPhase.of_pushed {op : PrefillOperation} (h : Pushed r id (.prefill op) kind r')
    (hr : r.sched.config.role ≠ .d) (hb : Batch r) (hfu : r.full = false) (hn : id ∉ r.ids) (hop : Open r)
    (hf : op.inputLength ≤ r.tokenBudget.toNat) : PrefillPhase r r' where
  batch := h.batch_inv hr hb hfu hn (fun _ => hop) nofun
  funded := by
    intro hfn
    rw [h.tokenBudget hr]
    show 0 ≤ r.tokenBudget - (op.inputLength : Int)
    omega
  config := h.config
  remotePrefill := h.remotePrefill
  idle := by
    intro hd
    rw [h.pushedPrefill] at hd
    exact nomatch (or_eq_false_iff.mp hd).2
  pushed := by
    intro hp
    rw [h.pushedPrefill, hp, Bool.true_or]

theorem open_of_pushed {op : PrefillOperation} (h : Pushed r id (.prefill op) kind r') (hp : Open r)
    (hc : op.extendPrefixLen + op.inputLength = op.prefillLength) : Open r' := by
  rw [Open, h.operations]
  exact forall_mem_append.mpr ⟨hp, forall_mem_singleton.mpr fun hn => hn hc⟩

theorem Declined.open (h : Declined r r') (hp : Open r) : Open r' := by
  intro o ho
  exact hp o (h.batch.operations ▸ ho)

theorem prefillTier_batch (resident reserve) : ∀ candidates r,
    r.sched.config.role ≠ .d → Batch r → Open r →
    Ensures (prefillTier resident reserve candidates r) fun x =>
      PrefillPhase r x.2 ∧ (x.1 = false → Open x.2)
  | [], _, _, hb, hop => .pure ⟨.refl hb, fun _ => hop⟩
  | id :: rt, r, hr, hb, hop => by
    refine .ite (fun _ => .pure ⟨.refl hb, fun h => by cases h⟩) fun hfu => ?_
    refine .ite (fun _ => prefillTier_batch resident reserve rt r hr hb hop) fun hs => ?_
    replace hfu : r.full = false := by simpa using hfu
    have hs' : r.skipsPrefill resident id = false := by simpa using hs
    obtain ⟨hy, hunscheduled⟩ := or_eq_false_iff.mp hs'
    have ht : id ∉ r.scheduled := by simpa [isScheduled] using hunscheduled
    have hw : id ∉ r.ids := fun h => ht (hb.scheduled id h)
    obtain ⟨req, hf, hk⟩ : ∃ req, r.sched.findRequest id = some req ∧
        req.is (if resident then .prefilling else .submitted) = true := by
      simpa [Option.any_eq_true] using hy
    replace hk : req.state.kind ∈ [.submitted, .prefilling] := by
      rw [Request.is_iff.mp hk]
      cases resident <;> decide
    have hid := findRequest_id hf
    refine (schedulePrefillCandidate_joined .all (r := { r with admissionFailed := false }) hf).bind ?_
    rintro ⟨_ | op, r₁⟩ hou
    · have hd : Declined r r₁ := .forget hou
      have hph := hd.prefillPhase hb
      have hr1 : r₁.sched.config.role ≠ .d := hph.config.symm ▸ hr
      have hn := hph.noteCapacityBlocked (hd.batch.scheduled.symm ▸ ht)
        ((find_of_core hd.core id).trans hf) hk
      refine .ite (fun _ => .ite (fun _ => .pure ⟨hn, fun h => by cases h⟩) fun _ => ?_) fun _ => ?_
      · refine (prefillTier_batch resident reserve rt (r₁.noteCapacityBlocked id) hr1 hn.batch
          (hd.open hop)).mono fun x hx => ⟨hn.trans hx.1, hx.2⟩
      · exact (prefillTier_batch resident reserve rt r₁ hr1 hph.batch (hd.open hop)).mono
          fun x hx => ⟨hph.trans hx.1, hx.2⟩
    · obtain ⟨req', hj⟩ := hou
      have hp : Pushed r id (.prefill op) _ _ := hj.toJoined.pushed_at hid hj.requestId hj.row
      have hph := PrefillPhase.of_pushed hp hr hb hfu hw hop (hj.fits hr)
      refine .ite (fun _ => .pure ⟨hph, fun h => by cases h⟩) fun hh => ?_
      have hc : op.extendPrefixLen + op.inputLength = op.prefillLength := by
        by_contra hin
        obtain ⟨fn, hfo, _, hk', _⟩ := hp.find
        refine hh ?_
        rw [holdsHeadOfLine, hfo, any_some, Request.is_iff, hk']
        exact (hj.completes hr).mpr hin
      exact (prefillTier_batch resident reserve rt _ (hph.config.symm ▸ hr) hph.batch
        (open_of_pushed hp hop hc)).mono fun x hx => ⟨hph.trans hx.1, hx.2⟩

theorem scheduleLocalPrefillWork_batch (hr : r.sched.config.role ≠ .d) (hb : Batch r) (hp : Open r) (candidates) (iss)
    (reserve) : Ensures (r.scheduleLocalPrefillWork candidates iss reserve) (PrefillPhase r) := by
  refine (prefillTier_batch true reserve candidates r hr hb hp).bind fun ⟨ended, r₁⟩ h1 => ?_
  refine .ite (fun _ => .pure h1.1) fun hd => ?_
  have hg : ended = false := by
    cases ended with
    | false => rfl
    | true => exact absurd (Bool.true_or _) hd
  refine (prefillTier_batch false reserve candidates r₁ (h1.1.config.symm ▸ hr) h1.1.batch (h1.2 hg)).bind
    fun x hx => .pure (h1.1.trans hx.1)

end Round

end TokenSpeed

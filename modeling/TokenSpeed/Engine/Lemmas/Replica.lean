import TokenSpeed.Engine.Replica

/-!
# Members stay alike

Members that differ only in when their pending aborts came and in the acknowledgments they hold do the same
in every part of a round; in a sweep, if the same aborts are over on both.
-/

namespace TokenSpeed.Engine

open OutputProcessor

/-! ## Output processors -/

namespace OutputProcessor

def timed (p : OutputProcessor) (aborts : List (Nat × Nat)) : OutputProcessor := { p with pendingAborts := aborts }

structure Alike (p p' : OutputProcessor) : Prop where
  rest : p' = p.timed p'.pendingAborts
  aborts : p'.pendingAborts.map Prod.fst = p.pendingAborts.map Prod.fst

def Neutral {β : Type} (f : OutputProcessor → β × OutputProcessor) : Prop :=
  ∀ p aborts, f (p.timed aborts) = ((f p).1, (f p).2.timed aborts)

variable {p p' : OutputProcessor} {β : Type} {f : OutputProcessor → β × OutputProcessor}

theorem timed_self : p.timed p.pendingAborts = p := rfl

theorem Alike.refl : Alike p p := ⟨rfl, rfl⟩

theorem Alike.states (h : Alike p p') : p'.states = p.states := by
  rw [h.rest]
  rfl

theorem Alike.role (h : Alike p p') : p'.role = p.role := by
  rw [h.rest]
  rfl

theorem Neutral.pendingAborts (hf : Neutral f) : (f p).2.pendingAborts = p.pendingAborts := by
  have h := hf p p.pendingAborts
  exact congrArg (fun x => x.2.pendingAborts) h

theorem Alike.neutral (h : Alike p p') (hf : Neutral f) : (f p').1 = (f p).1 ∧ Alike (f p).2 (f p').2 := by
  have hp' : f p' = ((f p).1, (f p).2.timed p'.pendingAborts) := by
    conv_lhs => rw [h.rest]
    exact hf p p'.pendingAborts
  rw [hp']
  refine ⟨rfl, rfl, ?_⟩
  rw [hf.pendingAborts]
  exact h.aborts

section

variable (rid : Nat)

theorem neutral_reap : Neutral fun p => p.reapUnscheduled rid := by
  intro p aborts
  simp only [reapUnscheduled, timed]
  cases p.states rid <;> rfl

theorem neutral_fail (results statusCode) : Neutral fun p => p.failUnscheduled rid results statusCode := by
  intro p aborts
  simp only [failUnscheduled, timed]
  cases p.states rid <;> rfl

theorem neutral_schedulerAbort (detail) : Neutral fun p => p.finishSchedulerAbort rid detail := by
  intro p aborts
  simp only [finishSchedulerAbort, timed]
  cases p.states rid with
  | none => rfl
  | some st => dsimp only; split <;> rfl

theorem neutral_failTransfer : Neutral fun p => p.failTransfer rid := by
  intro p aborts
  simp only [failTransfer, timed]
  cases p.states rid with
  | none => rfl
  | some st => dsimp only; split <;> rfl

theorem neutral_finishPrefill : Neutral fun p => p.finishPrefill rid := by
  intro p aborts
  simp only [finishPrefill, timed]
  cases p.states rid <;> rfl

theorem neutral_finishRemotePrefillOnly : Neutral fun p => p.finishRemotePrefillOnly rid := by
  intro p aborts
  simp only [finishRemotePrefillOnly, timed]
  cases p.states rid with
  | none => rfl
  | some st => dsimp only; split <;> rfl

theorem remotePrefillDone_timed (tk cc aborts) :
    (p.timed aborts).remotePrefillDone rid tk cc = (p.remotePrefillDone rid tk cc).timed aborts := by
  simp only [remotePrefillDone, timed]
  cases p.states rid <;> rfl

end

theorem neutral_failAll (reason rids) : Neutral fun p => ((), p.failAll reason rids) := by
  intro p aborts
  induction rids generalizing p with
  | nil => rfl
  | cons rid rids ih =>
    simp only [failAll, List.foldl_cons] at ih ⊢
    rw [congrArg Prod.snd (neutral_fail rid reason none p aborts)]
    exact ih _

theorem neutral_reapAll (rids) : Neutral fun p => ((), p.reapAll rids) := by
  intro p aborts
  induction rids generalizing p with
  | nil => rfl
  | cons rid rids ih =>
    simp only [reapAll, List.foldl_cons] at ih ⊢
    rw [congrArg Prod.snd (neutral_reap rid p aborts)]
    exact ih _

theorem neutral_startGrammar (mts : GrammarKey → RequestGrammar) (entry : Submission × GrammarKey)
    (invalid) : Neutral fun p => p.startGrammar mts entry invalid := by
  intro p aborts
  have hd : (p.timed aborts).hasEnded entry.1.rid = p.hasEnded entry.1.rid := rfl
  simp only [startGrammar, hd]
  split
  · rw [congrArg Prod.snd (neutral_reap entry.1.rid p aborts)]
  · cases invalid with
    | none => rfl
    | some results => dsimp only; rw [congrArg Prod.snd (neutral_fail entry.1.rid _ _ p aborts)]

theorem neutral_startGrammars (matchers : GrammarKey → RequestGrammar) (entries) : Neutral fun p => p.startGrammars
    matchers entries := by
  intro p aborts
  induction entries generalizing p with
  | nil => rfl
  | cons first rest ih =>
    have hf := neutral_startGrammar matchers first.1 first.2 p aborts
    simp only [startGrammars, hf, ih]

theorem neutral_timeouts (message : GrammarKey → String) (entries : List (Submission × GrammarKey)) :
    Neutral fun p => ((), entries.foldl
      (fun p entry => (p.failUnscheduled entry.1.rid (message entry.2) none).2) p) := by
  intro p aborts
  induction entries generalizing p with
  | nil => rfl
  | cons entry entries ih =>
    simp only [List.foldl_cons] at ih ⊢
    rw [congrArg Prod.snd (neutral_fail entry.1.rid (message entry.2) none p aborts)]
    exact ih _

/-! ### Transfers -/

theorem concludeTransfer_timed (ln : Nat → Token × Int) (rid) (her : Transfer.TransferPoll) (cd)
    (aborts) : (p.timed aborts).concludeTransfer ln rid her cd =
      ((p.concludeTransfer ln rid her cd).1, (p.concludeTransfer ln rid her cd).2.1,
        (p.concludeTransfer ln rid her cd).2.2.timed aborts) := by
  have hr : (p.timed aborts).role = p.role := rfl
  have hs : (p.timed aborts).states = p.states := rfl
  simp only [concludeTransfer, hr, hs]
  have hf := neutral_failTransfer rid p aborts
  have hp := neutral_finishPrefill rid p aborts
  have hn := fun q : OutputProcessor => neutral_finishRemotePrefillOnly rid q aborts
  dsimp only at hf hp hn
  split
  · rfl
  split
  · rw [hf]
  split
  · split
    · rw [hp]
    · split
      · rw [remotePrefillDone_timed, hn]
      · rw [hn]
  · rfl

theorem concludeTransfers_congr {landed landed' : Nat → Token × Int}
    {polls : List ((Nat × Transfer.TransferPoll) × Nat)} (h : ∀ x ∈ polls, landed' x.1.1 = landed x.1.1) :
    p.concludeTransfers landed' polls = p.concludeTransfers landed polls := by
  induction polls generalizing p with
  | nil => rfl
  | cons first rest ih =>
    have hf := h first List.mem_cons_self
    simp only [concludeTransfers, concludeTransfer, hf]
    rw [ih fun x hx => h x (List.mem_cons_of_mem _ hx)]

theorem neutral_concludeTransfers (landed : Nat → Token × Int) (polls) :
    Neutral fun p => (((p.concludeTransfers landed polls).1, (p.concludeTransfers landed polls).2.1),
      (p.concludeTransfers landed polls).2.2) := by
  intro p aborts
  induction polls generalizing p with
  | nil => rfl
  | cons first rest ih =>
    simp only [concludeTransfers, concludeTransfer_timed, Prod.mk.injEq] at ih ⊢
    obtain ⟨⟨hn, hl⟩, hp⟩ := ih (p.concludeTransfer landed first.1.1 first.1.2 first.2).2.2
    rw [hn, hl, hp]
    simp

/-! ### Commits -/

section

variable (aborts : List (Nat × Nat))

theorem commitRows_timed (hostfunc rows) :
    ∀ states, (p.timed aborts).commitRows hostfunc states rows = p.commitRows hostfunc states rows := by
  induction rows with
  | nil => exact fun _ => rfl
  | cons first rest ih =>
    intro states
    have hf : (p.timed aborts).commitRow hostfunc states first.1 first.2 =
      p.commitRow hostfunc states first.1 first.2 := rfl
    simp only [commitRows, hf, ih]

theorem streamAll_timed (rids) : ∀ states, (p.timed aborts).streamAll states rids = p.streamAll states rids := by
  induction rids with
  | nil => exact fun _ => rfl
  | cons rid rids ih =>
    intro states
    have hs : (p.timed aborts).specNumTokens = p.specNumTokens := rfl
    have hn : (p.timed aborts).streamInterval = p.streamInterval := rfl
    simp only [streamAll, ih, hs, hn]

theorem commit_timed (rows results) : (p.timed aborts).commit rows results =
      (p.commit rows results).map fun x => (x.1, x.2.1, x.2.2.timed aborts) := by
  have hs : (p.timed aborts).specNumTokens = p.specNumTokens := rfl
  have ht : (p.timed aborts).states = p.states := rfl
  simp only [commit, commitRows_timed, streamAll_timed, hs, ht]
  cases results.checkShape rows.length with
  | error e => rfl
  | ok _ =>
    cases hd : p.commitRows results.grammarTerminatedAt.isSome (countCached p.states rows)
        (results.rowResults p.specNumTokens 0 0 rows) with
    | error e => rfl
    | ok dn => rfl

end

theorem Alike.commit (h : Alike p p') {rows results cm kp q} (hp : p.commit rows results = .ok (cm, kp, q)) :
    ∃ q', p'.commit rows results = .ok (cm, kp, q') ∧ Alike q q' := by
  refine ⟨q.timed p'.pendingAborts, ?_, rfl, ?_⟩
  · conv_lhs => rw [h.rest]
    rw [commit_timed, hp]
    rfl
  · have hs : (p.timed p.pendingAborts).commit rows results = _ := commit_timed p.pendingAborts rows results
    rw [timed_self, hp] at hs
    simp only [Except.map, Except.ok.injEq, Prod.mk.injEq, true_and] at hs
    rw [hs]
    exact h.aborts

/-! ### Registrations and aborts -/

theorem Alike.any (h : Alike p p') (rid : Nat) :
    p'.pendingAborts.any (·.1 = rid) = p.pendingAborts.any (·.1 = rid) := by
  have hy : ∀ l : List (Nat × Nat), l.any (·.1 = rid) = (l.map Prod.fst).any (· = rid) := fun l => by
    rw [List.any_map]
    rfl
  rw [hy, hy, h.aborts]

theorem Alike.eraseP (h : Alike p p') (rid : Nat) :
    (p'.pendingAborts.eraseP (·.1 = rid)).map Prod.fst = (p.pendingAborts.eraseP (·.1 = rid)).map Prod.fst := by
  have hr : ∀ l : List (Nat × Nat), (l.eraseP (·.1 = rid)).map Prod.fst = (l.map Prod.fst).eraseP (· = rid) :=
    fun l => by
    rw [List.eraseP_map]
    rfl
  rw [hr, hr, h.aborts]

theorem Alike.register (h : Alike p p') (rid) (st) : Alike (p.register rid st) (p'.register rid st) := by
  refine ⟨?_, h.eraseP rid⟩
  simp only [OutputProcessor.register, h.any rid]
  rw [h.rest]
  rfl

theorem Alike.registerAll (ads : List Admission) : ∀ {p p'}, Alike p p' →
    Alike (ads.foldl (fun p a => p.register a.rid a.state) p)
      (ads.foldl (fun p a => p.register a.rid a.state) p') := by
  induction ads with
  | nil => exact id
  | cons a ads ih => exact fun h => ih (h.register a.rid a.state)

theorem Alike.refuse (h : Alike p p') (rid) : Alike (p.refuse rid) (p'.refuse rid) := by
  refine ⟨?_, h.eraseP rid⟩
  rw [h.rest]
  rfl

theorem dropWhile_fst {late late' : Nat × Nat → Bool} : ∀ {l l' : List (Nat × Nat)},
    l'.map Prod.fst = l.map Prod.fst → l'.map late' = l.map late →
      (l'.dropWhile late').map Prod.fst = (l.dropWhile late).map Prod.fst
  | [], [], _, _ => rfl
  | x :: l, x' :: l', hf, ho => by
    rw [List.map_cons, List.map_cons, List.cons.injEq] at hf ho
    rw [List.dropWhile_cons, List.dropWhile_cons, ho.1]
    split
    · exact dropWhile_fst hf.2 ho.2
    · rw [List.map_cons, List.map_cons, hf.1, hf.2]

section

variable {rid now now' ttl : Nat}

theorem Alike.sweep (h : Alike p p')
    (he : p'.pendingAborts.map (fun pending => decide (ttl ≤ now' - pending.2)) =
      p.pendingAborts.map fun pending => decide (ttl ≤ now - pending.2)) :
    Alike (p.sweepPendingAborts now ttl) (p'.sweepPendingAborts now' ttl) := by
  refine ⟨?_, dropWhile_fst h.aborts he⟩
  rw [h.rest]
  rfl

theorem Alike.markAbort (h : Alike p p') {notifyClient}
    (he : p.states rid = none → p'.pendingAborts.map (fun pending => decide (ttl ≤ now' - pending.2)) =
      p.pendingAborts.map fun pending => decide (ttl ≤ now - pending.2)) :
    Alike (p.markAbort rid notifyClient now ttl) (p'.markAbort rid notifyClient now' ttl) := by
  unfold OutputProcessor.markAbort
  rw [h.states]
  cases ht : p.states rid with
  | some st =>
    refine ⟨?_, h.aborts⟩
    rw [h.rest]
    rfl
  | none =>
    have hs := h.sweep (he ht)
    refine ⟨?_, ?_⟩
    · rw [hs.rest]
      rfl
    · simp [hs.aborts]

end

end OutputProcessor

/-! ## Members -/

namespace Member

structure Alike (m m' : Member) : Prop where
  outputs : m.outputs.Alike m'.outputs
  intake : m'.intake = m.intake
  transfers : m'.transfers = m.transfers
  opened : m'.cacheOps.opened = m.cacheOps.opened
  tier : m'.tier = m.tier
  forwardAllowed : m'.forwardAllowed = m.forwardAllowed
  events : m'.events = m.events
  calls : m'.calls = m.calls

variable {m m' : Member}

section

variable (h : m.Alike m')
include h

theorem Alike.setOutputs {p p' : OutputProcessor} (hp : p.Alike p') :
    Alike { m with outputs := p } { m' with outputs := p' } :=
  { h with outputs := hp }

theorem Alike.neutral {β : Type} {f : OutputProcessor → β × OutputProcessor} (hf : Neutral f) :
    Alike { m with outputs := (f m.outputs).2 } { m' with outputs := (f m'.outputs).2 } :=
  h.setOutputs (h.outputs.neutral hf).2

theorem Alike.hand (sbs handed) :
    Alike (m.hand sbs handed) (m'.hand sbs handed) where
  outputs := h.outputs
  intake := rfl
  transfers := by simp only [Member.hand, h.transfers, h.outputs.role]
  opened := h.opened
  tier := h.tier
  forwardAllowed := h.forwardAllowed
  events := h.events
  calls := by simp only [Member.hand, h.calls]

theorem Alike.route (gts sbs) : Alike (m.route gts sbs) (m'.route gts sbs) := by
  unfold Member.route
  rw [h.intake]
  refine Alike.hand (h.setOutputs ?_) _ _
  split
  · exact (h.outputs.neutral (neutral_failAll _ _)).2
  · exact h.outputs

theorem Alike.setIntake (intake) : Alike { m with intake := intake } { m' with intake := intake } :=
  { h with intake := rfl }

theorem Alike.register (gts ads) : Alike (m.register gts ads) (m'.register gts ads) := by
  unfold Member.register
  rw [h.intake]
  exact ((h.setOutputs (h.outputs.registerAll ads)).setIntake _).route _ _

theorem Alike.resume : Alike m.resume m'.resume := by
  unfold Member.resume
  rw [h.intake, h.outputs.states]
  exact Alike.hand (h.setOutputs (h.outputs.neutral (neutral_reapAll _)).2) _ _

theorem Alike.drainGrammarQueue (gts) (mts : GrammarKey → RequestGrammar)
    (tm : GrammarKey → String) (rd fl) (iv : Nat → Option InvalidGrammar) :
    Alike (m.drainGrammarQueue gts mts tm rd fl iv)
      (m'.drainGrammarQueue gts mts tm rd fl iv) := by
  unfold Member.drainGrammarQueue
  split
  · exact h
  · rw [h.intake]
    dsimp only
    have hs := fun ens => h.outputs.neutral (neutral_startGrammars mts ens)
    rw [(hs _).1]
    refine Alike.route (Alike.setIntake (h.setOutputs ?_) _) _ _
    exact ((hs _).2.neutral (neutral_timeouts tm _)).2

theorem Alike.drainStaged (ab cds) : Alike (m.drainStaged ab cds) (m'.drainStaged ab cds) := by
  unfold Member.drainStaged
  rw [h.intake, h.outputs.states]
  refine Alike.hand (h.setOutputs ?_) _ _
  exact ((h.outputs.neutral (neutral_reapAll _)).2.neutral (neutral_failAll _ _)).2

theorem Alike.pollTransfers {landed landed' : Nat → Token × Int} (hl : ∀ x ∈ m.transfers, landed x.1 = landed' x.1)
    (codes) : Alike (m.pollTransfers landed codes) (m'.pollTransfers landed' codes) := by
  obtain ⟨hs, hp⟩ := h.outputs.neutral (neutral_concludeTransfers landed (m.transfers.zip codes))
  simp only [Prod.mk.injEq] at hs
  unfold Member.pollTransfers
  rw [h.transfers, concludeTransfers_congr fun x hx => (hl x.1 (List.of_mem_zip hx).1).symm]
  exact { h with outputs := hp, transfers := hs.2, events := by simp [h.events, hs.1] }

theorem Alike.commit {rows results} {q q' : Member}
    (hq : m.commit rows results = some q) (hq' : m'.commit rows results = some q') : q.Alike q' := by
  unfold Member.commit at hq hq'
  split at hq
  · cases hq
  · next cm kp ots hc =>
    obtain ⟨ots', hc', hp⟩ := h.outputs.commit hc
    rw [hc'] at hq'
    cases hq
    cases hq'
    exact { h with outputs := hp, events := by simp [h.events] }

theorem Alike.storageRound {reports allowed} {x x' : Option StorageRound × Member}
    (hx : m.storageRound reports allowed = some x) (hx' : m'.storageRound reports allowed = some x') :
    x'.1 = x.1 ∧ x.2.Alike x'.2 := by
  unfold Member.storageRound at hx hx'
  rw [h.tier, h.forwardAllowed] at hx'
  split at hx
  · next l3 ht =>
    simp only [ht] at hx'
    split at hx
    · next hg =>
      rw [hg] at hx'
      cases hx
      cases hx'
      exact ⟨rfl, { h with tier := rfl, forwardAllowed := rfl }⟩
    · cases hx
  · next ht =>
    simp only [ht] at hx'
    split_ifs at hx hx'
    · cases hx
      cases hx'
      exact ⟨rfl, h⟩
    · cases hx
      cases hx'
      exact ⟨rfl, { h with tier := ht.symm, forwardAllowed := rfl }⟩

theorem Alike.head {left left' : CacheOps} (hp : left'.opened = left.opened) (storage ready) :
    Alike (m.head storage ready left) (m'.head storage ready left') :=
  { h with
    opened := hp
    calls := by simp [Member.head, h.calls] }

theorem Alike.advance : Alike m.advance m'.advance :=
  { h with events := rfl, calls := by simp [Member.advance, h.calls, h.events] }

theorem Alike.abort {rid notifyClient tokenSize canAbort now now'}
    (ho : (m.outputs.markAbort rid notifyClient now pendingAbortTtl).Alike
      (m'.outputs.markAbort rid notifyClient now' pendingAbortTtl)) :
    Alike (m.abort rid notifyClient tokenSize canAbort now) (m'.abort rid notifyClient tokenSize canAbort now') := by
  unfold Member.abort
  rw [h.tier]
  dsimp only
  split
  · exact { h with outputs := ho, tier := rfl }
  · refine { h with outputs := ?_, tier := rfl }
    split
    · exact (ho.neutral (neutral_reap rid)).2
    · exact ho

end

end Member

/-! ## Replicas -/

namespace Replica

variable {n : Nat} {r r' : Replica n}

def Mirrored (r : Replica n) : Prop := ∀ i j, (r i).Alike (r j)

theorem all_eq_some {α : Type} {vls : Members n (Option α)} {results : Members n α} (h : all vls = some results) :
    ∀ i, vls i = some (results i) := by
  unfold all at h
  split at h
  · cases h
    simp
  · cases h

theorem Mirrored.each (h : r.Mirrored) {f : Fin (n + 2) → Member → Member} (hs : r.each f = some r')
    (hf : ∀ i j, (r i).Alike (r j) → (f i (r i)).Alike (f j (r j))) : r'.Mirrored := by
  cases hs
  exact fun i j => hf i j (h i j)

theorem hold_opened {ops held : CacheOps} {pl} (h : ops.hold pl = some held) : held.opened = ops.opened := by
  unfold CacheOps.hold at h
  split at h
  · cases h
  · cases h
    rfl

theorem Mirrored.step (h : r.Mirrored) {ph : Phase n} (ht : r.Timely ph) (hs : r.step ph = some r') :
    r'.Mirrored := by
  unfold Replica.step at hs
  cases ph with
  | abort rid notifyClient tokenSize canAbort now =>
    exact h.each hs fun i j hj => hj.abort (hj.outputs.markAbort fun hn => ht ⟨i, hn⟩ j i)
  | sweep now => exact h.each hs fun i j hj => hj.setOutputs (hj.outputs.sweep (ht j i))
  | register gts ads => exact h.each hs fun _ _ hj => hj.register gts ads
  | refuse rid => exact h.each hs fun _ _ hj => hj.setOutputs (hj.outputs.refuse rid)
  | resume => exact h.each hs fun _ _ hj => hj.resume
  | grammars gts mts tm lks =>
    -- the votes differ, what is agreed of them does not
    simp only [drainGrammars] at hs
    exact h.each hs fun _ _ hj => hj.drainGrammarQueue ..
  | staged ab cds =>
    dsimp only at hs
    split at hs
    · exact h.each hs fun _ _ hj => hj.drainStaged ..
    · cases hs
  | head storage allowed polled =>
    obtain ⟨rounds, hr, hs⟩ := Option.bind_eq_some_iff.mp hs
    obtain ⟨held, hh, hs⟩ := Option.bind_eq_some_iff.mp hs
    cases hs
    intro i j
    obtain ⟨hst, hal⟩ := (h i j).storageRound (all_eq_some hr i) (all_eq_some hr j)
    dsimp only
    rw [hst, CacheOps.settleAll_eq i, CacheOps.settleAll_eq j]
    refine hal.head ?_ _ _
    simp only [CacheOps.acknowledge, hold_opened (all_eq_some hh i), hold_opened (all_eq_some hh j), (h i j).opened]
  | dispatched count =>
    exact h.each hs fun _ _ hj => { hj with opened := by simp [CacheOps.dispatched, hj.opened] }
  | schedulerAbort rid dt => exact h.each hs fun _ _ hj => hj.neutral (neutral_schedulerAbort rid dt)
  | commit rows results =>
    intro i j
    exact (h i j).commit (all_eq_some hs i) (all_eq_some hs j)
  | transfers landed codes => exact h.each hs fun i j hj => hj.pollTransfers (ht i j) _
  | advance => exact h.each hs fun _ _ hj => hj.advance

theorem mirrored_of_steps {st} (hr : Relation.ReflTransGen Step (fun _ : Fin (n + 2) => st) r) : r.Mirrored := by
  induction hr with
  | refl => exact fun _ _ => ⟨.refl, rfl, rfl, rfl, rfl, rfl, rfl, rfl⟩
  | tail _ hs ih =>
    obtain ⟨ph, ht, hs⟩ := hs
    exact ih.step ht hs

end Replica

end TokenSpeed.Engine

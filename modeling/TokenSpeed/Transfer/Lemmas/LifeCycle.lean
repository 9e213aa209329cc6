import TokenSpeed.Logic.Runs
import TokenSpeed.Transfer.LifeCycle
import TokenSpeed.Transfer.Lemmas.DecodeRun

/-!
# One life cycle for both peers

What a peer emits depends on what it tracks, how far each request has come and the agreed polls alone, so
members that track the same emit the same.
-/

namespace TokenSpeed.Transfer

open Function List Option

/-! ## What a peer tracks -/

structure LifeCycle where
  order : List Nat
  stage : Nat → Option TransferPoll

def verdict (stage : TransferPoll) (agreed : Nat) : Option LifeKind :=
  let poll := (TransferPoll.fromWire agreed).getD .failed
  if stage = .bootstrapping ∧ poll = .bootstrapped then some .bootstrapped
  else if poll = .failed then some .failed
  else if stage = .bootstrapped ∧ poll = .success then some .done
  else none

def stageAfter (stage : TransferPoll) : Option LifeKind → TransferPoll
  | some .bootstrapped => .bootstrapped
  | some .done => .success
  | _ => stage

def endedBy (events : List LifeEvent) : List Nat := (events.filter (·.1 ≠ .bootstrapped)).map Prod.snd

namespace LifeCycle

variable (c : LifeCycle)

def register (rid : Nat) : LifeCycle where
  order := if (c.stage rid).isSome then c.order else c.order ++ [rid]
  stage := update c.stage rid (some .bootstrapping)

def forget (rid : Nat) : LifeCycle :=
  if (c.stage rid).isSome then ⟨c.order.filter (· ≠ rid), update c.stage rid none⟩ else c

def conclude (rid agreed : Nat) : List LifeEvent × LifeCycle :=
  match c.stage rid with
  | none => ([], c)
  | some stage =>
    (((verdict stage agreed).map (·, rid)).toList,
      { c with stage := update c.stage rid (some (stageAfter stage (verdict stage agreed))) })

def concludeAll : LifeCycle → List (Nat × Nat) → List LifeEvent × LifeCycle
  | c, [] => ([], c)
  | c, (rid, agreed) :: rest =>
    let (events, c) := c.conclude rid agreed
    let (more, c) := concludeAll c rest
    (events ++ more, c)

def poll (agreed : List Nat) : List LifeEvent × LifeCycle :=
  let (events, c) := concludeAll c (c.order.zip agreed)
  (events, (endedBy events).foldl forget c)

structure Sound : Prop where
  nodup : c.order.Nodup
  mem : ∀ rid, rid ∈ c.order ↔ (c.stage rid).isSome

variable {c}

theorem Sound.register (hso : c.Sound) (rid) : (c.register rid).Sound := by
  unfold LifeCycle.register
  split
  · next hs =>
    refine ⟨hso.nodup, fun r => ?_⟩
    by_cases hr : r = rid
    · subst hr
      simp [(hso.mem r).mpr hs]
    · simp [hr, hso.mem r]
  · next hn =>
    refine ⟨nodup_append.mpr ⟨hso.nodup, nodup_singleton _, fun a ha b hb hab => ?_⟩, fun r => ?_⟩
    · rw [hab, mem_singleton.mp hb] at ha
      exact hn ((hso.mem rid).mp ha)
    · by_cases hr : r = rid
      · simp [hr]
      · simp [hr, hso.mem r]

theorem Sound.forget (hs : c.Sound) (rid) : (c.forget rid).Sound ∧
    ∀ r, (c.forget rid).stage r = if r = rid then none else c.stage r := by
  unfold LifeCycle.forget
  split
  · refine ⟨⟨hs.nodup.filter _, fun r => ?_⟩, fun r => ?_⟩
    · by_cases hr : r = rid
      · simp [hr]
      · simp [hr, hs.mem r]
    · by_cases hr : r = rid
      · simp [hr]
      · simp [hr]
  · next hn =>
    refine ⟨hs, fun r => ?_⟩
    split
    · next hr => rw [hr]; simpa using hn
    · rfl

theorem Sound.forgetAll : ∀ (ended : List Nat) {c : LifeCycle}, c.Sound → (ended.foldl LifeCycle.forget c).Sound ∧
    ∀ r, (ended.foldl LifeCycle.forget c).stage r = if r ∈ ended then none else c.stage r
  | [], c, hso => ⟨hso, by simp⟩
  | rid :: rest, c, hso => by
    obtain ⟨hf, hg⟩ := hso.forget rid
    obtain ⟨ht, hs⟩ := Sound.forgetAll rest hf
    refine ⟨ht, fun r => ?_⟩
    rw [foldl_cons, hs, hg]
    by_cases hr : r = rid <;> by_cases hm : r ∈ rest <;> simp [hr, hm]

/-! ## A round -/

theorem kindsOf_append (evs mr rid) :
    PeerReplica.kindsOf (evs ++ mr) rid = PeerReplica.kindsOf evs rid ++ PeerReplica.kindsOf mr rid := by
  simp [PeerReplica.kindsOf]

theorem conclude_spec (rid agreed) : (c.conclude rid agreed).2.order = c.order ∧
    (∀ r, r ≠ rid → PeerReplica.kindsOf (c.conclude rid agreed).1 r = [] ∧
      (c.conclude rid agreed).2.stage r = c.stage r) ∧
    ∀ st, c.stage rid = some st → PeerReplica.kindsOf (c.conclude rid agreed).1 rid = (verdict st agreed).toList ∧
      (c.conclude rid agreed).2.stage rid = some (stageAfter st (verdict st agreed)) := by
  unfold conclude
  cases hs : c.stage rid with
  | none => exact ⟨rfl, fun r _ => ⟨rfl, rfl⟩, fun _ h => by cases h⟩
  | some st =>
    refine ⟨rfl, fun r hr => ⟨?_, update_of_ne hr ..⟩, fun st' h => ?_⟩
    · dsimp only
      cases verdict st agreed with
      | none => rfl
      | some kind => simp [PeerReplica.kindsOf, Ne.symm hr]
    · cases h
      refine ⟨?_, update_self ..⟩
      dsimp only
      cases verdict st agreed with
      | none => rfl
      | some kind => simp [PeerReplica.kindsOf]

theorem concludeAll_spec : ∀ (agreed : List (Nat × Nat)) {c : LifeCycle}, (agreed.map Prod.fst).Nodup →
    (c.concludeAll agreed).2.order = c.order ∧
    (∀ r, r ∉ agreed.map Prod.fst → PeerReplica.kindsOf (c.concludeAll agreed).1 r = [] ∧
      (c.concludeAll agreed).2.stage r = c.stage r) ∧
    ∀ rid a, (rid, a) ∈ agreed → ∀ st, c.stage rid = some st →
      PeerReplica.kindsOf (c.concludeAll agreed).1 rid = (verdict st a).toList ∧
      (c.concludeAll agreed).2.stage rid = some (stageAfter st (verdict st a))
  | [], c, _ => ⟨rfl, fun r _ => ⟨rfl, rfl⟩, fun _ _ h => by cases h⟩
  | (first, a0) :: rest, c, hd => by
    obtain ⟨hf, ht⟩ := nodup_cons.mp hd
    obtain ⟨hor, hot, hn⟩ := conclude_spec first a0
    obtain ⟨hor', hot', hn'⟩ := concludeAll_spec rest (c := (c.conclude first a0).2) ht
    simp only [concludeAll, kindsOf_append]
    refine ⟨hor'.trans hor, fun r hr => ?_, fun rid a hm st hs => ?_⟩
    · simp only [map_cons, mem_cons, not_or] at hr
      rw [(hot r hr.1).1, (hot' r hr.2).1, (hot' r hr.2).2, (hot r hr.1).2]
      exact ⟨rfl, rfl⟩
    · rcases mem_cons.mp hm with hq | hl
      · obtain ⟨rfl, rfl⟩ := Prod.mk.inj hq
        rw [(hn st hs).1, (hot' rid hf).1, (hot' rid hf).2, (hn st hs).2]
        exact ⟨append_nil _, rfl⟩
      · have hne : rid ≠ first := by
          rintro rfl
          exact hf (mem_map.mpr ⟨_, hl, rfl⟩)
        rw [(hot rid hne).1, nil_append]
        exact hn' rid a hl st ((hot rid hne).2.trans hs)

theorem mem_endedBy {evs rid} : rid ∈ endedBy evs ↔ ∃ kind ∈ PeerReplica.kindsOf evs rid, kind ≠ .bootstrapped := by
  simp only [endedBy, PeerReplica.kindsOf, List.mem_map, mem_filter, decide_eq_true_eq, ne_eq, decide_not,
    Bool.not_eq_true', decide_eq_false_iff_not]
  constructor
  · rintro ⟨⟨kind, r⟩, ⟨hm, hk⟩, rfl⟩
    exact ⟨kind, ⟨_, ⟨hm, rfl⟩, rfl⟩, hk⟩
  · rintro ⟨_, ⟨⟨kind, r⟩, ⟨hm, rfl⟩, rfl⟩, hk⟩
    exact ⟨_, ⟨hm, hk⟩, rfl⟩

def LifeOf (stage : Option TransferPoll) (since : List LifeKind) : Prop :=
  match stage with
  | none => since ∈ [[], [.failed], [.bootstrapped, .failed], [.bootstrapped, .done]]
  | some .bootstrapping => since = []
  | some .bootstrapped => since = [.bootstrapped]
  | some _ => False

theorem LifeOf.mem {st sn} (hl : LifeOf st sn) :
    sn ∈ [[], [.bootstrapped], [.failed], [.bootstrapped, .failed], [.bootstrapped, .done]] := by
  rcases st with _ | st
  · simp only [LifeOf, mem_cons, not_mem_nil, or_false] at hl
    rcases hl with rfl | rfl | rfl | rfl <;> simp
  · cases st <;> simp_all [LifeOf]

theorem LifeOf.verdict {st sn} (hl : LifeOf (some st) sn) (agreed) :
    LifeOf (if ∃ kind ∈ (verdict st agreed).toList, kind ≠ .bootstrapped then none
      else some (stageAfter st (verdict st agreed))) (sn ++ (verdict st agreed).toList) := by
  cases st with
  | bootstrapping =>
    subst hl
    unfold Transfer.verdict
    dsimp only
    split
    · simp [LifeOf, stageAfter]
    · split
      · simp [LifeOf]
      · simp [LifeOf, stageAfter]
  | bootstrapped =>
    simp only [LifeOf] at hl
    subst hl
    unfold Transfer.verdict
    dsimp only
    split
    · next h => cases h.1
    · split
      · simp [LifeOf]
      · split
        · simp [LifeOf]
        · simp [LifeOf, stageAfter]
  | _ => exact hl.elim

theorem poll_spec (hso : c.Sound) {agreed : List Nat} (hln : agreed.length = c.order.length) : (c.poll agreed).2.Sound ∧
    (∀ rid sn, LifeOf (c.stage rid) sn →
      LifeOf ((c.poll agreed).2.stage rid) (sn ++ PeerReplica.kindsOf (c.poll agreed).1 rid)) ∧
    ∀ rid, (rid, TransferPoll.failed.toWire) ∈ c.order.zip agreed →
      .failed ∈ PeerReplica.kindsOf (c.poll agreed).1 rid ∧ (c.poll agreed).2.stage rid = none := by
  have hk : (c.order.zip agreed).map Prod.fst = c.order := map_fst_zip (by omega)
  obtain ⟨hor, hot, hn⟩ := concludeAll_spec (c.order.zip agreed) (by rw [hk]; exact hso.nodup)
  rw [hk] at hot
  have hc : (c.concludeAll (c.order.zip agreed)).2.Sound := by
    refine ⟨by rw [hor]; exact hso.nodup, fun rid => ?_⟩
    rw [hor, hso.mem rid]
    by_cases hr : rid ∈ c.order
    · obtain ⟨⟨_, a⟩, hm, rfl⟩ := mem_map.mp (hk ▸ hr)
      obtain ⟨st, hg⟩ := isSome_iff_exists.mp ((hso.mem _).mp hr)
      simp [(hn _ a hm st hg).2, hg]
    · rw [(hot rid hr).2]
  obtain ⟨ht, hs⟩ := Sound.forgetAll (endedBy (c.concludeAll (c.order.zip agreed)).1) hc
  refine ⟨ht, fun rid sn hl => ?_, fun rid hm => ?_⟩
  · simp only [poll]
    rw [hs]
    simp only [mem_endedBy]
    by_cases hr : rid ∈ c.order
    · obtain ⟨⟨_, a⟩, hm, rfl⟩ := mem_map.mp (hk ▸ hr)
      obtain ⟨st, hg⟩ := isSome_iff_exists.mp ((hso.mem _).mp hr)
      rw [(hn _ a hm st hg).1, (hn _ a hm st hg).2]
      rw [hg] at hl
      exact hl.verdict a
    · rw [(hot rid hr).1, (hot rid hr).2]
      simpa using hl
  · have hr : rid ∈ c.order := (of_mem_zip hm).1
    obtain ⟨st, hg⟩ := isSome_iff_exists.mp ((hso.mem _).mp hr)
    have hki := (hn rid _ hm st hg).1
    have hf : verdict st TransferPoll.failed.toWire = some .failed := by simp [verdict]
    rw [hf] at hki
    simp only [poll]
    rw [hs, hki, if_pos (mem_endedBy.mpr ⟨.failed, by simp [hki], by decide⟩)]
    simp

end LifeCycle

/-! ## The peers follow it -/

structure Follows {P S R : Type} (kind : TransferPeer P S R) (view : P → LifeCycle) : Prop where
  order : ∀ p, kind.order p = (view p).order
  own : ∀ p now, (kind.own p now).length = (view p).order.length
  poll : ∀ p now others events p', kind.poll p now others = some (events, p') →
    (view p).poll (List.zipWith min (kind.own p now) others) = (events, view p')
  register : ∀ p rid info, view (kind.register p rid info) = (view p).register rid
  setState : ∀ p state, view (kind.setState p state) = view p

theorem map_update {α β : Type} (f : α → β) (tb : Nat → Option α) (rid) (vl : Option α) :
    (fun r => (update tb rid vl r).map f) = update (fun r => (tb r).map f) rid (vl.map f) := by
  funext r
  by_cases hr : r = rid
  · subst hr
    simp
  · simp [hr]

namespace PrefillPeer

def view (p : PrefillPeer) : LifeCycle := ⟨p.order, fun rid => (p.senders rid).map (·.localPoll)⟩

theorem view_polls (now) : ∀ rest p, (polls now p rest).2.view = p.view ∧ (polls now p rest).1.length = rest.length
  | [], p => ⟨rfl, rfl⟩
  | rid :: rest, p => by
    have hn : (pollOne now p rid).2.view = p.view := by
      unfold pollOne
      split
      · rfl
      · next sn hs =>
        split
        · rfl
        · simp [view, map_update, hs]
    obtain ⟨hv, hl⟩ := view_polls now rest (pollOne now p rid).2
    simp only [polls]
    exact ⟨hv.trans hn, by simp [hl]⟩

theorem view_update (p : PrefillPeer) (rid) (sn : Sender) :
    view { p with senders := update p.senders rid (some sn) } =
      { p.view with stage := update p.view.stage rid (some sn.localPoll) } := by
  simp only [view, LifeCycle.mk.injEq, true_and]
  exact map_update ..

theorem view_conclude (p : PrefillPeer) (rid agreed) :
    p.view.conclude rid agreed = (p.emitted rid agreed, (p.conclude rid agreed).2.view) ∧
      (p.conclude rid agreed).1 = (p.emitted rid agreed).any (·.1 ≠ .bootstrapped) := by
  unfold LifeCycle.conclude emitted conclude
  cases hse : p.senders rid with
  | none => simp [view, hse]
  | some sn =>
    have hs : p.view.stage rid = some sn.localPoll := by simp [view, hse]
    have hk : update p.view.stage rid (some sn.localPoll) = p.view.stage := by
      rw [← hs]
      exact update_eq_self ..
    simp only [hs, verdict]
    split
    · simp [view_update, stageAfter]
    · split
      · simp [stageAfter, hk]
      · split
        · simp [view_update, stageAfter]
        · simp [stageAfter, hk]

theorem view_concludeAll : ∀ agreed p,
    p.view.concludeAll agreed = (emittedAll p agreed, (concludeAll p agreed).2.view) ∧
      (concludeAll p agreed).1 = endedBy (emittedAll p agreed)
  | [], p => ⟨rfl, rfl⟩
  | (rid, a) :: rest, p => by
    obtain ⟨hv, hn⟩ := view_conclude p rid a
    obtain ⟨hvi, hd⟩ := view_concludeAll rest (p.conclude rid a).2
    simp only [LifeCycle.concludeAll, emittedAll, concludeAll, hv, hvi, hn, hd, true_and]
    unfold emitted
    cases p.senders rid with
    | none => rfl
    | some sn =>
      dsimp only
      split
      · simp [endedBy]
      · split
        · simp [endedBy]
        · split <;> simp [endedBy]

theorem view_forget (p : PrefillPeer) (rid) : (p.forget rid).view = p.view.forget rid := by
  unfold forget LifeCycle.forget
  cases hs : p.senders rid with
  | none => simp [view, hs]
  | some sn =>
    simp only [view, hs, map_some, isSome_some, if_true, LifeCycle.mk.injEq, true_and]
    exact map_update ..

theorem follows : Follows prefillPeers view where
  order := fun _ => rfl
  own := fun p now => by simp [prefillPeers, view_polls, view]
  poll := fun p now ots evs p' hp => by
    obtain ⟨rfl, rfl⟩ := hp
    obtain ⟨hv, _⟩ := view_polls now p.order p
    obtain ⟨hvi, hd⟩ := view_concludeAll (p.order.zip (zipWith min ((polls now p p.order).1.map (·.toWire)) ots))
      (polls now p p.order).2
    rw [hv] at hvi
    change (let (evs, c) := p.view.concludeAll (p.order.zip _); (evs, (endedBy evs).foldl LifeCycle.forget c)) = _
    simp only [prefillPeers, hvi, hd]
    rw [foldl_hom view fun p rid => (view_forget p rid).symm]
  register := fun p rid i => by
    simp only [prefillPeers, register, view, LifeCycle.register, isSome_map, LifeCycle.mk.injEq, true_and]
    exact map_update ..
  setState := fun _ _ => rfl

end PrefillPeer

namespace DecodePeer

def view (p : DecodePeer) : LifeCycle := ⟨p.order, fun rid => (p.receivers rid).map (·.localPoll)⟩

theorem view_polls (now) : ∀ rest p, (polls now p rest).2.view = p.view ∧ (polls now p rest).1.length = rest.length
  | [], p => ⟨rfl, rfl⟩
  | rid :: rest, p => by
    have hn : (pollOne now p rid).2.view = p.view := by
      unfold pollOne
      split
      · rfl
      · next rc hr =>
        split
        · rfl
        · simp [view, map_update, hr]
    obtain ⟨hv, hl⟩ := view_polls now rest (pollOne now p rid).2
    simp only [polls]
    exact ⟨hv.trans hn, by simp [hl]⟩

theorem view_update (p : DecodePeer) (state) (rid) (rc : Receiver) :
    view { p with receivers := update p.receivers rid (some rc), state := state } =
      { p.view with stage := update p.view.stage rid (some rc.localPoll) } := by
  simp only [view, LifeCycle.mk.injEq, true_and]
  exact map_update ..

theorem view_takeLanded {p p' : DecodePeer} {rid rc} {ev : PdEvent}
    (ht : p.takeLanded rid rc = .ok (ev, p')) :
    ev.life = (.done, rid) ∧ p'.view = { p.view with stage := update p.view.stage rid (some .success) } := by
  unfold takeLanded at ht
  dsimp only at ht
  split at ht
  · cases ht
  · cases ht
  · cases ht
    exact ⟨rfl, view_update ..⟩

theorem view_conclude {p p' : DecodePeer} {rid agreed} {evs : List PdEvent} {es}
    (hc : p.conclude rid agreed = .ok (evs, es, p')) :
    p.view.conclude rid agreed = (evs.map PdEvent.life, p'.view) ∧
      (if es then [rid] else []) = endedBy (evs.map PdEvent.life) := by
  unfold conclude at hc
  unfold LifeCycle.conclude
  cases hr : p.receivers rid with
  | none =>
    rw [hr] at hc
    cases hc
    simp [view, hr, endedBy]
  | some rc =>
    have hs : p.view.stage rid = some rc.localPoll := by simp [view, hr]
    have hk : update p.view.stage rid (some rc.localPoll) = p.view.stage := by
      rw [← hs]
      exact update_eq_self ..
    rw [hr] at hc
    simp only [hs, verdict]
    dsimp only at hc
    split at hc
    · next hf =>
      cases hc
      rw [if_pos hf]
      refine ⟨?_, rfl⟩
      rw [view_update]
      rfl
    · next hf =>
      rw [if_neg hf]
      split at hc
      · next hfa =>
        cases hc
        rw [if_pos hfa]
        simp [stageAfter, hk, PdEvent.life, endedBy]
      · next hfa =>
        rw [if_neg hfa]
        split at hc
        · next hd =>
          cases ht : p.takeLanded rid rc with
          | error tx =>
            rw [ht] at hc
            cases hc
          | ok ln =>
            rw [ht] at hc
            cases hc
            obtain ⟨hev, hv⟩ := view_takeLanded ht
            rw [if_pos hd]
            simp [stageAfter, hev, hv, endedBy]
        · next hd =>
          cases hc
          rw [if_neg hd]
          simp [stageAfter, hk, endedBy]

theorem view_concludeAll : ∀ {agreed} {p p' : DecodePeer} {evs : List PdEvent} {ended},
    concludeAll p agreed = .ok (evs, ended, p') →
      p.view.concludeAll agreed = (evs.map PdEvent.life, p'.view) ∧ ended = endedBy (evs.map PdEvent.life)
  | [], p, p', evs, ended, hl => by
    cases hl
    exact ⟨rfl, rfl⟩
  | (rid, a) :: rest, p, p', evs, ended, hl => by
    obtain ⟨first, es, p1, lt, ended', hn, hm, rfl, rfl⟩ := concludeAll_cons hl
    obtain ⟨hv, hen⟩ := view_conclude hn
    obtain ⟨hvi, hd⟩ := view_concludeAll hm
    simp only [LifeCycle.concludeAll, hv, hvi, hen, hd, map_append, true_and]
    simp [endedBy]

theorem view_forget (p : DecodePeer) (rid) : (p.forget rid).view = p.view.forget rid := by
  unfold forget LifeCycle.forget
  cases hr : p.receivers rid with
  | none => simp [view, hr]
  | some rc =>
    simp only [view, hr, map_some, isSome_some, if_true, LifeCycle.mk.injEq, true_and]
    exact map_update ..

theorem follows : Follows decodePeers view where
  order := fun _ => rfl
  own := fun p now => by simp [decodePeers, view_polls, view]
  poll := fun p now ots evs p' hp => by
    obtain ⟨⟨em, af⟩, hk, hq⟩ := map_eq_some_iff.mp hp
    obtain ⟨rfl, rfl⟩ := Prod.mk.inj hq
    obtain ⟨hv, _⟩ := view_polls now p.order p
    have hr : p.poll now ots = .ok (em, af) := by
      cases hr : p.poll now ots <;> rw [hr] at hk <;> cases hk
      rfl
    obtain ⟨ended, p1, hl, rfl⟩ := poll_concludes hr
    obtain ⟨hvi, hd⟩ := view_concludeAll hl
    rw [hv] at hvi
    change (let (evs, c) := p.view.concludeAll (p.order.zip _); (evs, (endedBy evs).foldl LifeCycle.forget c)) = _
    simp only [decodePeers, hvi, hd]
    rw [foldl_hom view fun p rid => (view_forget p rid).symm]
  register := fun p rid i => by
    simp only [decodePeers, register, view, LifeCycle.register, isSome_map, LifeCycle.mk.injEq, true_and]
    exact map_update ..
  setState := fun _ _ => rfl

end DecodePeer

/-! ## Runs -/

namespace PeerReplica

variable {P S R : Type} {n : Nat} {kind : TransferPeer P S R} {view : P → LifeCycle} {h h' : PeerReplica P n}

theorem leastOf_le : ∀ (n : Nat) (vls : Fin (n + 1) → Nat) (i : Fin (n + 1)), leastOf n vls ≤ vls i
  | 0, vls, i => by
    rw [Fin.fin_one_eq_zero i]
    exact le_rfl
  | n + 1, vls, i => by
    refine Fin.cases (Nat.min_le_left ..) (fun j => ?_) i
    exact (Nat.min_le_right ..).trans (leastOf_le n (fun i => vls i.succ) j)

theorem zipWith_agreed {count} (polls : Fin (n + 1) → List Nat) (i) (hl : (polls i).length = count) :
    zipWith min (polls i) (agreedPolls count polls) = agreedPolls count polls := by
  refine ext_getElem (by simp [agreedPolls, hl]) fun k hk hk' => ?_
  simp only [agreedPolls, getElem_zipWith, getElem_map, getElem_range]
  have hle := leastOf_le n (fun j => (polls j).getD k 0) i
  have ht : k < (polls i).length := by
    simp only [agreedPolls, length_map, length_range] at hk'
    omega
  rw [getD_eq_getElem?_getD, getElem?_eq_getElem ht, getD_some] at hle
  exact Nat.min_eq_right hle

structure Alike (view : P → LifeCycle) (h : PeerReplica P n) (c : LifeCycle) : Prop where
  views : ∀ i, view (h.members i) = c
  sound : c.Sound
  same : ∀ i, h.emitted i = h.emitted 0
  life : ∀ rid, LifeCycle.LifeOf (c.stage rid) (h.since rid)

variable {c : LifeCycle}

section

variable (hfo : Follows kind view)
include hfo

theorem Alike.poll (hl : Alike view h c) {now : Fin (n + 1) → Nat} (hs : h.step kind (.poll now) = some h') :
    ∃ agreed, agreed.length = c.order.length ∧ (∀ i, view (h'.members i) = (c.poll agreed).2) ∧
      (∀ i, h'.emitted i = h.emitted i ++ (c.poll agreed).1) ∧
      (∀ rid, h'.since rid = h.since rid ++ kindsOf (c.poll agreed).1 rid) ∧
      ∀ i rid, (rid, TransferPoll.failed.toWire) ∈ (kind.order (h.members i)).zip (kind.own (h.members i) (now i)) →
        (rid, TransferPoll.failed.toWire) ∈ c.order.zip agreed := by
  have hg : ∀ i, (kind.own (h.members i) (now i)).length = c.order.length := fun i => by rw [hfo.own, hl.views i]
  have hc : (kind.order (h.members 0)).length = c.order.length := by rw [hfo.order, hl.views 0]
  simp only [step] at hs
  split at hs
  · next hok =>
    cases hs
    refine ⟨agreedPolls c.order.length fun j => kind.own (h.members j) (now j), by simp [agreedPolls], ?_⟩
    have hp : ∀ i, c.poll (agreedPolls c.order.length fun j => kind.own (h.members j) (now j)) =
        (((h.polled kind now i).get (hok i)).1, view ((h.polled kind now i).get (hok i)).2) := fun i => by
      have hf := hfo.poll (h.members i) (now i) _ _ _ (some_get (hok i)).symm
      have hz := zipWith_agreed (fun j => kind.own (h.members j) (now j)) i (hg i)
      rw [hl.views i, hc, hz] at hf
      exact hf
    refine ⟨fun i => by rw [hp i], fun i => by rw [hp i], fun rid => by rw [hp 0], fun i rid hm => ?_⟩
    rw [hfo.order, hl.views i] at hm
    obtain ⟨k, hk, hq⟩ := getElem_of_mem hm
    rw [getElem_zip, Prod.mk.injEq] at hq
    rw [length_zip, hg i, Nat.min_self] at hk
    refine mem_iff_getElem.mpr ⟨k, by simpa [agreedPolls] using hk, ?_⟩
    rw [getElem_zip, Prod.mk.injEq]
    refine ⟨hq.1, Nat.le_zero.mp ?_⟩
    simp only [agreedPolls, getElem_map, getElem_range]
    have hle := leastOf_le n (fun j => (kind.own (h.members j) (now j)).getD k 0) i
    rw [getD_eq_getElem?_getD, getElem?_eq_getElem (by rw [hg i]; exact hk), getD_some, hq.2] at hle
    exact hle
  · cases hs

theorem Alike.step (hal : Alike view h c) {ev} (hs : h.step kind ev = some h') : ∃ c', Alike view h' c' := by
  cases ev with
  | register rid info =>
    cases hs
    refine ⟨c.register rid, fun i => by rw [hfo.register, hal.views i], hal.sound.register rid, hal.same, fun r => ?_⟩
    by_cases hr : r = rid
    · subst hr
      simp [LifeCycle.register, LifeCycle.LifeOf]
    · simpa [LifeCycle.register, hr] using hal.life r
  | threads i st =>
    cases hs
    refine ⟨c, fun j => ?_, hal.sound, hal.same, hal.life⟩
    by_cases hj : j = i
    · subst hj
      simp [hfo.setState, hal.views]
    · simp [hj, hal.views]
  | poll now =>
    obtain ⟨agreed, hg, hv, ht, hc, _⟩ := hal.poll hfo hs
    obtain ⟨hso, hl, _⟩ := LifeCycle.poll_spec hal.sound hg
    refine ⟨(c.poll agreed).2, hv, hso, fun i => by rw [ht, ht, hal.same], fun rid => ?_⟩
    rw [hc]
    exact hl rid _ (hal.life rid)

theorem alike_of_steps {st} (hr : ∃ c, Alike view st c)
    (ht : Relation.ReflTransGen (Step kind) st h) : ∃ c, Alike view h c := by
  induction ht with
  | refl => exact hr
  | tail _ hs ih =>
    obtain ⟨c, hl⟩ := ih
    obtain ⟨ev, hs⟩ := hs
    exact hl.step hfo hs

theorem Alike.oneLife (hl : Alike view h c) : OneLife kind h where
  same := fun i j => by rw [hl.same i, hl.same j]
  life := fun rid => (hl.life rid).mem
  failed := fun now h' hs i rid hm => by
    obtain ⟨agreed, hg, hv, _, hc, hf⟩ := hl.poll hfo hs
    obtain ⟨hso, _, hn⟩ := LifeCycle.poll_spec hl.sound hg
    obtain ⟨hk, ht⟩ := hn rid (hf i rid hm)
    refine ⟨by rw [hc]; exact mem_append_right _ hk, fun j => ?_⟩
    rw [hfo.order, hv j, hso.mem, ht]
    simp

end

theorem reachable_of_steps {evs} {h h' : PeerReplica P n} :
    steps kind h evs = some h' → Relation.ReflTransGen (Step kind) h h' :=
  reaches_of_run (fun _ => rfl) fun {_ event _ _} ht => by
    obtain ⟨next, hs, hr⟩ := bind_eq_some_iff.mp ht
    exact ⟨next, ⟨event, hs⟩, hr⟩

end PeerReplica

end TokenSpeed.Transfer

import TokenSpeed.Transfer.Lemmas.Decode
import TokenSpeed.Logic.Updates

/-!
# The runs of a Decode member

The invariant of every room is kept by every event; the receivers of the scheduling loop are at success only
for rooms every expected rank has answered.
-/

namespace TokenSpeed.Transfer

open Function DecodeState List RoomTable

/-! ## Answered rooms -/

namespace DecodeState

variable {s s' : DecodeState} {heard : List StatusMessage} {room : Nat}

theorem fail_answers (room' reason) :
    (s.fail room' reason).expected = s.expected ∧ (s.fail room' reason).responses = s.responses := by
  unfold fail
  split <;> exact ⟨rfl, rfl⟩

theorem land_answers (room' py) :
    (s.land room' py).expected = s.expected ∧ (s.land room' py).responses = s.responses := by
  unfold land
  split
  · exact fail_answers ..
  · exact ⟨rfl, rfl⟩

theorem loseNode_answers (addr) :
    (s.loseNode addr).expected = s.expected ∧ (s.loseNode addr).responses = s.responses := by
  refine loseNode_keeps (P := fun s' => s'.expected = s.expected ∧ s'.responses = s.responses) ⟨rfl, rfl⟩
    fun s' first reason hs => ?_
  obtain ⟨he, hr⟩ := fail_answers first reason
  exact ⟨he.trans hs.1, hr.trans hs.2⟩

theorem Answered.of_eq (h : s.Answered heard room) (hs : s'.expected = s.expected ∧ s'.responses = s.responses) :
    s'.Answered heard room := by
  unfold Answered
  rw [hs.1, hs.2]
  exact h

theorem complete_answers {ranks ms} :
    (s.complete ranks ms).expected = s.expected ∧
      (s.complete ranks ms).responses = (s.answer ms).responses := by
  cases hf : firstToken ms.bootstrapToken with
  | none =>
    rw [complete_invalid hf]
    exact fail_answers ..
  | some tk =>
    rw [complete_valid hf]
    split_ifs
    · exact ⟨rfl, rfl⟩
    · exact fail_answers ..
    · exact land_answers ..

theorem Answered.apply (h : s.Answered heard room) (ms) : (s.apply ms).Answered heard room := by
  by_cases hr : room = ms.room
  · subst hr
    obtain ⟨ranks, hp, hs, ht⟩ := h
    unfold apply
    dsimp only
    split
    · split
      · rw [hp]
        dsimp only
        split
        · next hk =>
          refine ⟨ranks, (congrFun complete_answers.1 _).trans hp, ?_, ht⟩
          rw [complete_answers.2]
          simp only [answer, update_self, hs]
          exact Finset.insert_eq_of_mem hk
        · exact Answered.of_eq ⟨ranks, hp, hs, ht⟩ (fail_answers ..)
      · exact Answered.of_eq ⟨ranks, hp, hs, ht⟩ (fail_answers ..)
      · exact ⟨ranks, hp, hs, ht⟩
    · exact ⟨ranks, hp, hs, ht⟩
  · exact h.congr (apply_agree hr)

theorem Answered.append (h : s.Answered heard room) (more) : s.Answered (heard ++ more) room := by
  obtain ⟨ranks, hp, hr, ht⟩ := h
  exact ⟨ranks, hp, hr, ht.append more⟩

/-! ## Untracked rooms -/

section

variable (h : s.tracked room = false)
include h

theorem fail_agree_untracked (room' reason) : Agree s (s.fail room' reason) room := by
  by_cases hr : room = room'
  · subst hr
    rw [fail, if_neg (by simp [h])]
    exact .refl
  · exact fail_agree hr

theorem apply_agree_untracked (ms) : Agree s (s.apply ms) room := by
  by_cases hr : room = ms.room
  · subst hr
    rw [apply, if_neg (by simp [h])]
    exact .refl
  · exact apply_agree hr

theorem attach_agree_untracked (room' addr ranks) : Agree s (s.attach room' addr ranks) room := by
  by_cases hr : room = room'
  · subst hr
    rw [attach, if_neg (by simp [h])]
    exact .refl
  · exact attach_agree hr

theorem receive_agree_untracked (room' i now) : Agree s (s.receive room' i now) room := by
  by_cases hr : room = room'
  · subst hr
    rw [receive, if_neg (by simp [h])]
    exact .refl
  · exact receive_agree hr

theorem loseNode_agree_untracked (addr) : Agree s (s.loseNode addr) room :=
  loseNode_keeps (P := (Agree s · room)) ⟨rfl, rfl, rfl, rfl, rfl⟩ fun _ first reason hs =>
    hs.trans (fail_agree_untracked (hs.tracked.trans h) first reason)

end

end DecodeState

/-! ## Polls -/

namespace DecodePeer

def AtSuccess (p : DecodePeer) (rid : Nat) : Prop :=
  ∃ receiver, p.receivers rid = some receiver ∧
    (receiver.concluded = some .success ∨ p.state.rooms.get receiver.room = some .success)

structure Polled (p p' : DecodePeer) : Prop where
  state : ∀ room, p.state.Agree p'.state room
  connects : p'.connects = p.connects
  receivers : ∀ rid receiver', p'.receivers rid = some receiver' → ∃ receiver, p.receivers rid = some receiver ∧
    receiver.room = receiver'.room ∧ (receiver'.concluded = some .success → p.AtSuccess rid)

variable {p p' p'' : DecodePeer} {rid : Nat}

theorem Polled.refl : Polled p p :=
  ⟨fun _ => .refl, rfl, fun _ receiver h => ⟨receiver, h, rfl, fun hc => ⟨receiver, h, .inl hc⟩⟩⟩

theorem Polled.atSuccess (h : Polled p p') (hs : p'.AtSuccess rid) : p.AtSuccess rid := by
  obtain ⟨receiver', hre', hca⟩ := hs
  obtain ⟨receiver, hre, hr, hn⟩ := h.receivers rid receiver' hre'
  rcases hca with hc | hg
  · exact hn hc
  · refine ⟨receiver, hre, .inr ?_⟩
    rw [hr, ← (h.state receiver'.room).rooms]
    exact hg

theorem Polled.trans (h : Polled p p') (h' : Polled p' p'') : Polled p p'' where
  state := fun room => (h.state room).trans (h'.state room)
  connects := h'.connects.trans h.connects
  receivers := fun rid receiver'' h'' => by
    obtain ⟨receiver', hre', hr', hn'⟩ := h'.receivers rid receiver'' h''
    obtain ⟨receiver, hre, hr, _⟩ := h.receivers rid receiver' hre'
    exact ⟨receiver, hre, hr.trans hr', fun hc => h.atSuccess (hn' hc)⟩

variable {receiver : Receiver}

theorem polled_setReceiver {receiver' : Receiver} {state} (hre : p.receivers rid = some receiver)
    (hs : ∀ room, p.state.Agree state room) (hr : receiver.room = receiver'.room)
    (hn : receiver'.concluded = some .success → p.AtSuccess rid) :
    Polled p { p with state := state, receivers := update p.receivers rid (some receiver') } := by
  refine ⟨hs, rfl, fun rid' other hh => ?_⟩
  rcases update_cases hh with ⟨rfl, hu⟩ | ⟨-, hh⟩
  · rw [Option.some.injEq] at hu
    subst hu
    exact ⟨receiver, hre, hr, hn⟩
  · exact ⟨other, hh, rfl, fun hc => ⟨other, hh, .inl hc⟩⟩

variable {now : Nat}

theorem observe_success (h : (p.observe receiver now).1 = .success ∨ (p.observe receiver now).2 = some .success) :
    p.state.rooms.get receiver.room = some .success := by
  unfold observe at h
  cases hg : p.state.rooms.get receiver.room with
  | none => simp [hg] at h
  | some pl =>
    simp only [hg, Option.getD_some] at h
    cases pl with
    | success => rfl
    | failed | bootstrapping | bootstrapped | transferring => simp at h
    | waitingForInput =>
      simp only at h
      split at h
      · split at h <;> simp at h
      · simp at h

theorem pollOne_polled (now) : Polled p (pollOne now p rid).2 := by
  unfold pollOne
  split
  · exact .refl
  · next receiver hr =>
    split
    · exact .refl
    · refine polled_setReceiver hr (fun room => ⟨?_, rfl, rfl, rfl, rfl⟩) rfl fun hc =>
        ⟨receiver, hr, .inr (observe_success (.inr hc))⟩
      split <;> rfl

theorem pollOne_success (h : (pollOne now p rid).1 = .success) : p.AtSuccess rid := by
  unfold pollOne at h
  split at h
  · cases h
  · next receiver hr =>
    split at h
    · next pl hc => exact ⟨receiver, hr, .inl (hc.trans (congrArg some h))⟩
    · exact ⟨receiver, hr, .inr (observe_success (.inl h))⟩

theorem polls_polled (now) : ∀ rest p, Polled p (polls now p rest).2
  | [], _ => .refl
  | rid :: rest, p => (pollOne_polled now).trans (polls_polled now rest (pollOne now p rid).2)

theorem polls_success (now : Nat) : ∀ (rest : List Nat) (p : DecodePeer),
    (rid, TransferPoll.success) ∈ rest.zip (polls now p rest).1 → p.AtSuccess rid
  | [], _, h => by simp at h
  | first :: rest, p, h => by
    simp only [polls, zip_cons_cons, mem_cons, Prod.mk.injEq] at h
    rcases h with ⟨rfl, h⟩ | h
    · exact pollOne_success h.symm
    · exact (pollOne_polled now).atSuccess (polls_success now rest _ h)

theorem takeLanded_polled {ev} (hr : p.receivers rid = some receiver)
    (h : p.takeLanded rid receiver = .ok (ev, p')) : Polled p p' := by
  unfold takeLanded at h
  dsimp only at h
  split at h
  · cases h
  · cases h
  · cases h
    exact polled_setReceiver hr (fun room => ⟨rfl, rfl, rfl, rfl, rfl⟩) rfl fun hc => ⟨receiver, hr, .inl hc⟩

variable {evs : List PdEvent} {agreed : Nat}

theorem conclude_ok {es} (h : conclude p rid agreed = .ok (evs, es, p')) :
    Polled p p' ∧ ∀ dn, PdEvent.remotePrefillDone dn ∈ evs →
      dn.rid = rid ∧ TransferPoll.fromWire agreed = some .success := by
  unfold conclude at h
  split at h
  · cases h
    exact ⟨.refl, by simp⟩
  · next receiver hr =>
    dsimp only at h
    split_ifs at h with hb hf hd
    · cases h
      exact ⟨polled_setReceiver hr (fun _ => .refl) rfl fun hc => ⟨receiver, hr, .inl hc⟩, by simp⟩
    · cases h
      exact ⟨.refl, by simp⟩
    · cases ht : p.takeLanded rid receiver with
      | error e =>
        rw [ht] at h
        cases h
      | ok tk =>
        rw [ht] at h
        cases h
        refine ⟨takeLanded_polled hr ht, fun dn hm => ?_⟩
        have hp : TransferPoll.fromWire agreed = some .success := by
          cases hw : TransferPoll.fromWire agreed with
          | none => simp [hw] at hd
          | some pl =>
            rw [hw, Option.getD_some] at hd
            exact congrArg some hd.2
        unfold takeLanded at ht
        dsimp only at ht
        split at ht
        · cases ht
        · cases ht
        · cases ht
          rw [mem_singleton, PdEvent.remotePrefillDone.injEq] at hm
          exact ⟨congrArg RemotePrefill.rid hm, hp⟩
    · cases h
      exact ⟨.refl, by simp⟩

theorem concludeAll_cons {pairs ended}
    (h : concludeAll p ((rid, agreed) :: pairs) = .ok (evs, ended, p')) :
    ∃ e1 es p1 more ended', conclude p rid agreed = .ok (e1, es, p1) ∧ concludeAll p1 pairs = .ok (more, ended', p') ∧
      evs = e1 ++ more ∧ ended = (if es then [rid] else []) ++ ended' := by
  simp only [concludeAll] at h
  cases hf : conclude p rid agreed with
  | error e => simp [hf, bind, Except.bind] at h
  | ok first =>
    obtain ⟨e1, es, p1⟩ := first
    cases hr : concludeAll p1 pairs with
    | error e => simp [hf, hr, bind, Except.bind] at h
    | ok rest =>
      obtain ⟨more, ended', p2⟩ := rest
      simp only [hf, hr, bind, Except.bind, pure, Except.pure, Except.ok.injEq, Prod.mk.injEq] at h
      obtain ⟨rfl, rfl, rfl⟩ := h
      exact ⟨e1, es, p1, more, ended', rfl, hr, rfl, rfl⟩

variable {ots : List Nat}

theorem poll_concludes (h : p.poll now ots = .ok (evs, p')) :
    ∃ ended p1, concludeAll (polls now p p.order).2
      (p.order.zip (zipWith min ((polls now p p.order).1.map (·.toWire)) ots)) =
      .ok (evs, ended, p1) ∧ p' = ended.foldl forget p1 := by
  simp only [poll] at h
  cases hl : concludeAll (polls now p p.order).2
      (p.order.zip (zipWith min ((polls now p p.order).1.map (·.toWire)) ots)) with
  | error e => simp [hl, bind, Except.bind] at h
  | ok reason =>
    obtain ⟨evs', ended, p1⟩ := reason
    simp only [hl, bind, Except.bind, pure, Except.pure, Except.ok.injEq, Prod.mk.injEq] at h
    obtain ⟨rfl, rfl⟩ := h
    exact ⟨ended, p1, rfl, rfl⟩

theorem concludeAll_ok : ∀ (pairs : List (Nat × Nat)) {p p' evs ended},
    concludeAll p pairs = .ok (evs, ended, p') →
      Polled p p' ∧ ∀ dn, PdEvent.remotePrefillDone dn ∈ evs →
        ∃ agreed, (dn.rid, agreed) ∈ pairs ∧ TransferPoll.fromWire agreed = some .success := by
  intro pairs
  induction pairs with
  | nil =>
    intro p p' evs ended h
    cases h
    exact ⟨.refl, by simp⟩
  | cons pr pairs ih =>
    intro p p' evs ended h
    obtain ⟨e1, es, p1, more, ended', hf, hr, rfl, _⟩ := concludeAll_cons h
    obtain ⟨hl, hd⟩ := conclude_ok hf
    obtain ⟨hl', hd'⟩ := ih hr
    refine ⟨hl.trans hl', fun dn hm => ?_⟩
    rcases mem_append.mp hm with hm | hm
    · obtain ⟨hri, hw⟩ := hd dn hm
      exact ⟨pr.2, by rw [hri]; exact mem_cons_self, hw⟩
    · obtain ⟨agreed', hp, hw⟩ := hd' dn hm
      exact ⟨agreed', mem_cons_of_mem _ hp, hw⟩

theorem mem_zip_of_agreed : ∀ {rest : List Nat} {own : List TransferPoll} {ots},
    (rid, TransferPoll.success.toWire) ∈ rest.zip (zipWith min (own.map (·.toWire)) ots) →
      (rid, TransferPoll.success) ∈ rest.zip own
  | first :: rest, pl :: own, other :: ots, h => by
    simp only [map_cons, zipWith_cons_cons, zip_cons_cons, mem_cons, Prod.mk.injEq] at h ⊢
    rcases h with ⟨rfl, hm⟩ | h
    · refine .inl ⟨rfl, ?_⟩
      have hl : TransferPoll.success.toWire ≤ pl.toWire := hm.le.trans (min_le_left _ _)
      revert hl
      cases pl <;> decide
    · exact .inr (mem_zip_of_agreed h)
  | [], _, _, h => by simp at h
  | _ :: _, [], _, h => by simp at h
  | _ :: _, _ :: _, [], h => by simp at h

theorem poll_ok (h : p.poll now ots = .ok (evs, p')) :
    (∃ (p1 : DecodePeer) (ended : List Nat), Polled p p1 ∧ p' = ended.foldl forget p1) ∧
      ∀ dn, PdEvent.remotePrefillDone dn ∈ evs → p.AtSuccess dn.rid := by
  obtain ⟨ended, p1, hl, rfl⟩ := poll_concludes h
  obtain ⟨hpo, hd⟩ := concludeAll_ok _ hl
  refine ⟨⟨p1, ended, (polls_polled now p.order p).trans hpo, rfl⟩, fun dn hm => ?_⟩
  obtain ⟨agreed, hp, hw⟩ := hd dn hm
  rw [TransferPoll.fromWire_eq_success hw] at hp
  exact polls_success now _ _ (mem_zip_of_agreed hp)

end DecodePeer

/-! ## The invariant of a run -/

namespace DecodeRun

structure Unused (h : DecodeRun) (room : Nat) : Prop where
  tracked : h.peer.state.tracked room = false
  expected : h.peer.state.expected room = none
  responses : h.peer.state.responses room = ∅
  pending : h.peer.state.pending room = none
  connects : room ∉ h.peer.connects.map Prod.fst
  receivers : ∀ rid receiver, h.peer.receivers rid = some receiver → receiver.room ≠ room

structure Sane (h : DecodeRun) : Prop where
  rooms : ∀ room, h.peer.state.RoomInv (h.heard room) room
  unused : ∀ room, h.used room = false → h.Unused room
  connects : (h.peer.connects.map Prod.fst).Nodup
  unconnected : ∀ room ∈ h.peer.connects.map Prod.fst, h.peer.state.expected room = none
  single : ∀ {rid rid' receiver receiver'}, h.peer.receivers rid = some receiver →
    h.peer.receivers rid' = some receiver' → receiver.room = receiver'.room → rid = rid'
  concluded : ∀ {rid receiver}, h.peer.receivers rid = some receiver → receiver.concluded = some .success →
    h.peer.state.Answered (h.heard receiver.room) receiver.room

variable {h h' : DecodeRun}

theorem sane_start (wt) : (start wt).Sane where
  rooms := fun room => ⟨⟨fun _ => rfl, by simp [start], by simp [start], by simp [start, RoomTable.get]⟩, by
    simp [Counted, start]⟩
  unused := fun room _ => ⟨rfl, rfl, rfl, rfl, by simp [start], by simp [start]⟩
  connects := by simp [start]
  unconnected := by simp [start]
  single := by simp [start]
  concluded := by simp [start]

variable {rid : Nat}

theorem poll_step {now ots out} (hs : h.step (.poll now ots) = some (out, h')) :
    (∃ p, ∃ ended : List Nat, h.peer.Polled p ∧ h' = { h with peer := ended.foldl DecodePeer.forget p }) ∧
      ∀ done, PdEvent.remotePrefillDone done ∈ out → h.peer.AtSuccess done.rid := by
  simp only [step] at hs
  split at hs
  · next hp =>
    cases hs
    obtain ⟨⟨p, ended, hl, rfl⟩, hd⟩ := DecodePeer.poll_ok hp
    exact ⟨⟨p, ended, hl, rfl⟩, hd⟩
  · cases hs

theorem Sane.answered (hsa : h.Sane) (hs : h.peer.AtSuccess rid) :
    ∃ receiver, h.peer.receivers rid = some receiver ∧ h.peer.state.Answered (h.heard receiver.room) receiver.room := by
  obtain ⟨receiver, hr, hc | hg⟩ := hs
  · exact ⟨receiver, hr, hsa.concluded hr hc⟩
  · exact ⟨receiver, hr, (hsa.rooms receiver.room).landed hg⟩

variable {state : DecodeState} {room : Nat}

theorem Unused.agree (hu : h.Unused room) (hr : h.peer.state.Agree h'.peer.state room)
    (hc : room ∉ h'.peer.connects.map Prod.fst)
    (hv : ∀ rid receiver, h'.peer.receivers rid = some receiver → receiver.room ≠ room) : h'.Unused room :=
  ⟨hr.tracked.trans hu.tracked, hr.expected.trans hu.expected,
    hr.responses.trans hu.responses, hr.pending.trans hu.pending, hc, hv⟩

theorem Sane.setState (hsa : h.Sane) {connects : List (Nat × String)}
    (hs : connects.Sublist h.peer.connects)
    (hr : ∀ room, state.RoomInv (h.heard room) room)
    (hn : ∀ room, h.peer.state.tracked room = false → h.peer.state.Agree state room)
    (hp : ∀ room ∈ connects.map Prod.fst, state.expected room = h.peer.state.expected room)
    (han : ∀ room, h.peer.state.Answered (h.heard room) room → state.Answered (h.heard room) room) :
    Sane { h with peer := { h.peer with state := state, connects := connects } } where
  rooms := hr
  unused := fun room hu => by
    have hf := hsa.unused room hu
    exact hf.agree (hn room hf.tracked) (fun hm => hf.connects ((hs.map _).subset hm)) hf.receivers
  connects := hsa.connects.sublist (hs.map _)
  unconnected := fun room hm => (hp room hm).trans (hsa.unconnected room ((hs.map _).subset hm))
  single := hsa.single
  concluded := fun hre hc => han _ (hsa.concluded hre hc)

variable {addr : String}

theorem Sane.register (hsa : h.Sane) (hu : h.used room = false) :
    Sane { h with
      peer := h.peer.register rid room addr
      used := update h.used room true
      heard := update h.heard room [] } := by
  obtain ⟨htr, hep, hrs, hpe, hcn, hv⟩ := hsa.unused room hu
  have hag : ∀ room', room' ≠ room → h.peer.state.Agree (h.peer.register rid room addr).state room' := fun room' hne =>
    ⟨get_update_of_ne hne, update_of_ne hne .., rfl, rfl, rfl⟩
  have hh : ∀ {rid' receiver}, (h.peer.register rid room addr).receivers rid' = some receiver →
      rid' = rid ∧ receiver = { room := room, addr := addr } ∨
        rid' ≠ rid ∧ h.peer.receivers rid' = some receiver ∧ receiver.room ≠ room := by
    intro rid' receiver hre
    rcases update_cases hre with ⟨rfl, hu1⟩ | ⟨hd, hre⟩
    · rw [Option.some.injEq] at hu1
      exact .inl ⟨rfl, hu1.symm⟩
    · exact .inr ⟨hd, hre, hv rid' receiver hre⟩
  refine ⟨fun room' => ?_, fun room' hu' => ?_, ?_, fun room' hme => ?_, fun {rid₁ rid₂ r₁ r₂} h₁ h₂ hq => ?_,
    fun {rid' receiver} hre hc => ?_⟩
  · by_cases hr : room' = room
    · subst hr
      change RoomInv _ (update h.heard room' [] room') room'
      rw [update_self]
      refine ⟨⟨fun hg => ?_, fun rank hk => ?_, fun payload token hp => ?_, fun ht => ?_⟩, fun _ _ m hm => by
        simp at hm⟩
      · simp [DecodePeer.register] at hg
      · change rank ∈ h.peer.state.responses room' at hk
        simp [hrs] at hk
      · change h.peer.state.pending room' = _ at hp
        rw [hpe] at hp
        cases hp
      · have hn : h.peer.state.rooms.get room' = none := (hsa.rooms room').gone htr
        change get (h.peer.state.rooms.update room' .bootstrapping) room' = _ at ht
        rw [get_update_self, Option.some.injEq] at ht
        rcases advanced_eq_success ht with hs | hs
        · rw [hn] at hs
          cases hs
        · cases hs
    · change DecodeState.RoomInv _ (update h.heard room [] room') room'
      rw [update_of_ne hr]
      exact (hsa.rooms room').congr (hag room' hr)
  · have hr : room' ≠ room := by
      rintro rfl
      simp at hu'
    change update h.used room true room' = false at hu'
    rw [update_of_ne hr] at hu'
    have hf := hsa.unused room' hu'
    refine hf.agree (hag room' hr) ?_ fun rid' receiver hre => ?_
    · simp only [DecodePeer.register, map_append, map_cons, map_nil, mem_append, mem_singleton, not_or]
      exact ⟨hf.connects, hr⟩
    · rcases hh hre with ⟨_, rfl⟩ | ⟨_, hre', _⟩
      · exact hr.symm
      · exact hf.receivers rid' receiver hre'
  · simp only [DecodePeer.register, map_append, map_cons, map_nil]
    exact hsa.connects.append (nodup_singleton _) (by simpa using hcn)
  · simp only [DecodePeer.register, map_append, map_cons, map_nil, mem_append, mem_singleton] at hme
    rcases hme with hme | rfl
    · exact hsa.unconnected room' hme
    · exact hep
  · rcases hh h₁ with ⟨rfl, rfl⟩ | ⟨_, hr₁, hne₁⟩ <;> rcases hh h₂ with ⟨rfl, rfl⟩ | ⟨_, hr₂, hne₂⟩
    · rfl
    · exact absurd hq.symm hne₂
    · exact absurd hq hne₁
    · exact hsa.single hr₁ hr₂ hq
  · rcases hh hre with ⟨rfl, rfl⟩ | ⟨_, hre', hne⟩
    · cases hc
    · change DecodeState.Answered _ (update h.heard room [] receiver.room) receiver.room
      rw [update_of_ne hne]
      exact (hsa.concluded hre' hc).congr (hag receiver.room hne)

variable {rest : List (Nat × String)}

section

variable (hsa : h.Sane)
include hsa

theorem Sane.connected {ranks} (hc : h.peer.connects = (room, addr) :: rest) :
    Sane { h with peer := { h.peer with connects := rest, state := h.peer.state.attach room addr ranks } } := by
  have hd := hsa.connects
  rw [hc, map_cons, nodup_cons] at hd
  have hn : h.peer.state.expected room = none := hsa.unconnected room (by rw [hc]; exact mem_cons_self)
  refine hsa.setState (by rw [hc]; exact sublist_cons_self ..) (fun room' => (hsa.rooms room').attach hn addr ranks)
    (fun room' ht => attach_agree_untracked ht room addr ranks) (fun room' hm => ?_) fun room' han => ?_
  · exact (attach_agree (ne_of_mem_of_not_mem hm hd.1)).expected
  · refine han.congr (attach_agree ?_)
    rintro rfl
    obtain ⟨_, hs, _⟩ := han
    rw [hn] at hs
    cases hs

theorem Sane.connectFailed (reason) (hc : h.peer.connects = (room, addr) :: rest) :
    Sane { h with peer := { h.peer with connects := rest, state := h.peer.state.fail room reason } } :=
  hsa.setState (by rw [hc]; exact sublist_cons_self ..) (fun room' => (hsa.rooms room').fail_any room reason)
    (fun _ ht => fail_agree_untracked ht room reason)
    (fun _ _ => congrFun (fail_answers ..).1 _) fun _ hs => hs.of_eq (fail_answers ..)

theorem Sane.status (ms : StatusMessage) : Sane { h.setState (h.peer.state.apply ms) with
      heard := update h.heard ms.room (h.heard ms.room ++ [ms]) } := by
  have hh : ∀ room, ∃ more, update h.heard ms.room (h.heard ms.room ++ [ms]) room =
      h.heard room ++ more := by
    intro room
    by_cases hr : room = ms.room
    · subst hr
      exact ⟨[ms], update_self ..⟩
    · exact ⟨[], by rw [update_of_ne hr, append_nil]⟩
  refine ⟨fun room => ?_, fun room hu => ?_, hsa.connects, fun room hme => ?_, hsa.single,
    fun {rid receiver} hre hc => ?_⟩
  · change RoomInv _ (update h.heard ms.room _ room) room
    by_cases hr : room = ms.room
    · subst hr
      rw [update_self]
      exact (hsa.rooms ms.room).apply
    · rw [update_of_ne hr]
      exact (hsa.rooms room).congr (apply_agree hr)
  · have hf := hsa.unused room hu
    exact hf.agree (apply_agree_untracked hf.tracked ms) hf.connects hf.receivers
  · -- a room still to be connected expects nobody, so its messages only fail it
    have hn := hsa.unconnected room hme
    by_cases hr : room = ms.room
    · subst hr
      unfold apply
      dsimp only
      split
      · split
        · rw [hn]
          exact (congrFun (fail_answers ..).1 _).trans hn
        · exact (congrFun (fail_answers ..).1 _).trans hn
        · exact hn
      · exact hn
    · exact (apply_agree hr).expected.trans hn
  · obtain ⟨more, hm⟩ := hh receiver.room
    change Answered _ (update h.heard ms.room _ receiver.room) receiver.room
    rw [hm]
    exact ((hsa.concluded hre hc).apply ms).append more

theorem Sane.shared (hr : ∀ room, state.RoomInv (h.heard room) room)
    (hu : ∀ room, h.peer.state.tracked room = false → h.peer.state.Agree state room)
    (hs : state.expected = h.peer.state.expected ∧ state.responses = h.peer.state.responses) :
    (h.setState state).Sane :=
  hsa.setState (Sublist.refl _) hr hu (fun room _ => congrFun hs.1 room) fun _ hn =>
    hn.of_eq hs

theorem Sane.polled {peer} (hp : h.peer.Polled peer) : Sane { h with peer := peer } where
  rooms := fun room => (hsa.rooms room).congr (hp.state room)
  unused := fun room hu => by
    have hf := hsa.unused room hu
    refine hf.agree (hp.state room) ?_ fun rid receiver' hre' => ?_
    · rw [hp.connects]
      exact hf.connects
    · obtain ⟨receiver, hre, hr, _⟩ := hp.receivers rid receiver' hre'
      exact hr ▸ hf.receivers rid receiver hre
  connects := by
    rw [hp.connects]
    exact hsa.connects
  unconnected := fun room hm => by
    rw [hp.connects] at hm
    exact (hp.state room).expected.trans (hsa.unconnected room hm)
  single := fun {rid rid' receiver receiver'} h1 h2 hq => by
    obtain ⟨_, hr1, hro1, _⟩ := hp.receivers rid receiver h1
    obtain ⟨_, hr2, hro2, _⟩ := hp.receivers rid' receiver' h2
    exact hsa.single hr1 hr2 (hro1.trans (hq.trans hro2.symm))
  concluded := fun {rid receiver'} hre' hc => by
    obtain ⟨receiver, hre, hr, hn⟩ := hp.receivers rid receiver' hre'
    obtain ⟨found, hfo, hs⟩ := hsa.answered (hn hc)
    obtain rfl : receiver = found := Option.mem_unique hre hfo
    rw [← hr]
    exact hs.congr (hp.state receiver.room)

theorem Sane.forget (rid) : Sane { h with peer := h.peer.forget rid } := by
  unfold DecodePeer.forget
  split
  · exact hsa
  · next receiver hre =>
    have hr : ∀ {rid' receiver'}, update h.peer.receivers rid none rid' = some receiver' →
        rid' ≠ rid ∧ h.peer.receivers rid' = some receiver' ∧ receiver'.room ≠ receiver.room := by
      intro rid' receiver' hre'
      have hd : rid' ≠ rid := by
        rintro rfl
        simp at hre'
      rw [update_of_ne hd] at hre'
      exact ⟨hd, hre', fun hq => hd (hsa.single hre' hre hq)⟩
    have hg : ∀ room, room ≠ receiver.room →
        h.peer.state.Agree (h.peer.state.clear receiver.room receiver.addr) room := fun room hn =>
      clear_agree hn
    refine ⟨fun room => ?_, fun room hu => ?_, hsa.connects, fun room hme => ?_, fun h1 h2 hq => ?_, fun h1 hc => ?_⟩
    · exact ((hsa.rooms room).clear receiver.room receiver.addr).congr ⟨rfl, rfl, rfl, rfl, rfl⟩
    · have hf := hsa.unused room hu
      have ha := hg room (hf.receivers rid receiver hre).symm
      exact hf.agree { ha with } hf.connects fun rid' receiver' hre' =>
        hf.receivers rid' receiver' (hr hre').2.1
    · change update h.peer.state.expected receiver.room none room = none
      by_cases hm : room = receiver.room
      · rw [hm, update_self]
      · rw [update_of_ne hm]
        exact hsa.unconnected room hme
    · exact hsa.single (hr h1).2.1 (hr h2).2.1 hq
    · obtain ⟨_, hre', hn⟩ := hr h1
      exact ((hsa.concluded hre' hc).congr (hg _ hn)).congr ⟨rfl, rfl, rfl, rfl, rfl⟩

end

theorem Sane.forgetAll (ended : List Nat) : ∀ {h : DecodeRun}, h.Sane →
    Sane { h with peer := ended.foldl DecodePeer.forget h.peer } := by
  induction ended with
  | nil => exact id
  | cons rid ended ih => exact fun hsa => ih (hsa.forget rid)

/-! ## Steps -/

variable {ev : DecodeEvent} {out : List PdEvent}

theorem Sane.step (hsa : h.Sane) (hso : h.Sound ev) (hs : h.step ev = some (out, h')) : h'.Sane := by
  cases ev with
  | register rid room addr =>
    cases hs
    exact hsa.register hso
  | connected ranks =>
    simp only [step] at hs
    split at hs
    · cases hs
    · next hc =>
      cases hs
      exact hsa.connected hc
  | connectFailed reason =>
    simp only [step] at hs
    split at hs
    · cases hs
    · next hc =>
      cases hs
      exact hsa.connectFailed reason hc
  | status ms =>
    cases hs
    exact hsa.status ms
  | loseNode addr =>
    cases hs
    exact hsa.shared (fun room => (hsa.rooms room).loseNode addr)
      (fun _ ht => loseNode_agree_untracked ht addr) (loseNode_answers addr)
  | prune addr =>
    cases hs
    exact hsa.shared (fun room => (hsa.rooms room).congr ⟨rfl, rfl, rfl, rfl, rfl⟩)
      (fun _ _ => ⟨rfl, rfl, rfl, rfl, rfl⟩)
      ⟨rfl, rfl⟩
  | receive room i now =>
    cases hs
    refine hsa.shared (fun room' => (hsa.rooms room').receive room i now)
      (fun _ ht => receive_agree_untracked ht room i now) ?_
    unfold receive
    split <;> exact ⟨rfl, rfl⟩
  | poll now ots =>
    obtain ⟨⟨p1, ended, hp, rfl⟩, _⟩ := poll_step hs
    exact Sane.forgetAll ended (hsa.polled hp)

theorem sane_of_steps {wt} (hr : Relation.ReflTransGen Step (start wt) h) : h.Sane := by
  induction hr with
  | refl => exact sane_start wt
  | tail _ hs ih =>
    obtain ⟨ev, out, hso, hs⟩ := hs
    exact ih.step hso hs

theorem onward_step (hu : h.used room = true) (hso : h.Sound ev) (hp : h.step ev = some (out, h')) :
    h'.used room = true ∧ h.peer.state.Onward h'.peer.state room := by
  cases ev with
  | register rid room' addr =>
    have hn : room ≠ room' := by
      rintro rfl
      simp [Sound, hu] at hso
    cases hp
    exact ⟨(update_of_ne hn ..).trans hu, fun hs => (update_of_ne hn ..).trans hs, fun hs =>
      .inl ((get_update_of_ne hn).trans hs)⟩
  | connected ranks =>
    simp only [step] at hp
    split at hp
    · cases hp
    · cases hp
      exact ⟨hu, onward_attach ..⟩
  | connectFailed reason =>
    simp only [step] at hp
    split at hp
    · cases hp
    · cases hp
      exact ⟨hu, onward_fail ..⟩
  | status ms =>
    cases hp
    exact ⟨hu, onward_apply ms⟩
  | loseNode addr =>
    cases hp
    exact ⟨hu, onward_loseNode addr⟩
  | prune addr =>
    cases hp
    exact ⟨hu, DecodeState.Onward.refl.after rfl rfl⟩
  | receive room' i now =>
    cases hp
    exact ⟨hu, onward_receive ..⟩
  | poll now ots =>
    obtain ⟨⟨p1, ended, hpo, rfl⟩, _⟩ := poll_step hp
    refine ⟨hu, (hpo.state room).onward.trans ?_⟩
    have hl : ∀ (ended : List Nat) (p : DecodePeer), p.state.Onward (ended.foldl DecodePeer.forget p).state room := by
      intro ended
      induction ended with
      | nil => exact fun p => .refl
      | cons rid ended ih =>
        intro p
        refine DecodeState.Onward.trans ?_ (ih _)
        unfold DecodePeer.forget
        split
        · exact .refl
        · next receiver _ =>
          have hc : p.state.Onward (p.state.clear receiver.room receiver.addr) room := onward_clear ..
          exact { hc with }
    exact hl ended p1

theorem onward_steps (hu : h.used room = true) (hr : Relation.ReflTransGen Step h h') :
    h'.used room = true ∧ h.peer.state.Onward h'.peer.state room := by
  induction hr with
  | refl => exact ⟨hu, .refl⟩
  | tail _ hs ih =>
    obtain ⟨ev, out, hso, hs⟩ := hs
    obtain ⟨hu', hw⟩ := onward_step ih.1 hso hs
    exact ⟨hu', ih.2.trans hw⟩

end DecodeRun

end TokenSpeed.Transfer

import TokenSpeed.Transfer.Copies
import TokenSpeed.Transfer.Lemmas.DecodeRun

/-!
# Copies and released requests

A Prefill rank that has sent a terminal status for a room never writes to it again, so a request that ends
once all ranks of its route have answered leaves no copy behind.
-/

namespace TokenSpeed.Transfer

open DecodeState Function List

/-! ## One room on one Prefill rank -/

namespace RoomWork

structure Sound (w : RoomWork) : Prop where
  writing : w.writing = true → w.current.isSome
  front : ∀ chunk ∈ w.queue.dropLast, chunk.isLast = false
  opened : w.closed = false → ∀ chunk ∈ w.queue, chunk.isLast = false
  current : ∀ chunk ∈ w.current, chunk.isLast = true → w.closed = true ∧ w.queue = []

def Idle (w : RoomWork) : Prop := w.destination = false ∧ w.queue = [] ∧ w.current = none

/-- A worker holds no chunk of the room and takes none for it unless it is pre-allocated again. -/
def Spent (w : RoomWork) : Prop := w.current = none ∧ (w.destination = false ∨ w.closed = true ∧ w.queue = [])

def Orderly (w : RoomWork) : WorkEvent → Prop
  | .preallocation .. => False
  | .enqueue _ => w.closed = false
  | .abort | .expire => w.current = none
  | _ => True

structure Works (w w' : RoomWork) (sent : Sent) : Prop where
  sound : w'.Sound
  spent : w.Spent → w'.Spent
  sent : sent ≠ [] → w'.Spent

variable {w w' : RoomWork} {sent : Sent} {chunk : Chunk} {rest : List Chunk} {event : WorkEvent}

/-- The flags change, the chunks do not. -/
theorem Works.of_flags (hw : w.Sound) (hqueue : w'.queue = w.queue) (hclosed : w'.closed = w.closed)
    (hcurrent : w'.current = w.current) (hwriting : w'.writing = w.writing)
    (hd : w'.destination = w.destination ∨ w'.destination = false) (hsent : sent ≠ [] → w'.Spent) :
    Works w w' sent where
  sound := by
    refine ⟨?_, hqueue ▸ hw.front, ?_, ?_⟩
    · rw [hwriting, hcurrent]
      exact hw.writing
    · rw [hclosed, hqueue]
      exact hw.opened
    · rw [hclosed, hqueue, hcurrent]
      exact hw.current
  spent := fun hs => by
    refine ⟨hcurrent.trans hs.1, ?_⟩
    rw [hclosed, hqueue]
    rcases hd with hd | hd
    · rw [hd]
      exact hs.2
    · exact .inl hd
  sent := hsent

/-- The worker lets go of its chunk. -/
theorem Works.of_release (hw : w.Sound) (hq : w'.queue = w.queue) (hc : w'.closed = w.closed) (hn : w'.current = none)
    (hr : w'.writing = false) (hb : w.current ≠ none)
    (hs : sent ≠ [] → w'.destination = false ∨ w'.closed = true ∧ w'.queue = []) : Works w w' sent where
  sound := ⟨by simp [hr], hq ▸ hw.front, hc ▸ hq ▸ hw.opened, by simp [hn]⟩
  spent := fun hsp => absurd hsp.1 hb
  sent := fun hne => ⟨hn, hs hne⟩

theorem enqueue_works (hw : w.Sound) (hd : w.destination = true) (ho : w.closed = false) :
    Works w { w with queue := w.queue ++ [chunk], closed := w.closed || chunk.isLast } [] := by
  have hop := hw.opened ho
  refine ⟨⟨hw.writing, by simpa using hop, fun hcl => ?_, fun c hc hl => ?_⟩, fun hs => ?_, by simp⟩
  · simp only [Bool.or_eq_false_iff] at hcl
    exact forall_mem_append.mpr ⟨hop, forall_mem_singleton.mpr hcl.2⟩
  · have hcl := (hw.current c hc hl).1
    rw [ho] at hcl
    cases hcl
  · rcases hs.2 with hn | ⟨hc, -⟩
    · rw [hd] at hn; cases hn
    · rw [ho] at hc; cases hc

/-- Only the end of a queue holds a last chunk. -/
theorem Sound.of_cons (hw : w.Sound) (hq : w.queue = chunk :: rest) :
    (∀ c ∈ rest.dropLast, c.isLast = false) ∧ (w.closed = false → ∀ c ∈ rest, c.isLast = false) ∧
      (chunk.isLast = true → w.closed = true ∧ rest = []) := by
  refine ⟨fun c hc => hw.front c ?_, fun hcl c hc => hw.opened hcl c (hq ▸ mem_cons_of_mem _ hc), fun hl => ⟨?_, ?_⟩⟩
  · rw [hq]
    cases rest with
    | nil => cases hc
    | cons => exact mem_cons_of_mem _ hc
  · cases hcl : w.closed with
    | true => rfl
    | false => rw [hw.opened hcl chunk (by simp [hq])] at hl; cases hl
  · cases rest with
    | nil => rfl
    | cons => rw [hw.front chunk (by simp [hq])] at hl; cases hl

theorem take_works (hw : w.Sound) (hs : w.step .take = some (sent, w')) : Works w w' sent := by
  simp only [step] at hs
  split at hs
  · next chunk rest hc hq =>
    obtain ⟨hf, ho, hl⟩ := hw.of_cons hq
    split_ifs at hs with hd he
    · cases hs
      refine ⟨⟨by simp, hf, ho, fun c hm => ?_⟩, fun hsp => ?_, by simp⟩
      · cases hm
        exact hl
      · rcases hsp.2 with hn | ⟨-, hn⟩
        · rw [hd] at hn; cases hn
        · rw [hq] at hn; cases hn
    · cases hs
      exact ⟨⟨hw.writing, hf, ho, by simp [hc]⟩, fun _ => ⟨hc, .inl (by simpa using hd)⟩, by simp⟩
    · cases hs
      exact ⟨⟨hw.writing, hf, ho, by simp [hc]⟩, fun _ => ⟨hc, .inl rfl⟩, by simp [hd]⟩
  · cases hs

theorem abortRoom_works (hw : w.Sound) (hc : w.current = none) : Works w w.abortRoom.2 w.abortRoom.1 :=
  .of_flags hw rfl rfl rfl rfl (.inr rfl) fun _ => ⟨hc, .inl rfl⟩

/-- What any event but a pre-allocation does to a room. -/
theorem step_works (hw : w.Sound) (hor : w.Orderly event) (hs : w.step event = some (sent, w')) : Works w w' sent := by
  cases event with
  | register => cases hs; exact .of_flags hw rfl rfl rfl rfl (.inl rfl) (by simp)
  | preallocation => cases hor
  | enqueue chunk =>
    simp only [step] at hs
    split_ifs at hs with hn
    · cases hs
      exact ⟨hw, id, by simp⟩
    · cases hs
      simp only [Bool.or_eq_true, not_or, Bool.not_eq_true, Bool.not_eq_false'] at hn
      exact enqueue_works hw hn.2 hor
  | take => exact take_works hw hs
  | issue =>
    simp only [step] at hs
    split at hs
    · next hc =>
      split_ifs at hs
      cases hs
      exact ⟨{ hw with writing := by simp [hc] }, id, by simp⟩
    · cases hs
  | complete =>
    simp only [step] at hs
    split at hs
    · next chunk hc =>
      split_ifs at hs
      cases hs
      refine ⟨⟨by simp, hw.front, hw.opened, fun c hm hl => ?_⟩, fun hsp => ?_, by simp⟩
      · cases hm
        exact hw.current chunk hc hl
      · rw [hsp.1] at hc; cases hc
    · cases hs
  | sent =>
    simp only [step] at hs
    split at hs
    · next hc =>
      split_ifs at hs with hd
      cases hs
      simp only [Bool.and_eq_true, Bool.not_eq_true', decide_eq_true_eq] at hd
      exact .of_release hw rfl rfl rfl hd.1.1 (by simp [hc]) (by simp)
    · cases hs
  | report token =>
    simp only [step] at hs
    split at hs
    · next chunk hc =>
      split_ifs at hs with hd <;> cases hs <;>
        simp only [Bool.and_eq_true, Bool.not_eq_true', decide_eq_true_eq] at hd
      · exact .of_release hw rfl rfl rfl hd.1.1 (by simp [hc]) (by simp)
      · exact .of_release hw rfl rfl rfl hd.1.1 (by simp [hc]) fun _ => .inr (hw.current chunk hc hd.2)
    · cases hs
  | reported =>
    simp only [step] at hs
    split_ifs at hs
    cases hs
    exact .of_flags hw rfl rfl rfl rfl (.inr rfl) (by simp)
  | giveUp =>
    simp only [step] at hs
    split at hs
    · next hc =>
      split_ifs at hs with hwr <;> cases hs
      · exact .of_release hw rfl rfl rfl (by simpa using hwr) (by simp [hc]) (by simp)
      · exact .of_release hw rfl rfl rfl (by simpa using hwr) (by simp [hc]) fun _ => .inl rfl
    · cases hs
  | abort => cases hs; exact abortRoom_works hw hor
  | drop => cases hs; exact .of_flags hw rfl rfl rfl rfl (.inr rfl) (by simp)
  | expire => cases hs; exact .of_flags hw rfl rfl rfl rfl (.inr rfl) fun _ => ⟨hor, .inl rfl⟩

/-- A room without a destination stays so, and says nothing, until it is pre-allocated. -/
theorem step_idle (hi : w.Idle) (hv : ∀ valid complete, event ≠ .preallocation valid complete)
    (hs : w.step event = some (sent, w')) : w'.Idle ∧ sent = [] := by
  obtain ⟨hd, hq, hc⟩ := hi
  cases event with
  | preallocation valid complete => exact absurd rfl (hv valid complete)
  | enqueue chunk =>
    simp only [step, hd, Bool.not_false, Bool.or_true, if_true] at hs
    cases hs
    exact ⟨⟨hd, hq, hc⟩, rfl⟩
  | take => simp [step, hc, hq] at hs
  | issue | complete | sent | report | giveUp => simp [step, hc] at hs
  | reported =>
    simp only [step] at hs
    split_ifs at hs
    cases hs
    exact ⟨⟨rfl, hq, hc⟩, rfl⟩
  | register | drop => cases hs; exact ⟨⟨by first | exact hd | rfl, hq, hc⟩, rfl⟩
  | abort | expire =>
    cases hs
    exact ⟨⟨rfl, hq, hc⟩, by simp [hd]⟩

/-- A pre-allocation of an idle room is accepted, or answered with the room left idle. -/
theorem preallocation_works {valid complete : Bool} (hw : w.Sound) (hi : w.Idle)
    (hs : w.step (.preallocation valid complete) = some (sent, w')) : w'.Sound ∧ (sent ≠ [] → w'.Spent) := by
  obtain ⟨hd, hq, hc⟩ := hi
  simp only [step] at hs
  split_ifs at hs <;> cases hs
  · exact ⟨hw, fun _ => ⟨hc, .inl hd⟩⟩
  · exact ⟨⟨hw.writing, hw.front, hw.opened, hw.current⟩, by simp⟩
  · exact ⟨⟨hw.writing, hw.front, hw.opened, hw.current⟩, fun _ => ⟨hc, .inl rfl⟩⟩

end RoomWork

/-! ## The Decode rank -/

theorem DecodeState.apply_expected (s : DecodeState) (ms) : (s.apply ms).expected = s.expected := by
  unfold apply
  dsimp only
  split
  · split
    · split
      · exact (fail_answers ..).1
      · split
        · exact complete_answers.1
        · exact (fail_answers ..).1
    · exact (fail_answers ..).1
    · rfl
  · rfl

namespace DecodePeer

variable {p p' : DecodePeer} {rid room : Nat}

def roomOf (p : DecodePeer) (rid : Nat) : Option Nat := (p.receivers rid).map (·.room)

theorem roomOf_setReceiver {rc rc' : Receiver} (hc : p.receivers rid = some rc)
    (hp : p'.receivers = update p.receivers rid (some rc')) (hr : rc'.room = rc.room) : p'.roomOf = p.roomOf := by
  funext rid'
  unfold roomOf
  rw [hp]
  by_cases hd : rid' = rid
  · subst hd
    simp [hc, hr]
  · rw [update_of_ne hd]

theorem pollOne_roomOf (now) : (pollOne now p rid).2.roomOf = p.roomOf := by
  unfold pollOne
  split
  · rfl
  · next rc hr =>
    split
    · rfl
    · exact roomOf_setReceiver hr rfl rfl

theorem polls_roomOf (now) : ∀ rest p, (polls now p rest).2.roomOf = p.roomOf
  | [], _ => rfl
  | _ :: rest, _ => (polls_roomOf now rest _).trans (pollOne_roomOf now)

theorem conclude_ends {ag evs es} (h : conclude p rid ag = .ok (evs, es, p')) :
    p'.roomOf = p.roomOf ∧ ∀ ev ∈ evs, ∀ rid' ∈ ev.ends, rid' = rid ∧ es = true := by
  unfold conclude at h
  split at h
  · cases h
    exact ⟨rfl, by simp⟩
  · next rc hr =>
    dsimp only at h
    split_ifs at h
    · cases h
      exact ⟨roomOf_setReceiver hr rfl rfl, by simp [PdEvent.ends]⟩
    · cases h
      exact ⟨rfl, by simp [PdEvent.ends]⟩
    · cases ht : p.takeLanded rid rc with
      | error e =>
        rw [ht] at h
        cases h
      | ok tk =>
        rw [ht] at h
        cases h
        unfold takeLanded at ht
        dsimp only at ht
        split at ht
        · cases ht
        · cases ht
        · cases ht
          exact ⟨roomOf_setReceiver hr rfl rfl, by simp [PdEvent.ends]⟩
    · cases h
      exact ⟨rfl, by simp⟩

theorem concludeAll_ends : ∀ (prs : List (Nat × Nat)) {p p' : DecodePeer} {evs ended},
    concludeAll p prs = .ok (evs, ended, p') →
      p'.roomOf = p.roomOf ∧ ∀ ev ∈ evs, ∀ rid ∈ ev.ends, rid ∈ ended := by
  intro prs
  induction prs with
  | nil =>
    intro p p' evs ended h
    cases h
    exact ⟨rfl, by simp⟩
  | cons pr prs ih =>
    intro p p' evs ended h
    obtain ⟨e1, es, p1, mr, ended', hf, hr, rfl, rfl⟩ := concludeAll_cons h
    obtain ⟨hro, hn⟩ := conclude_ends hf
    obtain ⟨hro', hn'⟩ := ih hr
    refine ⟨hro'.trans hro, fun ev hv rid' hd => ?_⟩
    rcases mem_append.mp hv with hv | hv
    · obtain ⟨rfl, rfl⟩ := hn ev hv rid' hd
      simp
    · exact mem_append_right _ (hn' ev hv rid' hd)

/-! ### Failed requests -/

theorem observe_goesOn {receiver : Receiver} {now} (hc : receiver.concluded = none) (h : p.goesOn receiver now = true) :
    (p.observe receiver now).1 ≠ .failed ∧ (p.observe receiver now).2 ≠ some .failed := by
  unfold goesOn at h
  unfold observe
  rw [hc] at h
  cases hg : p.state.rooms.get receiver.room with
  | none => simp [hg] at h
  | some status =>
    cases status with
    | failed => simp [hg] at h
    | waitingForInput =>
      cases hw : p.state.waitingSince receiver.room with
      | none => simp
      | some since =>
        have hn : ¬ p.waitingTimeout ≤ now - since := by simpa [hg, hw] using h
        simp [hn]
    | bootstrapping | bootstrapped | transferring | success => simp

/-- A receiver that nothing fails. -/
def GoesOn (p : DecodePeer) (rid now : Nat) : Prop := ∃ receiver ∈ p.receivers rid, p.goesOn receiver now = true

theorem goesOn_pollOne {receiver : Receiver} {now rid'} :
    (pollOne now p rid').2.goesOn receiver now = p.goesOn receiver now := by
  have hk : (pollOne now p rid').2.state.rooms.states = p.state.rooms.states ∧
      (pollOne now p rid').2.state.waitingSince = p.state.waitingSince ∧
        (pollOne now p rid').2.waitingTimeout = p.waitingTimeout := by
    unfold pollOne
    split
    · exact ⟨rfl, rfl, rfl⟩
    · split
      · exact ⟨rfl, rfl, rfl⟩
      · refine ⟨?_, rfl, rfl⟩
        dsimp only
        split <;> rfl
  unfold goesOn RoomTable.get
  rw [hk.1, hk.2.1, hk.2.2]

theorem pollOne_goesOn {now rid'} (h : p.GoesOn rid now) : (pollOne now p rid').2.GoesOn rid now := by
  obtain ⟨receiver, hr, hg⟩ := h
  unfold GoesOn
  simp only [goesOn_pollOne]
  unfold pollOne
  split
  · exact ⟨receiver, hr, hg⟩
  · next receiver' hr' =>
    split
    · exact ⟨receiver, hr, hg⟩
    · next hc =>
      by_cases he : rid = rid'
      · subst he
        obtain rfl : receiver' = receiver := by simpa [hr'] using hr
        refine ⟨_, update_self .., ?_⟩
        obtain ⟨-, ho⟩ := observe_goesOn hc hg
        cases hf : (p.observe receiver' now).2 with
        | none => simpa [goesOn, hc] using hg
        | some poll =>
          have hn : poll ≠ .failed := fun hp => ho (hp ▸ hf)
          simp [goesOn, hn]
      · exact ⟨receiver, (update_of_ne he ..).trans hr, hg⟩

theorem pollOne_answer {now} (h : p.GoesOn rid now) : (pollOne now p rid).1 ≠ .failed := by
  obtain ⟨receiver, hr, hg⟩ := h
  rw [Option.mem_def] at hr
  cases hc : receiver.concluded with
  | none => simpa [pollOne, hr, hc] using (observe_goesOn hc hg).1
  | some poll => simpa [pollOne, goesOn, hr, hc] using hg

/-- The agreed code of a receiver that nothing fails is no failure, unless another member's is. -/
theorem polls_goesOn {now agreed : Nat} : ∀ (rids others : List Nat) (p : DecodePeer), p.GoesOn rid now →
    (rid, TransferPoll.failed.toWire) ∉ rids.zip others →
      (rid, agreed) ∈ rids.zip (zipWith min ((polls now p rids).1.map (·.toWire)) others) →
        (TransferPoll.fromWire agreed).getD .failed ≠ .failed
  | [], _, _, _, _, hm => by simp at hm
  | _ :: _, [], _, _, _, hm => by simp at hm
  | rid' :: rids, other :: others, p, hg, hn, hm => by
    simp only [polls, map_cons, zipWith_cons_cons, zip_cons_cons, mem_cons, not_or] at hm hn
    rcases hm with hm | hm
    · cases hm
      have ho : other ≠ 0 := fun ho => hn.1 (by rw [ho]; rfl)
      exact TransferPoll.fromWire_min (pollOne_answer hg) ho
    · exact polls_goesOn rids others _ (pollOne_goesOn hg) hn.2 hm

theorem conclude_failed {agreed events ends} (h : conclude p rid agreed = .ok (events, ends, p')) {rid'}
    (hf : .failed rid' ∈ events) : rid' = rid ∧ (TransferPoll.fromWire agreed).getD .failed = .failed := by
  unfold conclude at h
  split at h
  · cases h
    cases hf
  · next receiver _ =>
    dsimp only at h
    split_ifs at h with h₁ h₂
    · cases h
      simp at hf
    · cases h
      exact ⟨by simpa using hf, h₂⟩
    · cases ht : p.takeLanded rid receiver with
      | error e =>
        rw [ht] at h
        cases h
      | ok taken =>
        rw [ht] at h
        cases h
        unfold takeLanded at ht
        dsimp only at ht
        split at ht
        · cases ht
        · cases ht
        · cases ht
          simp at hf
    · cases h
      cases hf

theorem concludeAll_failed : ∀ (pairs : List (Nat × Nat)) {p p' : DecodePeer} {events ended},
    concludeAll p pairs = .ok (events, ended, p') → .failed rid ∈ events →
      ∃ agreed, (rid, agreed) ∈ pairs ∧ (TransferPoll.fromWire agreed).getD .failed = .failed := by
  intro pairs
  induction pairs with
  | nil =>
    intro p p' events ended h hf
    cases h
    cases hf
  | cons pair pairs ih =>
    intro p p' events ended h hf
    obtain ⟨_, _, _, _, _, hn, hr, rfl, _⟩ := concludeAll_cons h
    rcases mem_append.mp hf with hf | hf
    · obtain ⟨rfl, ha⟩ := conclude_failed hn hf
      exact ⟨_, mem_cons_self, ha⟩
    · obtain ⟨agreed, hm, ha⟩ := ih hr hf
      exact ⟨agreed, mem_cons_of_mem _ hm, ha⟩

/-- A poll fails a receiver only where this member or another one finds it failed. -/
theorem poll_failed {now others events} (h : p.poll now others = .ok (events, p')) (hf : .failed rid ∈ events) :
    rid ∈ p.order ∧ (p.GoesOn rid now → (rid, TransferPoll.failed.toWire) ∈ p.order.zip others) := by
  obtain ⟨ended, p1, hl, -⟩ := poll_concludes h
  obtain ⟨agreed, hm, ha⟩ := concludeAll_failed _ hl hf
  refine ⟨(of_mem_zip hm).1, fun hg => ?_⟩
  by_contra hn
  exact polls_goesOn _ _ p hg hn hm ha

/-! ### Forgotten requests -/

theorem forget_untracked (h : p.state.tracked room = false) (rid) : (p.forget rid).state.tracked room = false := by
  unfold forget
  split
  · exact h
  · next rc _ => exact (onward_clear rc.room rc.addr).untracked h

theorem forget_expected {ranks} (h : (p.forget rid).state.expected room = some ranks) :
    p.state.expected room = some ranks := by
  unfold forget at h
  split at h
  · exact h
  · next rc _ =>
    change update p.state.expected rc.room none room = some ranks at h
    by_cases hr : room = rc.room
    · simp [hr] at h
    · rwa [update_of_ne hr] at h

theorem forgetAll_untracked : ∀ (ended : List Nat) {p : DecodePeer}, p.state.tracked room = false →
    (ended.foldl forget p).state.tracked room = false
  | [], _, h => h
  | rid :: ended, _, h => forgetAll_untracked ended (forget_untracked h rid)

theorem forgetAll_expected {ranks} : ∀ (ended : List Nat) {p : DecodePeer},
    (ended.foldl forget p).state.expected room = some ranks → p.state.expected room = some ranks
  | [], _, h => h
  | _ :: ended, _, h => forget_expected (forgetAll_expected ended h)

theorem forgetAll_ended (ended : List Nat) : ∀ {p : DecodePeer}, rid ∈ ended → p.roomOf rid = some room →
    (ended.foldl forget p).state.tracked room = false := by
  induction ended with
  | nil =>
    intro p hm
    cases hm
  | cons first ended ih =>
    intro p hm hr
    obtain ⟨rc, hc, rfl⟩ := Option.map_eq_some_iff.mp hr
    by_cases hd : rid = first
    · subst hd
      refine forgetAll_untracked ended ?_
      simp [forget, hc, clear]
    · refine ih ((mem_cons.mp hm).resolve_left hd) ?_
      have hk : (p.forget first).receivers rid = p.receivers rid := by
        unfold forget
        split
        · rfl
        · exact update_of_ne hd ..
      simp [roomOf, hk, hc]

theorem poll_ends {now ots evs} (h : p.poll now ots = .ok (evs, p')) {ev : PdEvent} (hv : ev ∈ evs)
    (hn : ev.ends = some rid) (hr : p.roomOf rid = some room) : p'.state.tracked room = false := by
  obtain ⟨ended, p1, hl, rfl⟩ := poll_concludes h
  obtain ⟨hro, hd⟩ := concludeAll_ends _ hl
  refine forgetAll_ended ended (hd ev hv rid hn) ?_
  rw [hro, polls_roomOf, hr]

end DecodePeer

namespace DecodeRun

variable {h h' : DecodeRun} {ev : DecodeEvent} {out : List PdEvent}

theorem step_expected (hs : h.step ev = some (out, h')) {room ranks} (hp : h'.peer.state.expected room = some ranks) :
    h.peer.state.expected room = some ranks ∨ ev = .connected ranks ∧
      h.peer.connects.head?.map Prod.fst = some room := by
  cases ev with
  | register => cases hs; exact .inl hp
  | connected ranks' =>
    simp only [step] at hs
    split at hs
    · cases hs
    · next room' ad rt hc =>
      cases hs
      unfold DecodeState.attach at hp
      split at hp
      · rcases update_cases hp with ⟨rfl, hu⟩ | ⟨-, hp⟩
        · rw [Option.some.injEq] at hu
          exact .inr ⟨by rw [hu], by simp [hc]⟩
        · exact .inl hp
      · exact .inl hp
  | connectFailed reason =>
    simp only [step] at hs
    split at hs
    · cases hs
    · cases hs
      exact .inl (((congrFun (fail_answers ..).1 _).symm.trans hp))
  | status ms =>
    cases hs
    exact .inl ((congrFun (apply_expected ..) _).symm.trans hp)
  | loseNode ad =>
    cases hs
    exact .inl ((congrFun (loseNode_answers ad).1 _).symm.trans hp)
  | prune => cases hs; exact .inl hp
  | receive room' i now =>
    cases hs
    refine .inl ?_
    simp only [setState, DecodeState.receive] at hp
    split at hp <;> exact hp
  | poll now ots =>
    obtain ⟨⟨p1, ended, hl, rfl⟩, _⟩ := poll_step hs
    exact .inl ((hl.state room).expected.symm.trans (DecodePeer.forgetAll_expected ended hp))

theorem step_heard (hs : h.step ev = some (out, h')) {room} {m : StatusMessage} (hm : m ∈ h'.heard room) :
    m ∈ h.heard room ∨ ev = .status m ∧ m.room = room := by
  cases ev with
  | register rid room' ad =>
    cases hs
    change m ∈ update h.heard room' [] room at hm
    by_cases hr : room = room'
    · simp [hr] at hm
    · rw [update_of_ne hr] at hm
      exact .inl hm
  | connected | connectFailed | poll =>
    simp only [step] at hs
    split at hs <;> cases hs
    exact .inl hm
  | status ms =>
    cases hs
    rcases mem_update_cases hm with ⟨rfl, hu⟩ | ⟨-, hm⟩
    · rcases mem_append.mp hu with hu | hu
      · exact .inl hu
      · rw [mem_singleton.mp hu]
        exact .inr ⟨rfl, rfl⟩
    · exact .inl hm
  | loseNode | prune | receive => cases hs; exact .inl hm

end DecodeRun

end TokenSpeed.Transfer

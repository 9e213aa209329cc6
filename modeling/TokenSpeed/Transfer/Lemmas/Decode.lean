import TokenSpeed.Transfer.Decode

/-!
# What a Decode room has heard

`RoomInv` ties a Decode room to the messages handled since it was registered: its responses were sent, its
first token came with one of them, and it is at success only once every expected rank has answered.
-/

namespace TokenSpeed.Transfer

open Function RoomTable Finset List

def StatusMessage.Completes (message : StatusMessage) (rank : Int) : Prop :=
  message.status = .success ∧ message.prefillRank = rank

namespace DecodeState

/-! ## One room -/

def TokenHeard (heard : List StatusMessage) (ranks : Finset Int) : Prop :=
  ∃ m ∈ heard, m.status = .success ∧ m.prefillRank ∈ ranks ∧ 0 ≤ m.bootstrapToken

variable {ranks : Finset Int}

theorem TokenHeard.append {heard} (h : TokenHeard heard ranks) (mr) : TokenHeard (heard ++ mr) ranks := by
  obtain ⟨m, hm, hr⟩ := h
  exact ⟨m, mem_append_left _ hm, hr⟩

def Answered (s : DecodeState) (heard : List StatusMessage) (room : Nat) : Prop :=
  ∃ ranks, s.expected room = some ranks ∧ s.responses room = ranks ∧ TokenHeard heard ranks

structure RoomBase (s : DecodeState) (heard : List StatusMessage) (room : Nat) : Prop where
  gone : s.tracked room = false → s.rooms.get room = none
  answered : ∀ rank ∈ s.responses room, ∃ ranks, s.expected room = some ranks ∧ rank ∈ ranks ∧
    ∃ m ∈ heard, m.Completes rank
  collected : ∀ payload token, s.pending room = some payload → payload.bootstrapToken = some token →
    ∃ ranks, s.expected room = some ranks ∧ TokenHeard heard ranks
  landed : s.rooms.get room = some .success → s.Answered heard room

def Counted (s : DecodeState) (heard : List StatusMessage) (room : Nat) : Prop :=
  s.tracked room = true → s.rooms.get room ≠ some .failed → ∀ m ∈ heard, m.status = .success →
    m.prefillRank ∈ s.responses room ∧ firstToken m.bootstrapToken ≠ none

structure RoomInv (s : DecodeState) (heard : List StatusMessage) (room : Nat) : Prop extends
    RoomBase s heard room where
  counted : s.Counted heard room

structure Agree (s s' : DecodeState) (room : Nat) : Prop where
  rooms : s'.rooms.get room = s.rooms.get room
  tracked : s'.tracked room = s.tracked room
  expected : s'.expected room = s.expected room
  responses : s'.responses room = s.responses room
  pending : s'.pending room = s.pending room

variable {s s' : DecodeState} {heard : List StatusMessage} {room room' : Nat}

theorem Agree.refl : Agree s s room := ⟨rfl, rfl, rfl, rfl, rfl⟩

variable {s'' : DecodeState}

/-- Losing a node fails some of its rooms, and does no more. -/
theorem loseNode_keeps {P : DecodeState → Prop} {addr} (hs : P { s with addrRooms := update s.addrRooms addr [] })
    (hf : ∀ s first reason, P s → P (s.fail first reason)) : P (s.loseNode addr) := by
  refine foldlRecOn _ _ hs fun s hs first _ => ?_
  unfold loseRoom
  split
  · exact hs
  · exact hf s first _ hs

theorem Agree.trans (h : Agree s s' room) (h' : Agree s' s'' room) : Agree s s'' room :=
  ⟨h'.rooms.trans h.rooms, h'.tracked.trans h.tracked, h'.expected.trans h.expected, h'.responses.trans h.responses,
    h'.pending.trans h.pending⟩

theorem Answered.congr (h : s.Answered heard room) (hr : Agree s s' room) : s'.Answered heard room := by
  obtain ⟨ranks, hp, hs, ht⟩ := h
  exact ⟨ranks, hr.expected.trans hp, hr.responses.trans hs, ht⟩

theorem RoomBase.congr (h : s.RoomBase heard room) (hr : Agree s s' room) : s'.RoomBase heard room where
  gone := by
    rw [hr.tracked, hr.rooms]
    exact h.gone
  answered := by
    rw [hr.responses, hr.expected]
    exact h.answered
  collected := by
    rw [hr.pending, hr.expected]
    exact h.collected
  landed := by
    rw [hr.rooms]
    exact fun hg => (h.landed hg).congr hr

theorem RoomInv.congr (h : s.RoomInv heard room) (hr : Agree s s' room) : s'.RoomInv heard room where
  toRoomBase := h.toRoomBase.congr hr
  counted := by
    unfold Counted
    rw [hr.tracked, hr.rooms, hr.responses]
    exact h.counted

theorem RoomBase.append (h : s.RoomBase heard room) (mr) :
    s.RoomBase (heard ++ mr) room where
  gone := h.gone
  answered := fun rn hr => by
    obtain ⟨ranks, hp, hme, m, hm, hc⟩ := h.answered rn hr
    exact ⟨ranks, hp, hme, m, mem_append_left _ hm, hc⟩
  collected := fun payload token hn ht => by
    obtain ⟨ranks, hp, hh⟩ := h.collected payload token hn ht
    exact ⟨ranks, hp, hh.append mr⟩
  landed := fun hg => by
    obtain ⟨ranks, hp, hs, hh⟩ := h.landed hg
    exact ⟨ranks, hp, hs, hh.append mr⟩

/-! ## Steps of one room -/

variable {st : TransferPoll}

theorem RoomBase.advance (h : s.RoomBase heard room) (hr : s.tracked room = true)
    (hs : st ≠ .success) : RoomBase { s with rooms := s.rooms.update room st } heard room where
  gone := fun hg => by simp_all
  answered := h.answered
  collected := h.collected
  landed := fun ht => by
    rw [get_update_self, Option.some.injEq] at ht
    exact h.landed ((advanced_eq_success ht).resolve_right hs)

theorem RoomInv.advance (h : s.RoomInv heard room) (hr : s.tracked room = true)
    (hs : st ≠ .success) : RoomInv { s with rooms := s.rooms.update room st } heard room where
  toRoomBase := h.toRoomBase.advance hr hs
  counted := fun ht hg => h.counted ht fun hf => hg (by
    rw [get_update_self, advanced_of_failed hf])

variable {reason : String}

theorem fail_tracked (h : s.tracked room = true) :
    s.fail room reason = { s with rooms := (s.rooms.recordFailure room reason).update room .failed } := by
  rw [fail, if_pos h]

theorem fail_agree (h : room' ≠ room) : Agree s (s.fail room reason) room' := by
  unfold fail
  split
  · exact ⟨get_update_of_ne h, rfl, rfl, rfl, rfl⟩
  · exact .refl

theorem RoomBase.fail (h : s.RoomBase heard room) (ht : s.tracked room = true) (reason) :
    (s.fail room reason).RoomInv heard room := by
  rw [fail_tracked ht]
  have hb : RoomBase { s with rooms := s.rooms.recordFailure room reason } heard room :=
    h.congr ⟨rfl, rfl, rfl, rfl, rfl⟩
  refine ⟨hb.advance ht (by decide), fun _ hg => absurd ?_ hg⟩
  rw [get_update_self, advanced_failed]

theorem RoomInv.fail (h : s.RoomInv heard room) (reason) : (s.fail room reason).RoomInv heard room := by
  cases ht : s.tracked room with
  | true => exact h.toRoomBase.fail ht reason
  | false =>
    rw [DecodeState.fail, if_neg (by simp [ht])]
    exact h

/-! ## Completions -/

variable {value : Int}

theorem firstToken_nonneg {token} (h : firstToken value = some (some token)) : 0 ≤ value := by
  unfold firstToken at h
  split_ifs at h with hn hv
  · cases h
  · exact hv.1

theorem firstToken_eq_none (h : firstToken value = some none) : value = -1 := by
  unfold firstToken at h
  split_ifs at h with hn
  · exact hn
  · cases h

def answer (s : DecodeState) (message : StatusMessage) : DecodeState :=
  { s with
    responses := update s.responses message.room (insert message.prefillRank (s.responses message.room))
    cachedTokens := update s.cachedTokens message.room
      (some (max ((s.cachedTokens message.room).getD 0) message.cachedTokens)) }

def gather (s : DecodeState) (message : StatusMessage) (payload : Landed) : DecodeState :=
  { s.answer message with pending := update s.pending message.room (some payload) }

def payloadAfter (s : DecodeState) (message : StatusMessage) (token : Option Int) : Landed :=
  collect ((s.pending message.room).getD {}) token message

variable {message : StatusMessage}

theorem complete_invalid (h : firstToken message.bootstrapToken = none) :
    s.complete ranks message = (s.answer message).fail message.room
      ("Received KV completion with an invalid first token " ++ toString message.bootstrapToken) := by
  simp only [complete, h]
  rfl

theorem complete_valid {token : Option Int} (h : firstToken message.bootstrapToken = some token) :
    s.complete ranks message =
      if (insert message.prefillRank (s.responses message.room)).card < ranks.card then
        s.gather message (s.payloadAfter message token)
      else if insert message.prefillRank (s.responses message.room) ≠ ranks then
        (s.gather message (s.payloadAfter message token)).fail message.room
          "Prefill TP completion set disagrees with the transfer route"
      else (s.gather message (s.payloadAfter message token)).land message.room (s.payloadAfter message token) := by
  simp only [complete, h]
  rfl

section Completion

variable {ranks : Finset Int} {message : StatusMessage}

theorem RoomInv.land (h : s.RoomInv heard room) (hr : s.tracked room = true) {payload : Landed}
    (hp : s.expected room = some ranks) (hre : s.responses room = ranks)
    (hk : ∀ value, payload.bootstrapToken = some value → TokenHeard heard ranks) :
    (s.land room payload).RoomInv heard room := by
  have hc : RoomInv { s with pending := update s.pending room none } heard room := by
    refine ⟨{ h with collected := fun payload' token hn => ?_ }, h.counted⟩
    simp at hn
  unfold DecodeState.land
  split
  · exact hc.toRoomBase.fail hr _
  · next hs =>
    obtain ⟨value, hv⟩ : ∃ value, payload.bootstrapToken = some value := by
      cases hto : payload.bootstrapToken with
      | none => simp [hto] at hs
      | some value => exact ⟨value, rfl⟩
    refine ⟨⟨fun hg => by simp_all, hc.answered, hc.collected, fun _ => ?_⟩, fun ht hge => ?_⟩
    · exact ⟨ranks, hp, hre, hk value hv⟩
    · refine hc.counted ht fun hf => hge ?_
      rw [get_update_self, advanced_of_failed hf]

variable (hp : s.expected message.room = some ranks) (hr : message.prefillRank ∈ ranks) (hs : message.status = .success)
include hp hr hs

theorem RoomBase.answer (h : s.RoomBase heard message.room) :
    (s.answer message).RoomBase (heard ++ [message]) message.room where
  gone := h.gone
  answered := fun rn hm => by
    simp only [DecodeState.answer, update_self, mem_insert] at hm
    rcases hm with rfl | hm
    · exact ⟨ranks, hp, hr, message, by simp, hs, rfl⟩
    · exact (h.append [message]).answered rn hm
  collected := (h.append [message]).collected
  landed := fun hg => by
    obtain ⟨ranks', hp', hre, hh⟩ := (h.append [message]).landed hg
    obtain rfl : ranks' = ranks := Option.mem_unique hp' hp
    refine ⟨ranks', hp', ?_, hh⟩
    simp only [DecodeState.answer, update_self, hre]
    exact insert_eq_of_mem hr

variable {token : Option Int}

theorem payloadAfter_token (h : s.RoomBase heard message.room) (hl : firstToken message.bootstrapToken = some token)
    {value} (hv : (s.payloadAfter message token).bootstrapToken = some value) :
    TokenHeard (heard ++ [message]) ranks := by
  simp only [payloadAfter, collect, Option.or_eq_some_iff] at hv
  rcases hv with hold | ⟨_, rfl⟩
  · cases hn : s.pending message.room with
    | none => simp [hn] at hold
    | some payload =>
      rw [hn, Option.getD_some] at hold
      obtain ⟨ranks', hp', hh⟩ := h.collected payload value hn hold
      obtain rfl : ranks' = ranks := Option.mem_unique hp' hp
      exact hh.append _
  · exact ⟨message, by simp, hs, hr, firstToken_nonneg hl⟩

theorem RoomInv.gather (h : s.RoomInv heard message.room) (hl : firstToken message.bootstrapToken = some token) :
    (s.gather message (s.payloadAfter message token)).RoomInv (heard ++ [message]) message.room := by
  have hb := h.toRoomBase.answer hp hr hs
  refine ⟨{ hb with collected := fun payload value hn hv => ?_ }, fun ht hg m hm hd => ?_⟩
  · simp only [DecodeState.gather, update_self, Option.some.injEq] at hn
    subst hn
    exact ⟨ranks, hp, payloadAfter_token hp hr hs h.toRoomBase hl hv⟩
  · simp only [DecodeState.gather, answer, update_self, mem_insert]
    rcases mem_append.mp hm with hm | hm
    · obtain ⟨hrs, hf⟩ := h.counted ht hg m hm hd
      exact ⟨.inr hrs, hf⟩
    · obtain rfl := List.mem_singleton.mp hm
      exact ⟨.inl rfl, by simp [hl]⟩

theorem RoomInv.complete (h : s.RoomInv heard message.room) (ht : s.tracked message.room = true) :
    (s.complete ranks message).RoomInv (heard ++ [message]) message.room := by
  cases hf : firstToken message.bootstrapToken with
  | none =>
    rw [complete_invalid hf]
    exact (h.toRoomBase.answer hp hr hs).fail ht _
  | some token =>
    have hg := h.gather hp hr hs hf
    rw [complete_valid hf]
    split_ifs with hw hh
    · exact hg
    · exact hg.toRoomBase.fail ht _
    · refine hg.land ht hp ?_ fun value =>
        payloadAfter_token hp hr hs h.toRoomBase hf
      simpa [DecodeState.gather, answer] using not_not.mp hh

omit hp hr hs in
theorem RoomInv.apply (h : s.RoomInv heard message.room) :
    (s.apply message).RoomInv (heard ++ [message]) message.room := by
  have hb := h.toRoomBase.append [message]
  unfold DecodeState.apply
  dsimp only
  cases htr : s.tracked message.room with
  | false => exact ⟨hb, fun ht => by simp_all⟩
  | true =>
    rw [if_pos rfl]
    -- a message that reports no completion leaves nothing to count
    have hc : message.status ≠ .success → s.RoomInv (heard ++ [message]) message.room := fun hh =>
      ⟨hb, fun ht hg m hm hd => by
        rcases mem_append.mp hm with hm | hm
        · exact h.counted ht hg m hm hd
        · obtain rfl := List.mem_singleton.mp hm
          exact absurd hd hh⟩
    cases hs : message.status with
    | success =>
      cases hp : s.expected message.room with
      | none => exact hb.fail htr _
      | some ranks =>
        dsimp only
        split
        · next hr => exact h.complete hp hr hs htr
        · exact hb.fail htr _
    | failed => exact hb.fail htr _
    | bootstrapping | bootstrapped | waitingForInput | transferring =>
      exact (hc (by rw [hs]; decide)).advance htr (by decide)

end Completion

/-! ## The other rooms -/

section Others

variable {message : StatusMessage}

variable {payload : Landed}

theorem land_agree (h : room' ≠ room) : Agree s (s.land room payload) room' := by
  have hc : Agree s { s with pending := update s.pending room none } room' :=
    ⟨rfl, rfl, rfl, rfl, update_of_ne h ..⟩
  unfold land
  split
  · exact hc.trans (fail_agree h)
  · exact ⟨get_update_of_ne h, rfl, rfl, rfl, update_of_ne h ..⟩

theorem answer_agree (h : room ≠ message.room) : Agree s (s.answer message) room :=
  ⟨rfl, rfl, rfl, update_of_ne h .., rfl⟩

theorem gather_agree (h : room ≠ message.room) : Agree s (s.gather message payload) room :=
  ⟨rfl, rfl, rfl, update_of_ne h .., update_of_ne h ..⟩

variable {ranks : Finset Int}

theorem complete_agree (h : room ≠ message.room) : Agree s (s.complete ranks message) room := by
  cases hf : firstToken message.bootstrapToken with
  | none =>
    rw [complete_invalid hf]
    exact (answer_agree h).trans (fail_agree h)
  | some token =>
    rw [complete_valid hf]
    split_ifs
    · exact gather_agree h
    · exact (gather_agree h).trans (fail_agree h)
    · exact (gather_agree h).trans (land_agree h)

theorem apply_agree (h : room ≠ message.room) : Agree s (s.apply message) room := by
  unfold apply
  dsimp only
  split
  · split
    · split
      · exact fail_agree h
      · split
        · exact complete_agree h
        · exact fail_agree h
    · exact fail_agree h
    · exact ⟨get_update_of_ne h, rfl, rfl, rfl, rfl⟩
  · exact .refl

variable {addr : String}

theorem attach_agree (h : room' ≠ room) : Agree s (s.attach room addr ranks) room' := by
  unfold attach
  split
  · exact ⟨get_update_of_ne h, rfl, update_of_ne h .., rfl, rfl⟩
  · exact .refl

theorem receive_agree {i now} (h : room' ≠ room) : Agree s (s.receive room i now) room' := by
  unfold receive
  split
  · exact ⟨get_update_of_ne h, rfl, rfl, rfl, rfl⟩
  · exact .refl

theorem clear_agree (h : room' ≠ room) : Agree s (s.clear room addr) room' :=
  ⟨get_remove_of_ne h, update_of_ne h .., update_of_ne h .., update_of_ne h .., update_of_ne h ..⟩

end Others

/-! ## Every operation keeps the invariant of every room -/

section

variable (h : s.RoomInv heard room)
include h

theorem RoomInv.fail_any (room' reason) : (s.fail room' reason).RoomInv heard room := by
  by_cases hr : room = room'
  · subst hr
    exact h.fail reason
  · exact h.congr (fail_agree hr)

theorem RoomInv.attach {room'} (hp : s.expected room' = none) (addr)
    (ranks) : (s.attach room' addr ranks).RoomInv heard room := by
  by_cases hr : room = room'
  · subst hr
    unfold DecodeState.attach
    split
    · next htr =>
      have hn : ∀ rn, rn ∉ s.responses room := fun rn hk => by
        obtain ⟨_, hs, _⟩ := h.answered rn hk
        rw [hp] at hs
        cases hs
      refine ⟨⟨fun hg => ?_, fun rn hk => absurd hk (hn rn), fun payload token hpe hto => ?_,
        fun hge => ?_⟩, fun ht hge => h.counted ht fun hf => hge ?_⟩
      · rw [htr] at hg
        cases hg
      · obtain ⟨_, hs, _⟩ := h.collected payload token hpe hto
        rw [hp] at hs
        cases hs
      · rw [get_update_self, Option.some.injEq] at hge
        obtain ⟨_, hs, _⟩ := h.landed ((advanced_eq_success hge).resolve_right (by decide))
        rw [hp] at hs
        cases hs
      · rw [get_update_self, advanced_of_failed hf]
    · exact h
  · exact h.congr (attach_agree hr)

theorem RoomInv.receive (room' i now) : (s.receive room' i now).RoomInv heard room := by
  by_cases hr : room = room'
  · subst hr
    unfold DecodeState.receive
    split
    · next ht => exact (h.advance ht (by decide)).congr ⟨rfl, rfl, rfl, rfl, rfl⟩
    · exact h
  · exact h.congr (receive_agree hr)

theorem RoomInv.loseNode (addr) : (s.loseNode addr).RoomInv heard room :=
  loseNode_keeps (P := (·.RoomInv heard room)) (h.congr ⟨rfl, rfl, rfl, rfl, rfl⟩) fun _ first reason hs =>
    hs.fail_any first reason

theorem RoomInv.clear (room' addr) : (s.clear room' addr).RoomInv heard room := by
  by_cases hr : room = room'
  · subst hr
    refine ⟨⟨fun _ => get_remove_self, fun rn hk => ?_, fun payload token hp => ?_, fun hg => ?_⟩, fun ht => ?_⟩
    · simp [DecodeState.clear] at hk
    · simp [DecodeState.clear] at hp
    · simp [DecodeState.clear] at hg
    · simp [DecodeState.clear] at ht
  · exact h.congr (clear_agree hr)

end

/-! ## A room does not come back -/

structure Onward (s s' : DecodeState) (room : Nat) : Prop where
  untracked : s.tracked room = false → s'.tracked room = false
  failed : s.rooms.get room = some .failed → s'.rooms.get room = some .failed ∨ s'.tracked room = false

theorem Onward.refl : Onward s s room := ⟨id, .inl⟩

theorem Onward.trans (h : Onward s s' room) (h' : Onward s' s'' room) : Onward s s'' room :=
  ⟨fun hs => h'.untracked (h.untracked hs), fun hs => (h.failed hs).elim h'.failed fun hs' => .inr (h'.untracked hs')⟩

theorem Onward.after (h : Onward s' s'' room) (ht : s'.tracked = s.tracked)
    (hr : s'.rooms = s.rooms) : Onward s s'' room :=
  ⟨fun hs => h.untracked ((congrFun ht room).trans hs), fun hs => h.failed ((congrArg (·.get room) hr).trans hs)⟩

theorem Agree.onward (h : Agree s s' room) : Onward s s' room :=
  ⟨h.tracked.trans, fun hs => .inl (h.rooms.trans hs)⟩

theorem onward_update (room' st) (ht : s'.tracked = s.tracked)
    (hg : s'.rooms.states = (s.rooms.update room' st).states) : Onward s s' room := by
  refine ⟨fun hs => (congrFun ht room).trans hs, fun hs => .inl ?_⟩
  change s'.rooms.states room = _
  rw [hg]
  by_cases hr : room = room'
  · subst hr
    exact (get_update_self ..).trans (congrArg some (advanced_of_failed hs))
  · exact (get_update_of_ne hr).trans hs

theorem onward_fail (room' reason) : Onward s (s.fail room' reason) room := by
  unfold fail
  split
  · exact onward_update room' .failed rfl rfl
  · exact .refl

theorem onward_land (room' payload) : Onward s (s.land room' payload) room := by
  unfold land
  split
  · exact (onward_fail ..).after rfl rfl
  · exact onward_update room' .success rfl rfl

theorem onward_apply (message) : Onward s (s.apply message) room := by
  unfold apply
  dsimp only
  split
  · split
    · split
      · exact onward_fail ..
      · next ranks _ =>
        split
        · cases hf : firstToken message.bootstrapToken with
          | none =>
            rw [complete_invalid hf]
            exact (onward_fail ..).after rfl rfl
          | some token =>
            rw [complete_valid hf]
            split_ifs
            · exact ⟨id, .inl⟩
            · exact (onward_fail ..).after rfl rfl
            · exact (onward_land ..).after rfl rfl
        · exact onward_fail ..
    · exact onward_fail ..
    · exact onward_update message.room message.status rfl rfl
  · exact .refl

theorem onward_attach (room' addr ranks) : Onward s (s.attach room' addr ranks) room := by
  unfold attach
  split
  · exact onward_update room' .bootstrapped rfl rfl
  · exact .refl

theorem onward_receive (room' i now) : Onward s (s.receive room' i now) room := by
  unfold receive
  split
  · exact onward_update room' .waitingForInput rfl rfl
  · exact .refl

theorem onward_loseNode (addr) : Onward s (s.loseNode addr) room :=
  loseNode_keeps (P := (Onward s · room)) (Onward.refl.after rfl rfl) fun _ first reason hs =>
    hs.trans (onward_fail first reason)

theorem onward_clear (room' addr) : Onward s (s.clear room' addr) room := by
  by_cases hr : room = room'
  · subst hr
    exact ⟨fun _ => update_self .., fun _ => .inr (update_self ..)⟩
  · exact (clear_agree hr).onward

/-! ## Duplicates -/

theorem apply_duplicate (h : s.RoomInv heard message.room)
    (hg : s.rooms.get message.room = some .success) (hh : message ∈ heard) (hst : message.status = .success)
    (ht : message.bootstrapToken ≠ -1) : (s.apply message).rooms.get message.room = some .success := by
  obtain ⟨ranks, hp, hre, _⟩ := h.landed hg
  cases htr : s.tracked message.room with
  | false =>
    rw [h.gone htr] at hg
    cases hg
  | true =>
    obtain ⟨hr, hf⟩ := h.counted htr (by rw [hg]; decide) message hh hst
    obtain ⟨token, hf⟩ := Option.ne_none_iff_exists'.mp hf
    cases token with
    | none => exact absurd (firstToken_eq_none hf) ht
    | some token =>
      have har : insert message.prefillRank (s.responses message.room) = ranks := by
        rw [insert_eq_of_mem hr, hre]
      have hs : (s.payloadAfter message (some token)).bootstrapToken.isNone = false := by
        simp [payloadAfter, collect]
      rw [hre] at hr
      simp only [apply, htr, hst, hp, if_pos hr, if_true]
      rw [complete_valid hf, har, if_neg (lt_irrefl _), if_neg (not_not.mpr rfl)]
      simp only [land, hs, Bool.false_eq_true, if_false]
      rw [get_update_self]
      refine congrArg some (advanced_success ?_)
      change s.rooms.get message.room ≠ _
      rw [hg]
      decide

end DecodeState

end TokenSpeed.Transfer

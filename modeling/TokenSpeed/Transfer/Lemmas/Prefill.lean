import TokenSpeed.Transfer.Prefill

/-!
# The ledger of a Prefill room

`Ledger`: of a room's accepted sessions, one that waits was told nothing and any other was told once.
-/

namespace TokenSpeed.Transfer

open List RoomTable

open PrefillRun (timesTold)

/-! ## One room -/

structure Ledger (routed : Nat → Bool) (accepted waiting : List Nat) (told : List Notice) (reporting : Bool)
    (poll : Option TransferPoll) : Prop where
  routed : ∀ session ∈ accepted, routed session = true
  once : accepted.Nodup
  waits : ∀ session ∈ waiting, session ∈ accepted
  single : waiting.Nodup
  count : ∀ session ∈ accepted, timesTold told session = if session ∈ waiting ∧ reporting = false then 0 else 1
  stray : ∀ session, session ∉ accepted → timesTold told session = 0 ∨ poll = some .failed
  ended : poll = some .failed → waiting = []

theorem timesTold_append (told sent session) :
    timesTold (told ++ sent) session = timesTold told session + timesTold sent session := by
  simp [timesTold]

theorem ledger_empty (routed : Nat → Bool) (reporting) (poll) : Ledger routed [] [] [] reporting poll :=
  ⟨by simp, nodup_nil, by simp, nodup_nil, by simp, by simp [timesTold], fun _ => rfl⟩

namespace Ledger

variable {routed routed' : Nat → Bool} {accepted waiting : List Nat} {told sent : List Notice} {reporting : Bool}
  {poll poll' : Option TransferPoll}

theorem mono (h : Ledger routed accepted waiting told reporting poll)
    (hr : ∀ session, routed session = true → routed' session = true) :
    Ledger routed' accepted waiting told reporting poll :=
  { h with routed := fun session hs => hr session (h.routed session hs) }

theorem setPoll (h : Ledger routed accepted waiting told reporting poll)
    (hy : poll = some .failed → poll' = some .failed)
    (hf : poll' = some .failed → waiting = []) : Ledger routed accepted waiting told reporting poll' :=
  { h with
    stray := fun session hs => (h.stray session hs).imp_right hy
    ended := hf }

theorem tellAll (h : Ledger routed accepted waiting told false poll) (ht : sent.map (·.session) = waiting)
    (hy : poll = some .failed → poll' = some .failed) : Ledger routed accepted [] (told ++ sent) false poll' where
  routed := h.routed
  once := h.once
  waits := by simp
  single := nodup_nil
  count := fun session hs => by
    rw [timesTold_append, h.count session hs, timesTold, ht]
    by_cases hw : session ∈ waiting
    · simp [hw, count_eq_one_of_mem h.single hw]
    · simp [hw, count_eq_zero_of_not_mem hw]
  stray := fun session hs => by
    have hn : session ∉ waiting := fun hm => hs (h.waits session hm)
    rw [timesTold_append, timesTold, timesTold, ht, count_eq_zero_of_not_mem hn, Nat.add_zero]
    exact (h.stray session hs).imp_right hy
  ended := fun _ => rfl

theorem report (h : Ledger routed accepted waiting told false poll) (ht : sent.map (·.session) = waiting) :
    Ledger routed accepted waiting (told ++ sent) true poll := by
  have hto := h.tellAll ht id
  refine { h with count := fun session hs => ?_, stray := hto.stray }
  rw [hto.count session hs]
  simp

theorem reported (h : Ledger routed accepted waiting told true poll) : Ledger routed accepted [] told false poll where
  routed := h.routed
  once := h.once
  waits := by simp
  single := nodup_nil
  count := fun session hs => by
    rw [h.count session hs]
    simp
  stray := h.stray
  ended := fun _ => rfl

variable {session : Nat}

theorem accept (h : Ledger routed accepted waiting told false poll) (hn : session ∉ accepted)
    (hp : poll ≠ some .failed) (hr : routed session = true) (hp' : poll' ≠ some .failed) :
    Ledger routed (accepted ++ [session]) (waiting ++ [session]) told false poll' where
  routed := forall_mem_append.mpr ⟨h.routed, forall_mem_singleton.mpr hr⟩
  once := h.once.append (nodup_singleton _) (by simpa using hn)
  waits := forall_mem_append.mpr ⟨fun x hx => mem_append_left _ (h.waits x hx), fun _ => mem_append_right _⟩
  single := h.single.append (nodup_singleton _) (by
    rw [disjoint_singleton]
    exact fun hm => hn (h.waits session hm))
  count := fun x hx => by
    rcases mem_append.mp hx with hx | hx
    · have hne : x ≠ session := fun hq => hn (hq ▸ hx)
      rw [h.count x hx]
      simp [hne]
    · obtain rfl := mem_singleton.mp hx
      rw [(h.stray x hn).resolve_right hp]
      simp
  stray := fun x hx => by
    rw [mem_append, not_or] at hx
    exact .inl ((h.stray x hx.1).resolve_right hp)
  ended := fun hf => absurd hf hp'

theorem tellStray (h : Ledger routed accepted waiting told reporting (some .failed)) (hw : session ∉ accepted)
    (hs : ∀ n ∈ sent, n.session = session) : Ledger routed accepted waiting (told ++ sent) reporting (some .failed) :=
  { h with
    count := fun x hx => by
      have ht : x ∉ sent.map (·.session) := fun hm => by
        obtain ⟨n, hn, rfl⟩ := mem_map.mp hm
        exact hw (hs n hn ▸ hx)
      rw [timesTold_append, h.count x hx, timesTold, count_eq_zero_of_not_mem ht, Nat.add_zero]
    stray := fun _ _ => .inr rfl }

theorem told_once (h : Ledger routed accepted [] told reporting poll) (hs : session ∈ accepted) :
    timesTold told session = 1 := by
  rw [h.count session hs]
  simp

end Ledger

/-! ## Operations of the state -/

namespace PrefillState

variable {s : PrefillState} {room room' session : Nat}

@[simp] theorem touch_rooms (now) : (s.touch room now).rooms = s.rooms := by unfold touch; split <;> rfl
@[simp] theorem touch_destinations (now) : (s.touch room now).destinations = s.destinations := by
  unfold touch; split <;> rfl
@[simp] theorem touch_registrations (now) : (s.touch room now).registrations = s.registrations := by
  unfold touch; split <;> rfl
@[simp] theorem touch_rejected (now) : (s.touch room now).rejected = s.rejected := by unfold touch; split <;> rfl

variable {s' : PrefillState}

theorem routeOf_congr (hr : s'.registrations = s.registrations) (hj : s'.rejected = s.rejected) :
    s'.routeOf session = s.routeOf session := by
  rw [routeOf, routeOf, hr, hj]

theorem waiting_congr (h : s'.destinations room = s.destinations room) : s'.waiting room = s.waiting room := by
  rw [waiting, waiting, h]

/-- What `abort_room` leaves of the room, and of the others. -/
structure Aborts (s s' : PrefillState) (room : Nat) : Prop where
  registrations : s'.registrations = s.registrations
  rejected : s'.rejected = s.rejected
  failed : s'.rooms.get room = some .failed
  waiting : s'.waiting room = []
  others : ∀ room', room' ≠ room → s'.rooms.get room' = s.rooms.get room' ∧ s'.destinations room' = s.destinations room'

theorem abortRoom_aborts (reason now) : Aborts s (s.abortRoom room reason now).2 room where
  registrations := by simp [abortRoom]
  rejected := by simp [abortRoom]
  failed := by simp [abortRoom]
  waiting := by simp [abortRoom, waiting]
  others := fun room' hn => by
    simp only [abortRoom, touch_rooms, touch_destinations]
    exact ⟨get_update_of_ne hn, Function.update_of_ne hn ..⟩

theorem abortRoom_sent (reason now) :
    (s.abortRoom room reason now).1 = s.notices (s.waiting room) room .failed := rfl

variable {st : TransferPoll} {sessions : List Nat}

theorem notices_of_routed (h : ∀ session ∈ sessions, (s.routeOf session).isSome = true) :
    s.notices sessions room st = sessions.map fun session => ⟨session, room, st⟩ := by
  rw [notices, filter_eq_self.mpr h]

theorem notices_room : ∀ n ∈ s.notices sessions room st, n.room = room := by
  intro n hn
  obtain ⟨_, _, rfl⟩ := mem_map.mp hn
  rfl

theorem notices_session : ∀ n ∈ s.notices [session] room st, n.session = session := by
  intro n hn
  obtain ⟨x, hx, rfl⟩ := mem_map.mp hn
  exact mem_singleton.mp (mem_filter.mp hx).1

structure Accepts (s s' : PrefillState) (room session : Nat) (isDummy : Bool) : Prop where
  registered : (s.registrations session).isSome = true
  live : s.rooms.get room ≠ some .failed
  live' : s'.rooms.get room ≠ some .failed
  registrations : s'.registrations = s.registrations
  rejected : s'.rejected = s.rejected
  destinations : s'.destinations room = s.destinations room ++ [⟨session, isDummy⟩]
  others : ∀ room', room' ≠ room → s'.rooms.get room' = s.rooms.get room' ∧ s'.destinations room' = s.destinations room'

variable {isDummy : Bool} {iv : Option String} {now : Nat}

theorem acceptPreallocation_accepted
    (h : s.acceptPreallocation room session isDummy iv now = .accepted s') : Accepts s s' room session isDummy := by
  unfold acceptPreallocation at h
  cases hr : s.registrations session with
  | none => simp [hr] at h
  | some rg =>
    simp only [hr] at h
    split at h
    · cases h
    next hl =>
    split at h
    · cases h
    cases iv with
    | some reason => simp at h
    | none =>
      simp only at h
      split at h
      · cases h
      split at h
      · cases h
      split at h
      · cases h
      · cases h
        -- completing the fan-out moves the room on, which does not fail it
        have hd : s.rooms.advanced room .bootstrapped ≠ .failed := fun hq => (advanced_eq_failed hq).elim hl nofun
        split
        · refine ⟨by simp [hr], hl, ?_, by simp, by simp, by simp, fun room' hn => ⟨?_, ?_⟩⟩
          · rw [get_update_self, touch_rooms]
            exact fun hq => hd (Option.some.inj hq)
          · rw [get_update_of_ne hn, touch_rooms]
          · simp [Function.update_of_ne hn]
        · refine ⟨by simp [hr], hl, by simpa using hl, by simp, by simp, by simp, fun room' hn => ⟨by simp, ?_⟩⟩
          simp [Function.update_of_ne hn]

theorem acceptPreallocation_failed
    (h : s.acceptPreallocation room session isDummy iv now = .failed) : s.rooms.get room = some .failed := by
  unfold acceptPreallocation at h
  cases hr : s.registrations session with
  | none => simp [hr] at h
  | some rg =>
    simp only [hr] at h
    split at h
    · next hf => exact hf
    split at h
    · cases h
    cases iv with
    | some reason => simp at h
    | none =>
      simp only at h
      split at h
      · cases h
      split at h
      · cases h
      split at h <;> cases h

end PrefillState

end TokenSpeed.Transfer

import TokenSpeed.Transfer.Lemmas.Prefill

/-!
# The runs of a Prefill rank

Every orderly event keeps the ledger of every room; where it drops a room's destinations, nobody waits.
-/

namespace TokenSpeed.Transfer

open List PrefillState RoomTable

open Function (update_self update_of_ne)

namespace PrefillRun

def RoomLedger (h : PrefillRun) (room : Nat) : Prop :=
  Ledger (fun session => (h.peer.state.routeOf session).isSome) (h.accepted room) (h.peer.state.waiting room)
    (h.told room) (h.reporting room) (h.peer.state.rooms.get room)

def Balanced (h : PrefillRun) : Prop := ∀ room, h.RoomLedger room

variable {h h' : PrefillRun} {room room' : Nat}

theorem balanced_start (bt) : (start bt).Balanced := fun _ => ledger_empty ..

theorem RoomLedger.told (hl : h.RoomLedger room) (hw : h.peer.state.waiting room = []) : h.Told room := by
  unfold RoomLedger at hl
  rw [hw] at hl
  exact fun session hs _ => hl.told_once hs

theorem update_update (h : PrefillRun) (s s') (sent sent') :
    (h.update s sent).update s' sent' = h.update s' (sent ++ sent') := by
  simp [update, append_assoc]

variable {s : PrefillState} {sent : List Notice}

theorem update_told :
    (h.update s sent).told room = h.told room ++ sent.filter (·.room = room) := rfl

theorem filter_other (hs : ∀ n ∈ sent, n.room = room') (hne : room ≠ room') : sent.filter (·.room = room) = [] := by
  rw [filter_eq_nil_iff]
  intro n hn
  simpa [hs n hn] using hne.symm

theorem filter_own (hs : ∀ n ∈ sent, n.room = room) : sent.filter (·.room = room) = sent := by
  rw [filter_eq_self]
  intro n hn
  simpa using hs n hn

/-! ## Aborts -/

theorem Balanced.abort (hba : h.Balanced) (hp : h.reporting room = false) (reason) (now) :
    (h.update (h.peer.state.abortRoom room reason now).2 (h.peer.state.abortRoom room reason now).1).Balanced := by
  intro room'
  have hb : h.peer.state.Aborts (h.peer.state.abortRoom room reason now).2 room := abortRoom_aborts reason now
  have hl := hba room'
  unfold RoomLedger at hl ⊢
  rw [update_told, abortRoom_sent]
  have ht : ∀ session, ((h.update (h.peer.state.abortRoom room reason now).2
      (h.peer.state.notices (h.peer.state.waiting room) room .failed)).peer.state.routeOf session).isSome =
        (h.peer.state.routeOf session).isSome := fun session =>
    congrArg Option.isSome (routeOf_congr hb.registrations hb.rejected)
  refine Ledger.mono ?_ fun session hs => (ht session).trans hs
  change Ledger _ (h.accepted room') (waiting (h.peer.state.abortRoom room reason now).2 room') _
    (h.reporting room') (get (h.peer.state.abortRoom room reason now).2.rooms room')
  by_cases hr : room' = room
  · subst hr
    rw [filter_own notices_room]
    have hrd : ∀ session ∈ h.peer.state.waiting room', (h.peer.state.routeOf session).isSome = true :=
      fun session hs => hl.routed session (hl.waits session hs)
    rw [hp] at hl
    rw [hb.waiting, hb.failed, hp]
    refine hl.tellAll ?_ fun _ => rfl
    rw [notices_of_routed hrd, map_map]
    exact map_id _
  · rw [filter_other notices_room hr, append_nil]
    obtain ⟨hg, hd⟩ := hb.others room' hr
    rw [waiting_congr hd, hg]
    exact hl

theorem Balanced.abortRooms (reason : String) (now : Nat) : ∀ (rms : List Nat) {h : PrefillRun}, h.Balanced →
    (∀ room ∈ rms, h.reporting room = false) →
      (h.update (abortRooms reason now h.peer.state rms).2
        (abortRooms reason now h.peer.state rms).1).Balanced := by
  intro rms
  induction rms with
  | nil =>
    intro h hb _ room
    have := hb room
    simpa [PrefillState.abortRooms, update, RoomLedger] using this
  | cons first rms ih =>
    intro h hb hp
    rw [forall_mem_cons] at hp
    have hf := hb.abort hp.1 reason now
    have hr := ih hf hp.2
    rw [update_update] at hr
    exact hr

theorem abortRooms_waiting (reason now) : ∀ rms s room,
    room ∈ rms ∨ s.waiting room = [] → (abortRooms reason now s rms).2.waiting room = [] := by
  intro rms
  induction rms with
  | nil =>
    intro s room hc
    exact hc.resolve_left (by simp)
  | cons first rms ih =>
    intro s room hc
    have hb : s.Aborts (s.abortRoom first reason now).2 first := abortRoom_aborts reason now
    refine ih _ room ?_
    by_cases hr : room = first
    · exact .inr (hr ▸ hb.waiting)
    · rcases hc with hm | hw
      · exact .inl ((mem_cons.mp hm).resolve_left hr)
      · exact .inr ((waiting_congr (hb.others room hr).2).trans hw)

theorem Balanced.routes (hb : h.Balanced) (hr : s.rooms = h.peer.state.rooms)
    (hd : s.destinations = h.peer.state.destinations)
    (hs : ∀ session, (h.peer.state.routeOf session).isSome = true → (s.routeOf session).isSome = true) :
    Balanced { h with peer := { h.peer with state := s } } := fun room => by
  have hl := hb room
  change Ledger _ (h.accepted room) (s.waiting room) (h.told room) (h.reporting room) (s.rooms.get room)
  rw [waiting_congr (congrFun hd room), hr]
  exact hl.mono hs

variable {session : Nat} {rms : List Nat}

theorem Balanced.rejectSession (hb : h.Balanced) (rt : String × Nat) (reason : String)
    (now : Nat) (hp : ∀ room ∈ h.peer.state.roomsOf session rms, h.reporting room = false) :
    (h.update (h.peer.state.rejectSession session rt reason rms now).2
      (h.peer.state.rejectSession session rt reason rms now).1).Balanced ∧
    ∀ room ∈ h.peer.state.roomsOf session rms,
      (h.peer.state.rejectSession session rt reason rms now).2.waiting room = [] := by
  have hab := Balanced.abortRooms ("Decode session " ++ toString session ++ " registration rejected: " ++ reason) now _
    hb
    hp
  refine ⟨?_, fun room hr => abortRooms_waiting _ now _ _ room (.inl hr)⟩
  refine hab.routes rfl rfl fun other hh => ?_
  simp only [routeOf, PrefillState.rejectSession]
  by_cases hs : other = session
  · subst hs
    simp
  · rw [update_of_ne hs, update_of_ne hs]
    exact hh

theorem Balanced.register (hb : h.Balanced) (session) (rg) :
    Balanced { h with peer := { h.peer with state := { h.peer.state with
      rejected := Function.update h.peer.state.rejected session none
      registrations := Function.update h.peer.state.registrations session (some rg) } } } := by
  refine hb.routes rfl rfl fun other hh => ?_
  simp only [routeOf]
  by_cases hs : other = session
  · subst hs
    simp
  · rw [update_of_ne hs, update_of_ne hs]
    exact hh

/-! ## Pre-allocations -/

theorem Balanced.change (hb : h.Balanced) (room)
    (hs : ∀ session, (h'.peer.state.routeOf session).isSome = (h.peer.state.routeOf session).isSome)
    (ht : ∀ room', room' ≠ room → h'.accepted room' = h.accepted room' ∧ h'.told room' = h.told room' ∧
      h'.reporting room' = h.reporting room' ∧ h'.peer.state.destinations room' = h.peer.state.destinations room' ∧
        h'.peer.state.rooms.get room' = h.peer.state.rooms.get room')
    (hr : Ledger (fun session => (h.peer.state.routeOf session).isSome) (h'.accepted room) (h'.peer.state.waiting room)
      (h'.told room) (h'.reporting room) (h'.peer.state.rooms.get room)) : h'.Balanced := fun room' => by
  unfold RoomLedger
  simp only [hs]
  by_cases hn : room' = room
  · exact hn ▸ hr
  · obtain ⟨hc, hto, hp, hd, hg⟩ := ht room' hn
    rw [hc, hto, hp, waiting_congr hd, hg]
    exact hb room'

variable {isd : Bool}

theorem Balanced.accept (hb : h.Balanced)
    (hc : h.peer.state.Accepts s room session isd) (hn : session ∉ h.accepted room)
    (hp : h.reporting room = false) : Balanced { h.update s [] with
      accepted := Function.update h.accepted room (h.accepted room ++ if isd then [] else [session]) } := by
  refine hb.change room (fun session => congrArg Option.isSome
    (routeOf_congr hc.registrations hc.rejected)) (fun room' hne => ?_) ?_
  · obtain ⟨hg, hd⟩ := hc.others room' hne
    exact ⟨update_of_ne hne .., by simp [update], rfl, hd, hg⟩
  · have hl := hb room
    unfold RoomLedger at hl
    have hw : s.waiting room = h.peer.state.waiting room ++ if isd then [] else [session] := by
      cases isd <;> simp [waiting, hc.destinations]
    simp only [update_self, update, filter_nil, append_nil, hw]
    rw [hp] at hl ⊢
    cases isd with
    | true =>
      simpa using hl.setPoll (fun hf => absurd hf hc.live) fun hf => absurd hf hc.live'
    | false =>
      have hr : (h.peer.state.routeOf session).isSome = true := by
        simp [routeOf, hc.registered]
      simpa using hl.accept hn hc.live hr hc.live'

theorem Balanced.tellStray (hb : h.Balanced) (hf : h.peer.state.rooms.get room = some .failed)
    (hn : session ∉ h.accepted room) :
    (h.update h.peer.state (h.peer.state.notices [session] room .failed)).Balanced := by
  refine hb.change room (fun _ => rfl) (fun room' hne => ⟨rfl, ?_, rfl, rfl, rfl⟩) ?_
  · rw [update_told, filter_other notices_room hne, append_nil]
  · have hl := hb room
    unfold RoomLedger at hl
    rw [update_told, filter_own notices_room]
    change Ledger _ (h.accepted room) (h.peer.state.waiting room) _ (h.reporting room) (h.peer.state.rooms.get room)
    rw [hf] at hl ⊢
    exact hl.tellStray hn notices_session

theorem Balanced.preallocate (hb : h.Balanced) {iv now}
    (hn : session ∉ h.accepted room) (hp : h.reporting room = false) :
    (h.preallocate room session isd iv now).after.Balanced ∧
      ∀ room' ∈ (h.preallocate room session isd iv now).dropped,
        (h.preallocate room session isd iv now).atDrop.Told room' := by
  unfold PrefillRun.preallocate
  cases hc : h.peer.state.acceptPreallocation room session isd iv now with
  | accepted s => exact ⟨hb.accept (acceptPreallocation_accepted hc) hn hp, by simp [plain]⟩
  | failed => exact ⟨hb.tellStray (acceptPreallocation_failed hc) hn, by simp [plain]⟩
  | rejected reason =>
    have hab : h.peer.state.Aborts (h.peer.state.abortRoom room ("invalid pre-allocation metadata: " ++ reason) now).2
      room := abortRoom_aborts _ now
    have har := hb.abort hp ("invalid pre-allocation metadata: " ++ reason) now
    refine ⟨har.tellStray hab.failed hn, fun room' hr' => ?_⟩
    obtain rfl := mem_singleton.mp hr'
    exact (har room').told hab.waiting

/-! ## Reports -/

theorem advanced_stays {t : RoomTable} {st} (h : t.get room = some .failed) :
    (t.update room st).get room = some .failed := by
  rw [get_update_self, advanced_of_failed h]

theorem Balanced.report (hb : h.Balanced) (ht : h.transferring room = h.peer.state.waiting room)
    (hr : h.reporting room = false) :
    Balanced { h.update h.peer.state ((h.transferring room).map fun session => ⟨session, room, .success⟩) with
      reporting := Function.update h.reporting room true } := by
  have hs : ∀ n ∈ (h.transferring room).map fun session => (⟨session, room, .success⟩ : Notice), n.room = room := by
    intro n hn
    obtain ⟨_, _, rfl⟩ := mem_map.mp hn
    rfl
  refine hb.change room (fun _ => rfl) (fun room' hne => ⟨rfl, ?_, update_of_ne hne .., rfl, rfl⟩) ?_
  · exact (congrArg (h.told room' ++ ·) (filter_other hs hne)).trans (append_nil _)
  · have hl := hb room
    unfold RoomLedger at hl
    rw [hr] at hl
    change Ledger _ (h.accepted room) (h.peer.state.waiting room) (h.told room ++ filter _ _)
      (Function.update h.reporting room true room) (h.peer.state.rooms.get room)
    rw [filter_own hs, update_self]
    refine hl.report ?_
    rw [map_map, ht]
    exact map_id _

theorem reported_waiting (s : PrefillState) : (s.reported room).waiting room = [] := by
  simp [reported, waiting]

theorem reported_others (s : PrefillState) (hn : room' ≠ room) :
    (s.reported room).destinations room' = s.destinations room' ∧
    (s.reported room).rooms.get room' = s.rooms.get room' :=
  ⟨update_of_ne hn .., get_update_of_ne hn⟩

theorem Balanced.reported (hb : h.Balanced) (hr : h.reporting room = true) :
    Balanced { h.update (h.peer.state.reported room) [] with reporting := Function.update h.reporting room false } := by
  refine hb.change room (fun _ => rfl) (fun room' hn => ?_) ?_
  · obtain ⟨hd, hg⟩ := reported_others h.peer.state hn
    exact ⟨rfl, by simp [update], update_of_ne hn .., hd, hg⟩
  · have hl := hb room
    unfold RoomLedger at hl
    rw [hr] at hl
    change Ledger _ (h.accepted room) ((h.peer.state.reported room).waiting room) (h.told room ++ [])
      (Function.update h.reporting room false room) ((h.peer.state.rooms.update room .success).get room)
    rw [append_nil, update_self, reported_waiting]
    exact hl.reported.setPoll advanced_stays fun _ => rfl

theorem Balanced.join (hb : h.Balanced) (hw : h.peer.state.waiting room = []) :
    (h.update (h.peer.state.joined room) []).Balanced := by
  unfold joined
  split
  · refine hb.change room (fun _ => rfl) (fun room' hn => ?_) ?_
    · obtain ⟨hd, hg⟩ := reported_others h.peer.state hn
      exact ⟨rfl, by simp [update], rfl, hd, hg⟩
    · have hl := hb room
      unfold RoomLedger at hl
      rw [hw] at hl
      change Ledger _ (h.accepted room) ((h.peer.state.reported room).waiting room) (h.told room ++ [])
        (h.reporting room) ((h.peer.state.rooms.update room .success).get room)
      rw [append_nil, reported_waiting]
      exact hl.setPoll advanced_stays fun _ => rfl
  · simpa [update] using hb

/-! ## Cleared rooms -/

theorem clear_foldl (rms : List Nat) : ∀ s,
    (rms.foldl clear s).registrations = s.registrations ∧
      (rms.foldl clear s).rejected = s.rejected ∧
      ∀ room, (room ∉ rms → (rms.foldl clear s).destinations room = s.destinations room ∧
        (rms.foldl clear s).rooms.get room = s.rooms.get room) ∧
        (room ∈ rms ∨ s.waiting room = [] → (rms.foldl clear s).waiting room = []) := by
  induction rms with
  | nil => exact fun s => ⟨rfl, rfl, fun room => ⟨fun _ => ⟨rfl, rfl⟩, fun hc => hc.resolve_left (by simp)⟩⟩
  | cons first rms ih =>
    intro s
    obtain ⟨hg, hj, hro⟩ := ih (s.clear first)
    refine ⟨hg, hj, fun room => ⟨fun hn => ?_, fun hc => ?_⟩⟩
    · rw [mem_cons, not_or] at hn
      obtain ⟨hd, ht⟩ := (hro room).1 hn.2
      exact ⟨hd.trans (update_of_ne hn.1 ..), ht.trans (get_remove_of_ne hn.1)⟩
    · refine (hro room).2 ?_
      by_cases hr : room = first
      · exact .inr (by simp [hr, clear, waiting])
      · rcases hc with hm | hw
        · exact .inl ((mem_cons.mp hm).resolve_left hr)
        · exact .inr ((waiting_congr (update_of_ne hr ..)).trans hw)

theorem Balanced.forgetRooms (hb : ∀ room, room ∉ rms → h.RoomLedger room)
    (hw : ∀ room ∈ rms, h.peer.state.waiting room = []) : (h.forgetRooms rms).Balanced := fun room => by
  unfold RoomLedger PrefillRun.forgetRooms
  by_cases hr : room ∈ rms
  · simp only [hr, if_true]
    rw [hw room hr]
    exact ledger_empty ..
  · simp only [hr, if_false]
    exact hb room hr

theorem filter_expired (hd : rms.Nodup) (room) :
    (rms.flatMap s.expireRoom).filter (·.room = room) = if room ∈ rms then s.expireRoom room else [] := by
  have hw : ∀ room', ∀ n ∈ s.expireRoom room', n.room = room' := by
    intro room' n hn
    unfold expireRoom at hn
    split at hn
    · cases hn
    · exact notices_room n hn
  induction rms with
  | nil => rfl
  | cons first rms ih =>
    rw [nodup_cons] at hd
    rw [flatMap_cons, filter_append, ih hd.2]
    by_cases hr : room = first
    · subst hr
      rw [filter_own (hw room), if_neg hd.1, if_pos mem_cons_self, append_nil]
    · rw [filter_other (hw first) hr, nil_append]
      simp [hr]

theorem RoomLedger.expire (hl : h.RoomLedger room) (hr : h.reporting room = false) :
    ∀ session ∈ h.accepted room, timesTold (h.told room ++ h.peer.state.expireRoom room) session = 1 := by
  unfold RoomLedger at hl
  unfold expireRoom
  split
  · next hf =>
    rw [hl.ended hf] at hl
    rw [append_nil]
    exact fun session hs => hl.told_once hs
  · rw [hr] at hl
    have hd : ∀ session ∈ h.peer.state.waiting room, (h.peer.state.routeOf session).isSome = true :=
      fun session hs => hl.routed session (hl.waits session hs)
    rw [notices_of_routed hd]
    refine fun session hs => (hl.tellAll ?_ id).told_once hs
    rw [map_map]
    exact map_id _

end PrefillRun

/-! ## Polls -/

namespace PrefillPeer

structure Alike (p p' : PrefillPeer) : Prop where
  states : p'.state.rooms.states = p.state.rooms.states
  destinations : p'.state.destinations = p.state.destinations
  registrations : p'.state.registrations = p.state.registrations
  rejected : p'.state.rejected = p.state.rejected
  bootstrapTimeout : p'.bootstrapTimeout = p.bootstrapTimeout
  rooms : ∀ rid, (p'.senders rid).map (·.room) = (p.senders rid).map (·.room)

variable {p p' p'' : PrefillPeer} {rid : Nat} {sender sender' : Sender} {now : Nat}

theorem Alike.refl : Alike p p := ⟨rfl, rfl, rfl, rfl, rfl, fun _ => rfl⟩

theorem Alike.trans (h : Alike p p') (h' : Alike p' p'') : Alike p p'' :=
  ⟨h'.states.trans h.states, h'.destinations.trans h.destinations, h'.registrations.trans h.registrations,
    h'.rejected.trans h.rejected, h'.bootstrapTimeout.trans h.bootstrapTimeout,
    fun rid => (h'.rooms rid).trans (h.rooms rid)⟩

theorem update_rooms (hs : p.senders rid = some sender) (hr : sender'.room = sender.room) (rid') :
    (Function.update p.senders rid (some sender') rid').map (·.room) = (p.senders rid').map (·.room) := by
  by_cases he : rid' = rid
  · rw [he, update_self, hs, Option.map_some, Option.map_some, hr]
  · rw [update_of_ne he]

theorem pollOne_alike (now rid) : Alike p (pollOne now p rid).2 := by
  unfold pollOne
  split
  · exact .refl
  · next sender hs =>
    split
    · exact .refl
    · refine ⟨?_, rfl, rfl, rfl, rfl, update_rooms hs rfl⟩
      dsimp only
      split <;> rfl

theorem polls_alike (now) : ∀ rest p, Alike p (polls now p rest).2
  | [], _ => .refl
  | rid :: rest, p => (pollOne_alike now rid).trans (polls_alike now rest (pollOne now p rid).2)

theorem conclude_alike (rid agreed) : Alike p (conclude p rid agreed).2 := by
  unfold conclude
  split
  · exact .refl
  · next sender hs =>
    dsimp only
    split_ifs
    · exact ⟨rfl, rfl, rfl, rfl, rfl, update_rooms hs rfl⟩
    · exact .refl
    · exact ⟨rfl, rfl, rfl, rfl, rfl, update_rooms hs rfl⟩
    · exact .refl

theorem concludeAll_alike : ∀ prs p, Alike p (concludeAll p prs).2
  | [], _ => .refl
  | (rid, agreed) :: prs, p => (conclude_alike rid agreed).trans (concludeAll_alike prs (conclude p rid agreed).2)

theorem polled_alike (now others) : Alike p (p.polled now others).2 :=
  (polls_alike now p.order p).trans (concludeAll_alike _ _)

/-- An undecided sender answers neither end. -/
theorem observe_undecided (h : p.undecided sender now = true) :
    sender.concluded = none ∧ (p.observe sender now).2 = none ∧
      (p.observe sender now).1 ≠ .failed ∧ (p.observe sender now).1 ≠ .success := by
  obtain ⟨hc, hs⟩ := Bool.and_eq_true_iff.mp h
  refine ⟨Option.isNone_iff_eq_none.mp hc, ?_⟩
  unfold observe
  cases hg : p.state.rooms.get sender.room with
  | none => simp [hg] at hs
  | some status =>
    cases status with
    | failed | success => simp [hg] at hs
    | bootstrapping =>
      have hn : ¬ p.bootstrapTimeout ≤ now - sender.started := by simpa [hg] using hs
      simp [hn]
    | bootstrapped | waitingForInput | transferring => simp

/-- Polling any request keeps an undecided sender as it is. -/
theorem pollOne_undecided {rid'} (hs : p.senders rid = some sender) (h : p.undecided sender now = true) :
    (pollOne now p rid').2.senders rid = some sender ∧ (pollOne now p rid').2.undecided sender now = true := by
  have hal : Alike p (pollOne now p rid').2 := pollOne_alike now rid'
  refine ⟨?_, by rwa [undecided, RoomTable.get, hal.states, hal.bootstrapTimeout]⟩
  unfold pollOne
  split
  · exact hs
  · next sender' hs' =>
    split
    · exact hs
    · next hc =>
      by_cases he : rid = rid'
      · obtain rfl : sender = sender' := by simpa [← he, hs] using hs'
        obtain ⟨-, ho, -⟩ := observe_undecided h
        simp [he, ho, ← hc]
      · exact (update_of_ne he ..).trans hs

theorem pollOne_answer (hs : p.senders rid = some sender) (h : p.undecided sender now = true) :
    (pollOne now p rid).1 ≠ .failed ∧ (pollOne now p rid).1 ≠ .success := by
  obtain ⟨hc, -, ha⟩ := observe_undecided h
  simpa [pollOne, hs, hc] using ha

/-- The agreed code of an undecided sender that no member failed ends nothing. -/
theorem polls_undecided {agreed : Nat} : ∀ (rids others : List Nat) (p : PrefillPeer), p.senders rid = some sender →
    p.undecided sender now = true →
    (rid, TransferPoll.failed.toWire) ∉ rids.zip others →
      (rid, agreed) ∈ rids.zip (zipWith min ((polls now p rids).1.map (·.toWire)) others) →
        (TransferPoll.fromWire agreed).getD .failed ≠ .failed ∧ (TransferPoll.fromWire agreed).getD .failed ≠ .success
  | [], _, _, _, _, _, hm => by simp at hm
  | _ :: _, [], _, _, _, _, hm => by simp at hm
  | rid' :: rids, other :: others, p, hs, hu, hn, hm => by
    simp only [polls, map_cons, zipWith_cons_cons, zip_cons_cons, mem_cons, not_or] at hm hn
    rcases hm with hm | hm
    · cases hm
      obtain ⟨hf, hs⟩ := pollOne_answer hs hu
      have ho : other ≠ 0 := fun ho => hn.1 (by rw [ho]; rfl)
      exact ⟨TransferPoll.fromWire_min hf ho, TransferPoll.fromWire_min_success hs⟩
    · obtain ⟨hs, hu⟩ := @pollOne_undecided _ _ _ _ rid' hs hu
      exact polls_undecided rids others _ hs hu hn.2 hm

theorem conclude_ends {agreed} (h : (conclude p rid agreed).1 = true) :
    (TransferPoll.fromWire agreed).getD .failed = .failed ∨ (TransferPoll.fromWire agreed).getD .failed = .success := by
  unfold conclude at h
  split at h
  · cases h
  · dsimp only at h
    split_ifs at h with h₁ h₂ h₃
    · exact .inl h₂
    · exact .inr h₃.2

theorem concludeAll_ends : ∀ pairs p, rid ∈ (concludeAll p pairs).1 → ∃ agreed, (rid, agreed) ∈ pairs ∧
    ((TransferPoll.fromWire agreed).getD .failed = .failed ∨ (TransferPoll.fromWire agreed).getD .failed = .success)
  | [], _, h => by simp [concludeAll] at h
  | (rid', agreed) :: pairs, p, h => by
    rcases mem_append.mp h with h | h
    · obtain ⟨he, h⟩ := mem_ite_nil_right.mp h
      obtain rfl := mem_singleton.mp h
      exact ⟨agreed, mem_cons_self, conclude_ends he⟩
    · obtain ⟨agreed, hm, he⟩ := concludeAll_ends pairs _ h
      exact ⟨agreed, mem_cons_of_mem _ hm, he⟩

/-- A poll ends no sender that is undecided on this member and failed on no other. -/
theorem polled_undecided {others} (h : rid ∈ (p.polled now others).1) (hs : p.senders rid = some sender)
    (hu : p.undecided sender now = true) : (rid, TransferPoll.failed.toWire) ∈ p.order.zip others := by
  by_contra hn
  obtain ⟨agreed, hm, he⟩ := concludeAll_ends _ _ h
  obtain ⟨hf, hsu⟩ := polls_undecided _ _ p hs hu hn hm
  exact he.elim hf hsu

theorem polled_subset {others} (h : rid ∈ (p.polled now others).1) : rid ∈ p.order := by
  obtain ⟨agreed, hm, -⟩ := concludeAll_ends _ _ h
  exact (of_mem_zip hm).1

theorem forget_foldl (ended : List Nat) : ∀ p,
    (ended.foldl forget p).state.registrations = p.state.registrations ∧
      (ended.foldl forget p).state.rejected = p.state.rejected ∧
      ∀ room, (room ∉ p.roomsOfRids ended → (ended.foldl forget p).state.destinations room = p.state.destinations room ∧
        (ended.foldl forget p).state.rooms.get room = p.state.rooms.get room) ∧
        (p.state.waiting room = [] → (ended.foldl forget p).state.waiting room = []) := by
  induction ended with
  | nil => exact fun p => ⟨rfl, rfl, fun room => ⟨fun _ => ⟨rfl, rfl⟩, id⟩⟩
  | cons rid ended ih =>
    intro p
    obtain ⟨hg, hj, hro⟩ := ih (p.forget rid)
    cases hse : p.senders rid with
    | none =>
      have hs : p.forget rid = p := by simp [forget, hse]
      rw [hs] at hg hj hro
      have hli : p.roomsOfRids (rid :: ended) = p.roomsOfRids ended := by simp [roomsOfRids, hse]
      rw [foldl_cons, hs, hli]
      exact ⟨hg, hj, hro⟩
    | some sn =>
      have hfr : (p.forget rid).state.destinations = Function.update p.state.destinations sn.room [] ∧
          (p.forget rid).state.rooms = p.state.rooms.remove sn.room ∧
          (p.forget rid).state.registrations = p.state.registrations ∧
          (p.forget rid).state.rejected = p.state.rejected ∧
          (p.forget rid).senders = Function.update p.senders rid none := by
        simp [forget, hse, clear]
      obtain ⟨hd, htable, hg', hj', hsn⟩ := hfr
      refine ⟨hg.trans hg', hj.trans hj', fun room => ⟨fun hn => ?_, fun hw => ?_⟩⟩
      · have hr : room ≠ sn.room := fun hq => hn (by simp [roomsOfRids, hse, hq])
        have hl : room ∉ (p.forget rid).roomsOfRids ended := fun hm => hn (by
          obtain ⟨rid', hri', hf⟩ := mem_filterMap.mp hm
          refine mem_filterMap.mpr ⟨rid', mem_cons_of_mem _ hri', ?_⟩
          rw [hsn] at hf
          by_cases hs : rid' = rid
          · rw [hs, update_self] at hf
            cases hf
          · rwa [update_of_ne hs] at hf)
        obtain ⟨hd', ht'⟩ := (hro room).1 hl
        refine ⟨hd'.trans ?_, ht'.trans ?_⟩
        · rw [hd, update_of_ne hr]
        · rw [htable, get_remove_of_ne hr]
      · refine (hro room).2 ?_
        by_cases hr : room = sn.room
        · simp [waiting, hd, hr]
        · rw [← hw]
          exact waiting_congr (by rw [hd, update_of_ne hr])

end PrefillPeer

/-! ## Steps -/

namespace PrefillRun

variable {h : PrefillRun} {room : Nat}

theorem RoomLedger.alike (hd : h.RoomLedger room) {peer} (hl : h.peer.Alike peer) :
    RoomLedger { h with peer := peer } room := by
  unfold RoomLedger at hd ⊢
  have hr : ∀ session, (peer.state.routeOf session).isSome = (h.peer.state.routeOf session).isSome := fun session =>
    congrArg Option.isSome (routeOf_congr hl.registrations hl.rejected)
  simp only [hr]
  rw [waiting_congr (congrFun hl.destinations room),
    show peer.state.rooms.get room = h.peer.state.rooms.get room from congrFun hl.states room]
  exact hd

theorem ended_waiting {now others} (h' : h.Orderly (.poll now others))
    (hr : room ∈ (h.peer.polled now others).2.roomsOfRids (h.peer.polled now others).1) :
    h.peer.state.waiting room = [] := by
  obtain ⟨rid, he, hs⟩ := mem_filterMap.mp hr
  rw [(PrefillPeer.polled_alike now others).rooms, Option.map_eq_some_iff] at hs
  obtain ⟨sender, hs, rfl⟩ := hs
  by_contra hw
  obtain ⟨hu, hn⟩ := h' rid (PrefillPeer.polled_subset he) sender hs hw
  exact hn (PrefillPeer.polled_undecided he hs hu)

theorem Balanced.step_registration (hb : h.Balanced) {session rg rms now} {other : Outcome}
    (hor : h.Orderly (.registration session rg rms now)) (hp : h.step (.registration session rg rms now) = some other) :
    other.after.Balanced ∧ ∀ room ∈ other.dropped, other.atDrop.Told room := by
  by_cases hc : (h.peer.state.registrations session).any (· ≠ rg) = true
  · have hrj : h.peer.state.handleRegistration session rg rms now =
        h.peer.state.rejectSession session (rg.endpoint, rg.port)
          "conflicting registration for an active CachePD session" rms now := if_pos hc
    simp only [PrefillRun.step, hrj, hc, if_true, Option.some.injEq] at hp
    subst hp
    obtain ⟨hb', hw⟩ := hb.rejectSession (rg.endpoint, rg.port)
      "conflicting registration for an active CachePD session" now hor
    exact ⟨hb', fun room hr => (hb' room).told (hw room hr)⟩
  · have hre : h.peer.state.handleRegistration session rg rms now = ([], { h.peer.state with
        rejected := Function.update h.peer.state.rejected session none
        registrations := Function.update h.peer.state.registrations session (some rg) }) := if_neg hc
    simp only [PrefillRun.step, hre, hc, Option.some.injEq] at hp
    subst hp
    refine ⟨fun room => ?_, by simp [dropping]⟩
    have hl := (hb.register session rg) room
    simpa [RoomLedger, dropping, update] using hl

theorem Balanced.step_expire (hb : h.Balanced) {rms now ttl} {other : Outcome} (hor : h.Orderly (.expire rms now ttl))
    (hp : h.step (.expire rms now ttl) = some other) :
    other.after.Balanced ∧ ∀ room ∈ other.dropped, other.atDrop.Told room := by
  simp only [PrefillRun.step] at hp
  split at hp
  · next hei =>
    cases hp
    refine ⟨?_, fun room hr session hs _ => ?_⟩
    · obtain ⟨hg, hj, hro⟩ := clear_foldl rms h.peer.state
      refine Balanced.forgetRooms (fun room hn => ?_) fun room hr => (hro room).2 (.inl hr)
      obtain ⟨hd, ht⟩ := (hro room).1 hn
      have hl := hb room
      unfold RoomLedger at hl ⊢
      simp only [update, filter_expired hei.1, hn, if_false, append_nil, filter_nil,
        routeOf_congr hg hj, waiting_congr hd, ht]
      exact hl
    · change timesTold (h.told room ++ (rms.flatMap h.peer.state.expireRoom).filter (·.room = room)) session = 1
      rw [filter_expired hei.1, if_pos hr]
      exact (hb room).expire (hor room hr) session hs
  · cases hp

theorem Balanced.step_poll (hb : h.Balanced) {now others} {other : Outcome} (hor : h.Orderly (.poll now others))
    (hp : h.step (.poll now others) = some other) :
    other.after.Balanced ∧ ∀ room ∈ other.dropped, other.atDrop.Told room := by
  simp only [PrefillRun.step, Option.some.injEq] at hp
  subst hp
  have hal : h.peer.Alike (h.peer.polled now others).2 := PrefillPeer.polled_alike now others
  have hw : ∀ room ∈ (h.peer.polled now others).2.roomsOfRids (h.peer.polled now others).1,
      (h.peer.polled now others).2.state.waiting room = [] := fun room hr =>
    (waiting_congr (congrFun hal.destinations room)).trans (ended_waiting hor hr)
  obtain ⟨hg, hj, hro⟩ := PrefillPeer.forget_foldl (h.peer.polled now others).1 (h.peer.polled now others).2
  refine ⟨Balanced.forgetRooms (fun room hn => ?_) fun room hr => (hro room).2 (hw room hr),
    fun room hr => ((hb room).alike hal).told (hw room hr)⟩
  obtain ⟨hd, ht⟩ := (hro room).1 hn
  have hl := (hb room).alike hal
  unfold RoomLedger at hl ⊢
  simp only [routeOf_congr hg hj, waiting_congr hd, ht]
  exact hl

theorem Balanced.step (hb : h.Balanced) {ev} {other : Outcome} (hor : h.Orderly ev) (hp : h.step ev = some other) :
    other.after.Balanced ∧ ∀ room ∈ other.dropped, other.atDrop.Told room := by
  cases ev with
  | registration => exact hb.step_registration hor hp
  | badRegistration session rt reason rms now =>
    cases hp
    obtain ⟨hb', hw⟩ := hb.rejectSession rt reason now hor
    exact ⟨hb', fun room hr => (hb' room).told (hw room hr)⟩
  | preallocation room session isd iv now =>
    cases hp
    exact hb.preallocate hor.1 hor.2
  | abort room reason now =>
    cases hp
    have hb' := hb.abort hor reason now
    refine ⟨hb', fun room' hr' => ?_⟩
    obtain rfl := mem_singleton.mp hr'
    exact (hb' room').told (abortRoom_aborts reason now).waiting
  | transfer room =>
    cases hp
    exact ⟨hb, by simp [plain]⟩
  | join room =>
    simp only [PrefillRun.step] at hp
    split at hp
    · cases hp
      exact ⟨hb.join hor, by simp [plain]⟩
    · cases hp
  | report room =>
    simp only [PrefillRun.step] at hp
    split at hp
    · cases hp
      exact ⟨hb, by simp [plain]⟩
    · cases hp
      exact ⟨hb.report hor.1 hor.2, by simp [plain]⟩
  | reported room =>
    simp only [PrefillRun.step] at hp
    split at hp
    · next hrp =>
      cases hp
      have hb' := hb.reported hrp
      refine ⟨hb', fun room' hr' => ?_⟩
      obtain rfl := mem_singleton.mp hr'
      exact (hb' room').told (reported_waiting _)
    · cases hp
  | expire => exact hb.step_expire hor hp
  | register rid room now =>
    cases hp
    refine ⟨?_, by simp [plain]⟩
    refine hb.change room (fun _ => rfl) (fun room' hne => ⟨rfl, rfl, rfl, rfl, get_update_of_ne hne⟩) ?_
    have hl := hb room
    refine hl.setPoll advanced_stays fun hf => hl.ended ?_
    change (h.peer.state.rooms.update room .bootstrapping).get room = some .failed at hf
    rw [get_update_self, Option.some.injEq] at hf
    exact (advanced_eq_failed hf).resolve_right (by decide)
  | poll => exact hb.step_poll hor hp

theorem balanced_of_steps {bt} (hr : Relation.ReflTransGen Step (start bt) h) : h.Balanced := by
  induction hr with
  | refl => exact balanced_start bt
  | tail _ hs ih =>
    obtain ⟨ev, other, hd, hs, rfl⟩ := hs
    exact (ih.step hd hs).1

end PrefillRun

end TokenSpeed.Transfer

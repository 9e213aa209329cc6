import TokenSpeed.Transfer.Lemmas.Copies

/-!
# Runs of a Decode rank with its Prefill ranks

A status under way or heard comes from a rank that has written its last to the room, and a released room is
one that every rank of its route is done with, or that no rank was ever told of.
-/

namespace TokenSpeed.Transfer.Pair

open Function List Option DecodeRun

open RoomWork (Idle Spent)

/-- The pre-allocations of a rank that are still to arrive. -/
def pending (h : Pair) (rank : Int) : List Nat := h.preallocations rank ++ h.admitted

/-- A rank is done with a room: its pre-allocation has arrived, and the rank writes to it no more. -/
structure Done (h : Pair) (rank : Int) (room : Nat) : Prop where
  named : h.named room = true
  arrived : room ∉ h.pending rank
  spent : Spent (h.works rank room)

structure Held (h : Pair) : Prop where
  sane : h.decode.Sane
  expected : ∀ room ranks, h.decode.peer.state.expected room = some ranks → ranks = h.route room
  sound : ∀ rank room, (h.works rank room).Sound
  busy : ∀ rank room, ¬ Idle (h.works rank room) → h.named room = true ∧ rank ∈ h.route room
  pending : ∀ rank, (h.pending rank).Nodup ∧ ∀ room ∈ h.pending rank, h.named room = true ∧ Idle (h.works rank room)
  preallocations : ∀ rank, ∀ room ∈ h.preallocations rank, rank ∈ h.route room
  statuses : ∀ rank, ∀ m ∈ h.statuses rank, m.prefillRank = rank ∧ h.Done rank m.room
  heard : ∀ room, ∀ m ∈ h.decode.heard room, h.Done m.prefillRank room
  released : ∀ room, h.released room = true → h.decode.used room = true ∧ h.decode.peer.state.tracked room = false ∧
    (h.named room = true → ∀ rank ∈ h.route room, h.Done rank room)

variable {h h' : Pair}

theorem Done.mono {rank room} (hd : h.Done rank room) (hn : h'.named room = true)
    (hp : h'.pending rank ⊆ h.pending rank) (hw : h'.works rank room = h.works rank room) : h'.Done rank room :=
  ⟨hn, fun hm => hd.arrived (hp hm), hw ▸ hd.spent⟩

/-- What the Decode rank does and what is under way change nothing about a room's work. -/
theorem Done.mono' {rank room} {decode statuses released} (hd : h.Done rank room) :
    Done { h with decode := decode, statuses := statuses, released := released } rank room :=
  hd.mono hd.named (List.Subset.refl _) rfl

/-! ## Prefill ranks -/

theorem update_works {works : Int → Nat → RoomWork} {rank rank' room room' w} :
    update works rank (update (works rank) room w) rank' room' =
      if rank' = rank ∧ room' = room then w else works rank' room' := by
  by_cases hr : rank' = rank
  · subst hr
    by_cases hm : room' = room
    · subst hm
      simp
    · simp [hm]
  · simp [hr]

section

variable (hhe : h.Held)
include hhe

/-- One rank works on one room, after some of its pre-allocations have arrived. -/
theorem Held.work {rank room sent} {w : RoomWork} {arrived : Int → List Nat}
    (hsub : ∀ rank', arrived rank' <+ h.preallocations rank') (hsound : w.Sound)
    (hbusy : ¬ Idle w → h.named room = true ∧ rank ∈ h.route room)
    (hidle : room ∈ arrived rank ++ h.admitted → Idle w) (hspent : h.Done rank room → Spent w)
    (hsent : sent ≠ [] → h.named room = true ∧ room ∉ arrived rank ++ h.admitted ∧ Spent w) :
    Held { h with
      preallocations := arrived
      works := update h.works rank (update (h.works rank) room w)
      statuses := update h.statuses rank (h.statuses rank ++ sent.map (message rank room)) } := by
  set h' : Pair := { h with
      preallocations := arrived
      works := update h.works rank (update (h.works rank) room w)
      statuses := update h.statuses rank (h.statuses rank ++ sent.map (message rank room)) } with hh
  have hpend : ∀ rank', h'.pending rank' <+ h.pending rank' := fun rank' => (hsub rank').append_right _
  have hworks : ∀ rank' room', h'.works rank' room' =
      if rank' = rank ∧ room' = room then w else h.works rank' room' := fun _ _ => update_works
  have hdone : ∀ rank' room', h.Done rank' room' → h'.Done rank' room' := fun rank' room' hd => by
    refine ⟨hd.named, fun hm => hd.arrived ((hpend rank').subset hm), ?_⟩
    rw [hworks]
    split
    · next he =>
      obtain ⟨rfl, rfl⟩ := he
      exact hspent hd
    · exact hd.spent
  refine ⟨hhe.sane, hhe.expected, fun rank' room' => ?_, fun rank' room' hb => ?_,
    fun rank' => ⟨?_, fun room' hm => ?_⟩,
    fun rank' room' hm => hhe.preallocations rank' room' ((hsub rank').subset hm), fun rank' m hm => ?_,
    fun room' m hm => hdone _ _ (hhe.heard room' m hm), fun room' hl => ?_⟩
  · rw [hworks]
    split
    · exact hsound
    · exact hhe.sound rank' room'
  · rw [hworks] at hb
    split at hb
    · next he =>
      obtain ⟨rfl, rfl⟩ := he
      exact hbusy hb
    · exact hhe.busy rank' room' hb
  · exact (hhe.pending rank').1.sublist (hpend rank')
  · obtain ⟨hn, hi⟩ := (hhe.pending rank').2 room' ((hpend rank').subset hm)
    refine ⟨hn, ?_⟩
    rw [hworks]
    split
    · next he =>
      obtain ⟨rfl, rfl⟩ := he
      exact hidle hm
    · exact hi
  · rcases mem_update_cases hm with ⟨rfl, hm⟩ | ⟨-, hm⟩
    · rcases mem_append.mp hm with hm | hm
      · exact ⟨(hhe.statuses rank' m hm).1, hdone _ _ (hhe.statuses rank' m hm).2⟩
      · obtain ⟨status, hs, rfl⟩ := mem_map.mp hm
        obtain ⟨hn, ha, hw⟩ := hsent (ne_nil_of_mem hs)
        refine ⟨rfl, hn, ha, ?_⟩
        rw [hworks]
        simpa [message] using hw
    · exact ⟨(hhe.statuses rank' m hm).1, hdone _ _ (hhe.statuses rank' m hm).2⟩
  · obtain ⟨hu, ht, hd⟩ := hhe.released room' hl
    exact ⟨hu, ht, fun hn rank' hr => hdone _ _ (hd hn rank' hr)⟩

theorem Held.workStep {rank room event} (hs : h.workStep rank room event = some h')
    (hor : (h.works rank room).Orderly event) : h'.Held := by
  obtain ⟨⟨sent, w⟩, hw, rfl⟩ := map_eq_some_iff.mp hs
  have hwo := RoomWork.step_works (hhe.sound rank room) hor hw
  have hv : ∀ valid complete, event ≠ .preallocation valid complete := by
    rintro valid complete rfl
    exact hor
  -- an idle room stays idle and says nothing
  have hi : Idle (h.works rank room) → Idle w ∧ sent = [] := fun hi => RoomWork.step_idle hi hv hw
  refine hhe.work (fun _ => .refl _) hwo.sound (fun hb => hhe.busy rank room fun hn => hb (hi hn).1)
    (fun hm => (hi ((hhe.pending rank).2 room hm).2).1) (fun hd => hwo.spent hd.spent) fun hne => ?_
  have hb : ¬ Idle (h.works rank room) := fun hn => hne (hi hn).2
  exact ⟨(hhe.busy rank room hb).1, fun hm => hb ((hhe.pending rank).2 room hm).2, hwo.sent hne⟩

theorem Held.preallocation {rank valid complete} (hs : h.step (.preallocation rank valid complete) = some h') :
    h'.Held := by
  simp only [step] at hs
  split at hs
  · cases hs
  · next room rest hp =>
    obtain ⟨⟨sent, w⟩, hw, rfl⟩ := map_eq_some_iff.mp hs
    have hm : room ∈ h.pending rank := mem_append_left _ (hp ▸ mem_cons_self)
    obtain ⟨hn, hi⟩ := (hhe.pending rank).2 room hm
    obtain ⟨hso, hse⟩ := RoomWork.preallocation_works (hhe.sound rank room) hi hw
    -- the room was pre-allocated once
    have ha : room ∉ update h.preallocations rank rest rank ++ h.admitted := by
      have hd := (hhe.pending rank).1
      rw [Pair.pending, hp, cons_append, nodup_cons] at hd
      rw [update_self]
      exact hd.1
    refine hhe.work (fun rank' => ?_) hso (fun _ => ⟨hn, hhe.preallocations rank room (hp ▸ mem_cons_self)⟩)
      (fun hm => absurd hm ha) (fun hd => absurd hm hd.arrived) fun hne => ⟨hn, ha, hse hne⟩
    change update h.preallocations rank rest rank' <+ h.preallocations rank'
    by_cases hr : rank' = rank
    · subst hr
      rw [update_self, hp]
      exact sublist_cons_self ..
    · rw [update_of_ne hr]

/-! ## The Decode rank -/

theorem Held.decode {ev out} {decode : DecodeRun}
    (hs : h.decode.step ev = some (out, decode)) (hsa : decode.Sane)
    (hw : ∀ rm, h.decode.used rm = true →
      decode.used rm = true ∧ h.decode.peer.state.Onward decode.peer.state rm)
    (hr : ∀ ranks rm, ev = .connected ranks → h.decode.peer.connects.head?.map Prod.fst = some rm →
      ranks = h.route rm)
    (hme : ∀ m, ev = .status m → h.Done m.prefillRank m.room) : Held { h with decode := decode } where
  sane := hsa
  expected := fun rm ranks hp => by
    rcases step_expected hs hp with hb | ⟨hv, hh⟩
    · exact hhe.expected rm ranks hb
    · exact hr ranks rm hv hh
  sound := hhe.sound
  busy := hhe.busy
  pending := hhe.pending
  preallocations := hhe.preallocations
  statuses := fun rank m hm => ⟨(hhe.statuses rank m hm).1, (hhe.statuses rank m hm).2.mono'⟩
  heard := fun rm m hm => by
    rcases step_heard hs hm with hb | ⟨hv, rfl⟩
    · exact (hhe.heard rm m hb).mono'
    · exact (hme m hv).mono'
  released := fun rm hl => by
    obtain ⟨hu, ht, hd⟩ := hhe.released rm hl
    obtain ⟨hu', hla⟩ := hw rm hu
    exact ⟨hu', hla.untracked ht, fun hn rank hr => (hd hn rank hr).mono'⟩

theorem Held.decodeStep {ev} (hso : h.decode.Sound ev)
    (hr : ∀ ranks rm, ev = .connected ranks → h.decode.peer.connects.head?.map Prod.fst = some rm →
      ranks = h.route rm) (hme : ∀ m, ev ≠ .status m) (hs : h.decodeStep ev = some h') : h'.Held := by
  obtain ⟨⟨out, dc⟩, hd, rfl⟩ := map_eq_some_iff.mp hs
  exact hhe.decode hd (hhe.sane.step hso hd) (fun rm hu => onward_step hu hso hd)
    hr (fun m hm => absurd hm (hme m))

theorem Held.receive {room index now} (hor : h.named room = false) (hs : h.step (.receive room index now) = some h') :
    h'.Held := by
  simp only [step] at hs
  obtain ⟨h1, hc, rfl⟩ := map_eq_some_iff.mp hs
  have hso : h.decode.Sound (.receive room index now) := trivial
  have hhe1 := hhe.decodeStep hso (by simp) (by simp) hc
  obtain ⟨⟨out, decode⟩, hc, rfl⟩ := map_eq_some_iff.mp hc
  split
  · next had =>
    -- a room that was not named is not pending and has no work
    have hne : ∀ {room'}, h.named room' = true → room' ≠ room := by
      rintro _ hn rfl
      rw [hor] at hn
      cases hn
    have hnamed : ∀ {room'}, h.named room' = true → update h.named room true room' = true := fun {room'} hn => by
      rwa [update_of_ne (hne hn)]
    have hfresh : ∀ rank, room ∉ h.pending rank := fun rank hm => hne ((hhe.pending rank).2 room hm).1 rfl
    have hdone : ∀ {rank room'}, h.Done rank room' → Done { h with
        decode := decode, admitted := h.admitted ++ [room], named := update h.named room true } rank room' := by
      refine fun hd => ⟨hnamed hd.named, fun hm => ?_, hd.spent⟩
      rw [Pair.pending, ← append_assoc] at hm
      rcases mem_append.mp hm with hm | hm
      · exact hd.arrived hm
      · exact hne hd.named (mem_singleton.mp hm)
    refine ⟨hhe1.sane, hhe1.expected, hhe1.sound, fun rank room' hb => ?_, fun rank => ?_, hhe1.preallocations,
      fun rank m hm => ⟨(hhe.statuses rank m hm).1, hdone (hhe.statuses rank m hm).2⟩, fun room' m hm => ?_,
      fun room' hl => ?_⟩
    · exact ⟨hnamed (hhe.busy rank room' hb).1, (hhe.busy rank room' hb).2⟩
    · rw [Pair.pending, ← append_assoc, forall_mem_append, forall_mem_singleton]
      refine ⟨(hhe.pending rank).1.append (nodup_singleton _) (by simpa using hfresh rank), fun room' hm => ?_,
        update_self .., ?_⟩
      · obtain ⟨hn, hi⟩ := (hhe.pending rank).2 room' hm
        exact ⟨hnamed hn, hi⟩
      · by_contra hb
        exact hne (hhe.busy rank room hb).1 rfl
    · exact hdone (hhe1.heard room' m hm).mono'
    · obtain ⟨hu, ht, hd⟩ := hhe1.released room' hl
      refine ⟨hu, ht, fun hn rank hr => hdone (hd ?_ rank hr).mono'⟩
      -- a released room is not tracked, so it is none of those named later
      have hne : room' ≠ room := by
        rintro rfl
        have := (hhe.released room' hl).2.1
        simp [admits, this] at had
      change update h.named room true room' = true at hn
      rwa [update_of_ne hne] at hn
  · exact hhe1

theorem Held.done_of_landed {rid} (hs : h.decode.peer.AtSuccess rid) {receiver : Receiver}
    (hc : h.decode.peer.receivers rid = some receiver) : ∀ rank ∈ h.route receiver.room, h.Done rank receiver.room := by
  intro rank hr
  obtain ⟨receiver', hc', ranks, hp, hre, _⟩ := hhe.sane.answered hs
  rw [hc, some.injEq] at hc'
  subst hc'
  rw [← hhe.expected _ ranks hp, ← hre] at hr
  obtain ⟨_, _, _, m, hm, _, rfl⟩ := (hhe.sane.rooms receiver.room).answered rank hr
  exact hhe.heard receiver.room m hm

theorem Held.done_of_failed {rid now others events} {peer : DecodePeer} (hor : h.Orderly (.poll now others))
    (hp : h.decode.peer.poll now others = .ok (events, peer)) (hf : .failed rid ∈ events) {receiver : Receiver}
    (hc : h.decode.peer.receivers rid = some receiver) (hn : h.named receiver.room = true) :
    ∀ rank ∈ h.route receiver.room, h.Done rank receiver.room := by
  obtain ⟨ho, hg⟩ := DecodePeer.poll_failed hp hf
  have hh : h.Heard receiver.room := by
    by_contra hh
    obtain ⟨hgo, hz⟩ := hor rid ho receiver hc hn hh
    exact hz (hg ⟨receiver, hc, hgo⟩)
  intro rank hr
  obtain ⟨m, hm, rfl⟩ := hh rank hr
  exact hhe.heard receiver.room m hm

theorem Held.poll {now others} (hor : h.Orderly (.poll now others)) (hs : h.step (.poll now others) = some h') :
    h'.Held := by
  simp only [step] at hs
  obtain ⟨⟨out, decode⟩, hd, rfl⟩ := map_eq_some_iff.mp hs
  have hhe1 : Held { h with decode := decode } := by
    have hn : h.decodeStep (.poll now others) = some { h with decode := decode } := by
      rw [Pair.decodeStep, hd, map_some]
    have hso : h.decode.Sound (.poll now others) := trivial
    exact hhe.decodeStep hso (by simp) (by simp) hn
  refine ⟨hhe1.sane, hhe1.expected, hhe.sound, hhe.busy, hhe.pending, hhe.preallocations,
    fun rank m hm => ⟨(hhe.statuses rank m hm).1, (hhe.statuses rank m hm).2.mono'⟩,
    fun room m hm => (hhe1.heard room m hm).mono', fun room hl => ?_⟩
  rcases (Bool.or_eq_true ..).mp hl with hb | hw
  · obtain ⟨hu, ht, hd⟩ := hhe1.released room hb
    exact ⟨hu, ht, fun hn rank hr => (hd hn rank hr).mono'⟩
  · obtain ⟨event, hv, hr⟩ := mem_filterMap.mp (of_decide_eq_true hw)
    obtain ⟨rid, hen, hr⟩ := bind_eq_some_iff.mp hr
    obtain ⟨receiver, hc, rfl⟩ := map_eq_some_iff.mp hr
    simp only [DecodeRun.step] at hd
    split at hd
    · next hp =>
      cases hd
      refine ⟨?_, DecodePeer.poll_ends hp hv hen hr, fun hn rank hk => Done.mono' (h := h) ?_⟩
      · cases hu : h.decode.used receiver.room with
        | true => rfl
        | false => exact absurd rfl ((hhe.sane.unused _ hu).receivers rid receiver hc)
      · cases event with
        | bootstrapped => cases hen
        | failed rid' =>
          cases hen
          exact hhe.done_of_failed hor hp hv hc hn rank hk
        | remotePrefillDone done =>
          cases hen
          exact hhe.done_of_landed ((DecodePeer.poll_ok hp).2 done hv) hc rank hk
    · cases hd

/-! ## Steps -/

theorem Held.status {rank} (hs : h.step (.status rank) = some h') : h'.Held := by
  simp only [step] at hs
  split at hs
  · cases hs
  · next m rest ht =>
    have hp : Held { h with statuses := update h.statuses rank rest } := by
      refine ⟨hhe.sane, hhe.expected, hhe.sound, hhe.busy, hhe.pending, hhe.preallocations, fun rank' m' hm => ?_,
        fun room m hm => (hhe.heard room m hm).mono', fun room hl => ?_⟩
      · have hm' : m' ∈ h.statuses rank' := by
          rcases mem_update_cases hm with ⟨rfl, hu⟩ | ⟨-, hu⟩
          · rw [ht]
            exact mem_cons_of_mem _ hu
          · exact hu
        exact ⟨(hhe.statuses rank' m' hm').1, (hhe.statuses rank' m' hm').2.mono'⟩
      · obtain ⟨hu, ht, hd⟩ := hhe.released room hl
        exact ⟨hu, ht, fun hn rank hr => (hd hn rank hr).mono'⟩
    obtain ⟨⟨out, decode⟩, hd, rfl⟩ := map_eq_some_iff.mp hs
    obtain ⟨hse, hdo⟩ := hhe.statuses rank m (ht ▸ mem_cons_self)
    refine hp.decode hd ?_ (fun room hu => ?_) (by simp) fun m' hm => ?_
    · cases hd
      exact hhe.sane.status m
    · cases hd
      exact ⟨hu, DecodeState.onward_apply m⟩
    · cases hm
      rw [hse]
      exact hdo.mono'

theorem Held.preallocate (hs : h.step .preallocate = some h') : h'.Held := by
  simp only [step] at hs
  split at hs
  · cases hs
  · next room rest hd =>
    cases hs
    have hsub : ∀ rank, (h.preallocations rank ++ if rank ∈ h.route room then [room] else []) ++ rest <+
        h.pending rank := fun rank => by
      rw [Pair.pending, hd, append_assoc]
      refine .append_left ?_ _
      split
      · exact .refl _
      · exact sublist_cons_self ..
    have hdone : ∀ {rank room'}, h.Done rank room' → Done { h with
        admitted := rest
        preallocations := fun rank => h.preallocations rank ++ if rank ∈ h.route room then [room] else [] } rank
          room' :=
      fun hd => hd.mono hd.named (hsub _).subset rfl
    refine ⟨hhe.sane, hhe.expected, hhe.sound, hhe.busy, fun rank => ?_, fun rank room' hr => ?_,
      fun rank m hm => ⟨(hhe.statuses rank m hm).1, hdone (hhe.statuses rank m hm).2⟩,
      fun room m hm => hdone (hhe.heard room m hm), fun room hl => ?_⟩
    · exact ⟨(hhe.pending rank).1.sublist (hsub rank),
        fun room' hm => (hhe.pending rank).2 room' ((hsub rank).subset hm)⟩
    · rcases mem_append.mp hr with hr | hr
      · exact hhe.preallocations rank room' hr
      · obtain ⟨hk, hr⟩ := mem_ite_nil_right.mp hr
        rwa [mem_singleton.mp hr]
    · obtain ⟨hu, ht, hd⟩ := hhe.released room hl
      exact ⟨hu, ht, fun hn rank hr => hdone (hd hn rank hr)⟩

theorem Held.step {event} (hd : h.Orderly event) (hs : h.step event = some h') : h'.Held := by
  cases event with
  | register rid room addr =>
    have hso : h.decode.Sound (.register rid room addr) := hd
    exact hhe.decodeStep hso (by simp) (by simp) hs
  | connected =>
    obtain ⟨⟨room, addr⟩, hh, hs⟩ := bind_eq_some_iff.mp hs
    have hso : h.decode.Sound (.connected (h.route room)) := trivial
    refine hhe.decodeStep hso (fun ranks room' hv hr => ?_) (by simp) hs
    cases hv
    rw [hh, map_some, some.injEq] at hr
    rw [← hr]
  | connectFailed reason =>
    have hso : h.decode.Sound (.connectFailed reason) := trivial
    exact hhe.decodeStep hso (by simp) (by simp) hs
  | loseNode addr =>
    have hso : h.decode.Sound (.loseNode addr) := trivial
    exact hhe.decodeStep hso (by simp) (by simp) hs
  | prune addr =>
    have hso : h.decode.Sound (.prune addr) := trivial
    exact hhe.decodeStep hso (by simp) (by simp) hs
  | receive room index now => exact hhe.receive hd hs
  | preallocate => exact hhe.preallocate hs
  | poll now others => exact hhe.poll hd hs
  | status rank => exact hhe.status hs
  | preallocation rank valid complete => exact hhe.preallocation hs
  | work rank room event =>
    cases event with
    | preallocation => cases hs
    | enqueue | abort | expire => exact hhe.workStep hs hd
    | register | take | issue | complete | sent | report | reported | giveUp | drop => exact hhe.workStep hs trivial

end

theorem Held.done (hhe : h.Held) {room} (hl : h.released room = true) (rank) : (h.works rank room).current = none := by
  by_cases hd : Idle (h.works rank room)
  · exact hd.2.2
  · obtain ⟨hn, hr⟩ := hhe.busy rank room hd
    exact ((hhe.released room hl).2.2 hn rank hr).spent.1

end TokenSpeed.Transfer.Pair

import TokenSpeed.Transfer.Embedding
import Mathlib.Data.List.Nodup
import TokenSpeed.Logic.Runs

/-!
# Rooms of an encode rank's sender

An event touches one room, and an expiry each room apart, so the invariant is one of each room: its entry,
jobs, statuses and counts.
-/

namespace TokenSpeed.Transfer.EmbeddingSender

open Function List

def RoomTidy (room : Nat) (entry : Option SendRoom) (jobs : List SendJob) (told : List (Nat × TransferPoll))
    (begins concluded : Nat) : Prop :=
  match entry with
  | none => jobs = [] ∧ begins = concluded
  | some e =>
    (e.infos.map (·.session)).Nodup ∧ told = [] ∧ begins = concluded + (if e.begun then 1 else 0) ∧
      (e.parked.isSome → e.begun = true) ∧
      (if e.sending then e.begun = true ∧ e.parked = none ∧ jobs = [⟨room, e.infos⟩] else jobs = [])

def jobsOf (h : EmbeddingSender) (room : Nat) : List SendJob := h.jobs.filter (·.room = room)

def TidyAt (h : EmbeddingSender) (room : Nat) : Prop :=
  RoomTidy room (h.rooms room) (h.jobsOf room) (h.told room) (h.begins room) (h.concluded room)

structure ConcludesAt (h : EmbeddingSender) (event : SendEvent) (h' : EmbeddingSender) (room : Nat) : Prop where
  tidy : h'.TidyAt room
  free : h.concluded room < h'.concluded room → h'.rooms room = none
  told : ∀ entry, h.rooms room = some entry → h'.rooms room = none →
    (entry.begun = false ∧ entry.sending = false ∧ entry.parked = none) ∧ (∃ now, event = .expire now) ∨
      ∀ info ∈ entry.infos, h'.toldTo room info.session = [.failed] ∨
        h'.toldTo room info.session = [.success] ∧ ∃ job written now, event = .work job true written now ∧
          written info.session = true
  writing : ∀ entry, h.rooms room = some entry → entry.sending = true →
    (∃ job valid written now, event = .work job valid written now ∧ job.room = room) ∨
      h'.rooms room = some entry ∧ h'.jobsOf room = h.jobsOf room

variable {h h' : EmbeddingSender} {event : SendEvent} {room room' now : Nat} {entry : SendRoom}

theorem concludes_of_at (hl : ∀ room, ConcludesAt h event h' room) : Concludes h event h' where
  once := fun room => by
    have ht := (hl room).tidy
    simp only [TidyAt, RoomTidy] at ht
    cases hen : h'.rooms room with
    | none =>
      rw [hen] at ht
      omega
    | some entry =>
      rw [hen] at ht
      exact le_of_le_of_eq (Nat.le_add_right _ _) ht.2.2.1.symm
  free := fun room hm => by
    have hn := (hl room).free hm
    have ht := (hl room).tidy
    simp only [TidyAt, RoomTidy, hn] at ht
    refine ⟨hn, fun job hj hr => ?_⟩
    have hme : job ∈ h'.jobsOf room := mem_filter.mpr ⟨hj, decide_eq_true hr⟩
    rw [ht.1] at hme
    cases hme
  told := fun room => (hl room).told
  writing := fun room => (hl room).writing

theorem concludesAt_of_same (ht : h.TidyAt room) (hr : h'.rooms room = h.rooms room)
    (hj : h'.jobsOf room = h.jobsOf room) (hto : h'.told room = h.told room) (hb : h'.begins room = h.begins room)
    (hc : h'.concluded room = h.concluded room) : ConcludesAt h event h' room where
  tidy := by
    unfold TidyAt
    rw [hr, hj, hto, hb, hc]
    exact ht
  free := fun hm => by omega
  told := fun entry hen hn => by rw [hr, hen] at hn; cases hn
  writing := fun entry hen _ => .inr ⟨hr.trans hen, hj⟩

theorem concludesAt_of_some (ht : h'.TidyAt room) (hr : h'.rooms room = some entry)
    (hw : ∀ e ∈ h.rooms room, e.sending = false) (hc : h'.concluded room = h.concluded room) :
    ConcludesAt h event h' room where
  tidy := ht
  free := fun hm => by omega
  told := fun _ _ hn => by rw [hr] at hn; cases hn
  writing := fun e he hs => by rw [hw e he] at hs; cases hs

variable {st : TransferPoll} {info : TransferInfo}

theorem statuses_of_session : ∀ {ins : List TransferInfo},
    (ins.map (·.session)).Nodup → info ∈ ins →
      ((ins.map fun i => (i.session, st)).filter (·.1 = info.session)).map (·.2) = [st]
  | first :: rest, hd, hin => by
    simp only [map_cons, nodup_cons] at hd
    rcases mem_cons.mp hin with rfl | hr
    · have hn : (rest.map fun i => (i.session, st)).filter (·.1 = info.session) = [] := by
        refine filter_eq_nil_iff.mpr fun x hx => ?_
        obtain ⟨other, hh, rfl⟩ := mem_map.mp hx
        simp only [decide_eq_true_eq]
        intro hq
        exact hd.1 (hq ▸ mem_map_of_mem hh)
      simp [hn]
    · have hne : first.session ≠ info.session := by
        intro hq
        exact hd.1 (hq ▸ mem_map_of_mem hr)
      rw [map_cons, filter_cons_of_neg (by simpa using hne)]
      exact statuses_of_session hd.2 hr

theorem toldTo_map {ins : List TransferInfo} (hn : (ins.map (·.session)).Nodup)
    (ht : h'.told room = ins.map fun info => (info.session, st)) (hin : info ∈ ins) :
    h'.toldTo room info.session = [st] := by
  unfold toldTo
  rw [ht]
  exact statuses_of_session hn hin

/-! ## Rooms that stay -/

variable {job : SendJob}

theorem entry_cases (h : EmbeddingSender) (room now) :
    h.rooms room = some (h.entry room now) ∨ h.rooms room = none ∧ h.entry room now = { since := now } := by
  unfold entry
  cases h.rooms room with
  | none => exact .inr ⟨rfl, rfl⟩
  | some e => exact .inl rfl

theorem tidy_entry (entry now) (ht : h.TidyAt room) :
    RoomTidy room (some (h.entry room now)) (h.jobsOf room) ((h.put room entry).told room) (h.begins room)
      (h.concluded room) := by
  unfold TidyAt at ht
  rcases entry_cases h room now with hs | ⟨hn, hw⟩
  · simpa [put, hs] using ht
  · rw [hn] at ht
    obtain ⟨hj, hc⟩ := ht
    simp [RoomTidy, put, hn, hw, hj, hc]

theorem put_of_ne (h : EmbeddingSender) (entry) (hn : room' ≠ room) :
    (h.put room entry).rooms room' = h.rooms room' ∧ (h.put room entry).told room' = h.told room' := by
  refine ⟨update_of_ne hn .., ?_⟩
  simp only [put]
  split
  · rfl
  · exact update_of_ne hn ..

/-- An entry is set; the counts follow `begins`. -/
theorem concludesAt_put (entry) (begins : Nat → Nat) (jobs : List SendJob) (hl : ∀ room, h.TidyAt room)
    (hb : ∀ other, other ≠ room → begins other = h.begins other)
    (hj : ∀ other, other ≠ room → jobs.filter (·.room = other) = h.jobsOf other)
    (hw : ∀ e ∈ h.rooms room, e.sending = false)
    (ht : RoomTidy room (some entry) (jobs.filter (·.room = room)) ((h.put room entry).told room) (begins room)
      (h.concluded room))
    (room') : ConcludesAt h event { h.put room entry with begins := begins, jobs := jobs } room' := by
  by_cases hr : room' = room
  · subst hr
    have hro : (h.put room' entry).rooms room' = some entry := update_self ..
    refine concludesAt_of_some ?_ hro hw rfl
    unfold TidyAt
    rw [hro]
    exact ht
  · obtain ⟨hro, hto⟩ := put_of_ne h entry hr
    exact concludesAt_of_same (hl room') hro (hj room' hr) hto (hb room' hr) rfl

theorem begin_concludes (hl : ∀ room, h.TidyAt room) (hb : (h.entry room now).begun = false) (room') :
    ConcludesAt h event { h.put room { h.entry room now with begun := true } with
      begins := update h.begins room (h.begins room + 1) } room' := by
  have hd : ∀ e ∈ h.rooms room, e.sending = false := by
    intro e he
    have ht := hl room
    have hn : h.entry room now = e := by simp [entry, Option.mem_def.mp he]
    rw [hn] at hb
    unfold TidyAt at ht
    rw [Option.mem_def.mp he] at ht
    cases hs : e.sending with
    | false => rfl
    | true => simp [RoomTidy, hs, hb] at ht
  refine concludesAt_put _ _ h.jobs hl (fun other hne => update_of_ne hne ..) (fun _ _ => rfl) hd ?_ room'
  have hn := tidy_entry { h.entry room now with begun := true } now (hl room)
  obtain ⟨hnd, hto, hc, hp, hj⟩ := hn
  rw [hb, if_neg Bool.false_ne_true] at hc
  refine ⟨hnd, hto, by simp [hc], fun _ => rfl, ?_⟩
  split at hj
  · next hs => simp [hj.1] at hb
  · next hs =>
    rw [if_neg hs]
    exact hj

theorem dispatch_concludes (entry : SendRoom) (hl : ∀ room, h.TidyAt room) (hd : ∀ e ∈ h.rooms room, e.sending = false)
    (ht : RoomTidy room (some entry) (h.jobsOf room) ((h.put room { entry with sending := true }).told room)
      (h.begins room) (h.concluded room))
    (hn : entry.begun = true ∧ entry.parked = none ∧ entry.sending = false) (room') :
    ConcludesAt h event (h.dispatch room entry) room' := by
  obtain ⟨hb, hp, hs⟩ := hn
  obtain ⟨hnd, hto, hc, _, hj⟩ := ht
  rw [if_neg (by simp [hs])] at hj
  refine concludesAt_put { entry with sending := true } h.begins (h.jobs ++ [⟨room, entry.infos⟩]) hl
    (fun _ _ => rfl) (fun other hne => ?_) hd ⟨hnd, hto, hc, by simp [hp], ?_⟩ room'
  · simp [jobsOf, hne.symm]
  · rw [if_pos rfl]
    refine ⟨hb, hp, ?_⟩
    rw [filter_append]
    change h.jobsOf room ++ _ = _
    simp [hj]

theorem send_concludes (hl : ∀ room, h.TidyAt room) (hd : h.Orderly (.send room now))
    (hs : h.step (.send room now) = some h') (room') : ConcludesAt h event h' room' := by
  simp only [step] at hs
  split at hs
  · cases hs
    exact concludesAt_of_same (hl room') rfl rfl rfl rfl rfl
  · next e he =>
    obtain ⟨hb, hp, hn⟩ := hd e he
    have hid : ∀ e' ∈ h.rooms room, e'.sending = false := fun e' he' => by
      rw [he] at he'
      cases he'
      exact hn
    have ht := hl room
    unfold TidyAt at ht
    rw [he] at ht
    have hto : ∀ entry, (h.put room entry).told room = h.told room := fun entry => by simp [put, he]
    split at hs
    · cases hs
      exact dispatch_concludes _ hl hid (by rw [hto]; exact ht) ⟨hb, hp, hn⟩ room'
    · cases hs
      refine concludesAt_put _ h.begins h.jobs hl (fun _ _ => rfl) (fun _ _ => rfl) hid ?_ room'
      rw [hto]
      obtain ⟨hnd, hni, hc, _, hj⟩ := ht
      refine ⟨hnd, hni, hc, fun _ => hb, ?_⟩
      rw [if_neg (by simp [hn])] at hj ⊢
      exact hj

theorem request_concludes (hl : ∀ room, h.TidyAt room) (hd : h.Orderly (.request room info now))
    (hs : h.step (.request room info now) = some h') (room') : ConcludesAt h event h' room' := by
  simp only [step] at hs
  split at hs
  · cases hs
    exact concludesAt_of_same (hl room') rfl rfl rfl rfl rfl
  · next ht =>
    have hf := hd (by simpa using ht)
    have hid : ∀ e ∈ h.rooms room, e.sending = false := fun e he => (hf e he).1
    have hen : (h.entry room now).sending = false ∧ info.session ∉ (h.entry room now).infos.map (·.session) := by
      rcases entry_cases h room now with hm | ⟨_, hn⟩
      · exact hf _ hm
      · simp [hn]
    have hk : (h.entry room now).infos.filter (·.session ≠ info.session) = (h.entry room now).infos := by
      refine filter_eq_self.mpr fun x hx => ?_
      simp only [decide_eq_true_eq]
      intro hq
      exact hen.2 (hq ▸ mem_map_of_mem hx)
    rw [hk] at hs
    have hg : ∀ entry, RoomTidy room (some { h.entry room now with infos := (h.entry room now).infos ++ [info] })
        (h.jobsOf room) ((h.put room entry).told room) (h.begins room) (h.concluded room) := fun entry => by
      obtain ⟨hnd, hto, hc, hp, hj⟩ := tidy_entry entry now (hl room)
      rw [if_neg (by simp [hen.1])] at hj
      refine ⟨?_, hto, hc, hp, by rw [if_neg (by simp [hen.1])]; exact hj⟩
      simp only [map_append, map_cons, map_nil]
      exact nodup_append.mpr ⟨hnd, by simp, fun a ha b hb hab => hen.2 (by simp_all)⟩
    split at hs
    · next hr =>
      cases hs
      simp only [Bool.and_eq_true] at hr
      obtain ⟨hnd, hto, hc, hp, hj⟩ := hg { { h.entry room now with
        infos := (h.entry room now).infos ++ [info], parked := none } with sending := true }
      have hbe := hp hr.2
      refine dispatch_concludes { h.entry room now with
        infos := (h.entry room now).infos ++ [info], parked := none } hl hid
        ⟨hnd, hto, hc, by simp, ?_⟩ ⟨hbe, rfl, hen.1⟩ room'
      rw [if_neg (by simp [hen.1])] at hj ⊢
      exact hj
    · cases hs
      exact concludesAt_put _ h.begins h.jobs hl (fun _ _ => rfl) (fun _ _ => rfl) hid (hg _) room'

/-! ## Rooms that go -/

theorem concludesAt_conclude (jobs : List SendJob) (tombstones : Nat → Option Nat)
    (hl : ∀ room, h.TidyAt room) (hen : h.rooms room = some entry)
    (hj : ∀ other, other ≠ room → jobs.filter (·.room = other) = h.jobsOf other)
    (hf : jobs.filter (·.room = room) = [])
    (hst : st = .failed ∨ st = .success ∧ ∀ info ∈ entry.infos, ∃ job wr now,
      event = .work job true wr now ∧ wr info.session = true)
    (hw : entry.sending = true → ∃ job vl wr now, event = .work job vl wr now ∧ job.room = room)
    (room') : ConcludesAt h event
      { conclude { h with jobs := jobs } room entry.infos st entry.begun with tombstones := tombstones } room' := by
  have ht := hl room
  unfold TidyAt at ht
  rw [hen] at ht
  obtain ⟨hd, hto, hc, _, _⟩ := ht
  by_cases hr : room' = room
  · subst hr
    have hn : update h.rooms room' none room' = none := update_self ..
    refine ⟨?_, fun _ => hn, fun e he _ => .inr fun info hin => ?_, fun e he hse => .inl ?_⟩
    · unfold TidyAt
      simp only [conclude, hn]
      refine ⟨hf, ?_⟩
      split
      · next hb =>
        rw [if_pos hb] at hc
        rw [update_self]
        exact hc
      · next hb =>
        rw [if_neg hb] at hc
        exact hc
    · rw [hen] at he
      cases he
      have hs : toldTo { conclude { h with jobs := jobs } room' entry.infos st entry.begun with
          tombstones := tombstones } room' info.session = [st] := by
        refine toldTo_map hd ?_ hin
        simp [conclude, hto]
      rcases hst with rfl | ⟨rfl, hwr⟩
      · exact .inl hs
      · exact .inr ⟨hs, hwr info hin⟩
    · rw [hen] at he
      cases he
      exact hw hse
  · refine concludesAt_of_same (hl room') (update_of_ne hr ..) (hj room' hr) (update_of_ne hr ..) rfl ?_
    simp only [conclude]
    split
    · exact update_of_ne hr ..
    · rfl

theorem fail_concludes (hl : ∀ room, h.TidyAt room) (hd : (h.rooms room).any SendRoom.sending = false) (room') :
    ConcludesAt h event (h.failRoom room now) room' := by
  unfold failRoom
  split
  · exact concludesAt_of_same (hl room') rfl rfl rfl rfl rfl
  · next e he =>
    rw [he, Option.any_some] at hd
    have ht := hl room
    unfold TidyAt at ht
    rw [he] at ht
    have hj := ht.2.2.2.2
    rw [if_neg (by simp [hd])] at hj
    exact concludesAt_conclude h.jobs _ hl he (fun _ _ => rfl) hj (.inl rfl) (fun hs => by simp [hd] at hs) room'

theorem room_of_job (ht : ∀ room, h.TidyAt room) (hb : job ∈ h.jobs) :
    ∃ entry, h.rooms job.room = some entry ∧ entry.begun = true ∧ entry.infos = job.infos ∧
      h.jobsOf job.room = [job] := by
  have hr := ht job.room
  have hm : job ∈ h.jobsOf job.room := mem_filter.mpr ⟨hb, decide_eq_true rfl⟩
  unfold TidyAt at hr
  cases hen : h.rooms job.room with
  | none =>
    rw [hen] at hr
    rw [hr.1] at hm
    cases hm
  | some e =>
    rw [hen] at hr
    have hj := hr.2.2.2.2
    split at hj
    · obtain ⟨hg, _, hn⟩ := hj
      rw [hn, mem_singleton] at hm
      exact ⟨e, rfl, hg, by rw [hm], by rw [hn, ← hm]⟩
    · rw [hj] at hm
      cases hm

theorem work_concludes (hl : ∀ room, h.TidyAt room) {vl} {wr : Nat → Bool} (hs : h.step (.work job vl wr now) = some h')
    (room') : ConcludesAt h (.work job vl wr now) h' room' := by
  simp only [step] at hs
  split at hs
  · next hj =>
    obtain ⟨e, he, hb, hif, hn⟩ := room_of_job hl hj
    have hr : ∀ other, (h.jobs.erase job).filter (·.room = other) = (h.jobsOf other).erase job := fun other => by
      exact (erase_filter ..).symm
    have hh : ∀ other, other ≠ job.room → (h.jobs.erase job).filter (·.room = other) = h.jobsOf other :=
      fun other hne => by
      rw [hr, erase_of_not_mem]
      intro hm
      exact hne (of_decide_eq_true (mem_filter.mp hm).2).symm
    have hf : (h.jobs.erase job).filter (·.room = job.room) = [] := by simp [hr, hn]
    split at hs
    · next hw =>
      simp only [Bool.and_eq_true, all_eq_true] at hw
      obtain ⟨rfl, hall_written⟩ := hw
      cases hs
      rw [← hif] at hall_written ⊢
      have hg := concludesAt_conclude _ h.tombstones hl he hh hf
        (.inr ⟨rfl, fun info hin => ⟨job, wr, now, rfl, hall_written info hin⟩⟩) (fun _ => ⟨job, _, _, _, rfl, rfl⟩)
        room'
      rw [hb] at hg
      exact hg
    · cases hs
      simp only [failRoom, he]
      exact concludesAt_conclude _ _ hl he hh hf (.inl rfl) (fun _ => ⟨job, _, _, _, rfl, rfl⟩) room'
  · cases hs

theorem expire_concludes (hal : ∀ room, h.TidyAt room) (room) : ConcludesAt h (.expire now) (h.expire now) room := by
  have ht := hal room
  unfold TidyAt at ht
  cases hen : h.rooms room with
  | none => refine concludesAt_of_same (hal room) ?_ rfl ?_ rfl ?_ <;> simp [expire, hen]
  | some e =>
    rw [hen] at ht
    obtain ⟨hd, hto, hc, hk, hj⟩ := ht
    by_cases hl : overdue now e = true
    · -- only a parked chunk is overdue, and a room with one is begun and not being written
      have hm : e.parked.isSome := Option.isSome_of_any hl
      have hb := hk hm
      have hse : e.sending = false := by
        cases hs : e.sending with
        | false => rfl
        | true => simp [hs] at hj; simp [hj.2.1] at hm
      rw [if_neg (by simp [hse])] at hj
      have hn : (h.expire now).rooms room = none := by simp [expire, hen, hl]
      refine ⟨?_, fun _ => hn, fun e' he' _ => .inr fun info hin => .inl ?_, fun e' he' hs => ?_⟩
      · unfold TidyAt
        rw [hn]
        refine ⟨hj, ?_⟩
        simpa [expire, hen, hl, hb] using hc
      · rw [hen] at he'
        cases he'
        exact toldTo_map hd (by simp [expire, hen, hl, hto]) hin
      · rw [hen] at he'
        cases he'
        simp [hse] at hs
    · by_cases hr : h.orphan now e = true
      · have hb : e.begun = false := by simp only [orphan, Bool.and_eq_true, Bool.not_eq_true'] at hr; exact hr.1
        have hn' : e.parked = none := by
          cases hp : e.parked with
          | none => rfl
          | some _ => simp [hp, hb] at hk
        have hse : e.sending = false := by
          cases hs : e.sending with
          | false => rfl
          | true => simp [hs, hb] at hj
        rw [if_neg (by simp [hse])] at hj
        have hn : (h.expire now).rooms room = none := by simp [expire, hen, hr]
        refine ⟨?_, fun _ => hn, fun e' he' _ => .inl ?_, fun e' he' hs => ?_⟩
        · unfold TidyAt
          rw [hn]
          refine ⟨hj, ?_⟩
          simpa [expire, hen, hl, hb] using hc
        · rw [hen] at he'
          cases he'
          exact ⟨⟨hb, hse, hn'⟩, now, rfl⟩
        · rw [hen] at he'
          cases he'
          simp [hse] at hs
      · refine concludesAt_of_same (hal room) ?_ rfl ?_ rfl ?_ <;> simp [expire, hen, hl, hr]

/-! ## Runs -/

theorem step_concludesAt (hl : ∀ room, h.TidyAt room) (hd : h.Orderly event) (hs : h.step event = some h') (room) :
    ConcludesAt h event h' room := by
  cases event with
  | begin =>
    simp only [step] at hs
    split at hs
    · cases hs
      exact concludesAt_of_same (hl room) rfl rfl rfl rfl rfl
    · next hb =>
      cases hs
      exact begin_concludes hl (by simpa using hb) room
  | send => exact send_concludes hl hd hs room
  | fail =>
    simp only [step] at hs
    split at hs
    · cases hs
      exact concludesAt_of_same (hl room) rfl rfl rfl rfl rfl
    · next hid =>
      cases hs
      exact fail_concludes hl (by simpa using hid) room
  | request => exact request_concludes hl hd hs room
  | expire =>
    cases hs
    exact expire_concludes hl room
  | work => exact work_concludes hl hs room

theorem tidy_run {timeout} (hr : Relation.ReflTransGen Step { timeout := timeout } h) (room) : h.TidyAt room := by
  induction hr generalizing room with
  | refl => exact ⟨rfl, rfl⟩
  | tail _ hs ih =>
    obtain ⟨event, hd, hs⟩ := hs
    exact (step_concludesAt ih hd hs room).tidy

theorem steps_of_run {evs} : h.run evs = some h' → Relation.ReflTransGen Step h h' :=
  reaches_of_run (fun _ => rfl) fun {_ event _ _} hn => by
    obtain ⟨hd, hn⟩ := Option.ite_none_right_eq_some.mp hn
    obtain ⟨next, hs, hr⟩ := Option.bind_eq_some_iff.mp hn
    exact ⟨next, ⟨event, hd, hs⟩, hr⟩

end TokenSpeed.Transfer.EmbeddingSender

import TokenSpeed.Engine.History
import TokenSpeed.Logic.Updates

/-!
# The history rows of a run

`Valid` is what every run keeps as long as no request comes back to a slot it had left: a row whose owner
ran last in it holds the owner's tokens as far as they were fed.
-/

namespace TokenSpeed.Engine

open Function HistoryRows List

/-! ## Writes into a row -/

theorem take_overwrite {row : List Token} {start count} {tokens : List Token} (hs : start ≤ row.length)
    (hc : count ≤ tokens.length) : (overwrite row start tokens).take (start + count) = row.take start ++
    tokens.take count := by
  have hl : (row.take start).length = start := length_take_of_le hs
  rw [overwrite, Nat.sub_eq_zero_of_le hs, replicate_zero, append_nil, append_assoc,
    take_append, hl, take_of_length_le (by omega), Nat.add_sub_cancel_left,
    take_append_of_le_length hc]

theorem le_length_of_take_eq {row tokens : List Token} {st} (hs : st ≤ tokens.length)
    (h : row.take st = tokens.take st) : st ≤ row.length := by
  have := congrArg length h
  simp only [length_take] at this
  omega

namespace RowRun

variable {run : RowRun} {committed : List Token}

theorem boundary_le (hf : run.Fits committed) : run.boundary committed.length ≤ committed.length := by
  unfold Fits at hf
  unfold BatchRow.boundary
  cases hk : run.kind with
  | extend pl rl =>
    simp only [hk] at hf ⊢
    omega
  | decode => simp

theorem fedAfter_le (hf : run.Fits committed) : run.fedAfter committed ≤ (committed ++ run.kept).length := by
  unfold Fits at hf
  unfold fedAfter
  cases hk : run.kind with
  | extend pl rl =>
    simp only [hk, length_append] at hf ⊢
    omega
  | decode =>
    simp only [length_append]
    omega

theorem take_drafts {kp drs ls : List Token} (hl : ls.length = 1) (h : kp.dropLast <+: drs) :
    (ls ++ drs).take kp.length = (ls ++ kp).take kp.length := by
  obtain ⟨rest, rfl⟩ := h
  cases hk : kp.length with
  | zero => simp
  | succ n =>
    have hd : kp.dropLast.length = n := by simp [hk]
    have hs : ∀ x, (ls ++ x).take (n + 1) = ls ++ x.take n := fun x => by
      rw [take_append, take_of_length_le (by omega), hl, Nat.add_sub_cancel]
    rw [hs, hs, take_left' hd, dropLast_eq_take, hk, Nat.add_sub_cancel]

theorem take_fedAfter {row : List Token} (hf : run.Fits committed)
    (hr : row.take (run.boundary committed.length) = committed.take (run.boundary committed.length)) :
    (overwrite row (run.boundary committed.length) (run.inputs committed)).take (run.fedAfter committed) =
      (committed ++ run.kept).take (run.fedAfter committed) := by
  have hs := le_length_of_take_eq (boundary_le hf) hr
  unfold Fits at hf
  unfold BatchRow.boundary at hr hs ⊢
  unfold inputs fedAfter
  cases hk : run.kind with
  | extend pl rl =>
    simp only [hk] at hf hr hs ⊢
    have hn : ((committed.drop pl).take run.inputLength).length = run.inputLength := by
      simp only [length_take, length_drop]
      omega
    rw [take_overwrite hs hn.ge, hr, take_of_length_le hn.le, ← take_add,
      take_append_of_le_length hf.1]
  | decode =>
    simp only [hk] at hf hr hs ⊢
    have hp := length_pos_iff.mpr hf.1
    have hl : (committed.drop (committed.length - 1)).length = 1 := by
      rw [length_drop]
      omega
    have hd := hf.2.length_le
    rw [length_dropLast] at hd
    have ht : (committed ++ run.kept).take (committed.length - 1 + run.kept.length) =
        committed.take (committed.length - 1) ++
          (committed.drop (committed.length - 1) ++ run.kept).take run.kept.length := by
      rw [take_add, take_append_of_le_length (Nat.sub_le _ _), drop_append_of_le_length (Nat.sub_le _ _)]
    rw [take_overwrite hs (by rw [length_append, hl]; omega), hr, take_drafts hl hf.2, ht]

end RowRun

/-! ## Seeds -/

namespace HistoryRows

variable {states : Nat → Option RequestState}

variable {owners owners' : HistoryRows} {row : BatchRow} {rows : List BatchRow}

theorem seeds_cons {all}
    (h : seeds states owners (row :: rows) = .ok (owners', all)) :
    ∃ o1 sd rest, seedRow states owners row = .ok (o1, sd) ∧
      seeds states o1 rows = .ok (owners', rest) ∧ all = sd.toList ++ rest := by
  rw [seeds] at h
  cases hw : seedRow states owners row with
  | error e => simp [hw, bind, Except.bind] at h
  | ok first =>
    cases hr : seeds states first.1 rows with
    | error e => simp [hw, hr, bind, Except.bind] at h
    | ok mr =>
      simp only [hw, hr, bind, Except.bind, pure, Except.pure, Except.ok.injEq, Prod.mk.injEq] at h
      exact ⟨_, _, _, rfl, by rw [hr, ← h.1], h.2.symm⟩

/-- What one row of `seeds` does to its slot: it owns the slot, and seeds it unless it held it. -/
structure Seeds (owners : HistoryRows) (row : BatchRow) (state : RequestState) (seed : Option HistorySeed) : Prop where
  known : states row.requestId = some state
  seed : seed = none ∧ (row.boundary state.tokens.length = 0 ∨ owners row.requestPoolIndex = some state.admission) ∨
    seed = some ⟨row.requestPoolIndex, state.tokens.take (row.boundary state.tokens.length)⟩ ∧
      owners row.requestPoolIndex ≠ some state.admission

theorem seedRow_ok {sd}
    (h : seedRow states owners row = .ok (owners', sd)) : ∃ st, @Seeds states owners row st sd ∧
      owners' = update owners row.requestPoolIndex (some st.admission) := by
  unfold seedRow at h
  cases hs : states row.requestId with
  | none => simp [hs] at h
  | some st =>
    simp only [hs] at h
    split_ifs at h with hh hl
    · cases h
      exact ⟨st, ⟨hs, .inl ⟨rfl, hh⟩⟩, rfl⟩
    · cases h
      exact ⟨st, ⟨hs, .inr ⟨rfl, fun hn => hh (.inr hn)⟩⟩, rfl⟩

theorem seedRow_slot {sd}
    (h : seedRow states owners row = .ok (owners', sd)) : ∀ x ∈ sd, x.slot = row.requestPoolIndex := by
  obtain ⟨st, ⟨_, ⟨rfl, _⟩ | ⟨rfl, _⟩⟩, _⟩ := seedRow_ok h <;> simp

theorem seeds_slots : ∀ {owners owners' all},
    seeds states owners rows = .ok (owners', all) → ∀ x ∈ all, x.slot ∈ rows.map (·.requestPoolIndex) := by
  induction rows with
  | nil => intro owners owners' all h x hx; cases h; simp at hx
  | cons row rows ih =>
    intro owners owners' all h x hx
    obtain ⟨o1, sd, rest, hw, hr, rfl⟩ := seeds_cons h
    rcases mem_append.mp hx with hx | hx
    · exact mem_cons.mpr (.inl (seedRow_slot hw x (Option.mem_toList.mp hx)))
    · exact mem_cons_of_mem _ (ih hr x hx)

theorem seeds_owners_of_notMem {slot} : ∀ {owners owners' all},
    seeds states owners rows = .ok (owners', all) → slot ∉ rows.map (·.requestPoolIndex) →
      owners' slot = owners slot := by
  induction rows with
  | nil => intro owners owners' all h _; cases h; rfl
  | cons row rows ih =>
    intro owners owners' all h hs
    obtain ⟨o1, sd, rest, hw, hr, rfl⟩ := seeds_cons h
    obtain ⟨st, _, rfl⟩ := seedRow_ok hw
    rw [map_cons, mem_cons, not_or] at hs
    rw [ih hr hs.2, update_of_ne hs.1]

end HistoryRows

/-! ## Seeded rows -/

theorem seedHistory_append (rows : Nat → List Token) (a b) :
    seedHistory rows (a ++ b) = seedHistory (seedHistory rows a) b := foldl_append

theorem seedHistory_of_notMem {slot sds} (h : ∀ x ∈ sds, x.slot ≠ slot)
    (rows : Nat → List Token) : seedHistory rows sds slot = rows slot := by
  induction sds generalizing rows with
  | nil => rfl
  | cons sd sds ih =>
    rw [forall_mem_cons] at h
    exact (ih h.2 _).trans (update_of_ne h.1.symm _ _)

theorem seeds_rows {states : Nat → Option RequestState} {batch : List BatchRow}
    (hd : (batch.map (·.requestPoolIndex)).Nodup) :
    ∀ {owners owners' all} (rows : Nat → List Token),
      seeds states owners batch = .ok (owners', all) → ∀ row ∈ batch, ∃ st,
        states row.requestId = some st ∧ owners' row.requestPoolIndex = some st.admission ∧
          (seedHistory rows all row.requestPoolIndex = rows row.requestPoolIndex ∧
              (row.boundary st.tokens.length = 0 ∨ owners row.requestPoolIndex = some st.admission) ∨
            seedHistory rows all row.requestPoolIndex =
                overwrite (rows row.requestPoolIndex) 0 (st.tokens.take (row.boundary st.tokens.length)) ∧
              owners row.requestPoolIndex ≠ some st.admission) := by
  induction batch with
  | nil => intro owners owners' all rows _ row hw; simp at hw
  | cons first batch ih =>
    intro owners owners' all rows h row hm
    rw [map_cons, nodup_cons] at hd
    obtain ⟨o1, sd, rest, hf, hr, rfl⟩ := seeds_cons h
    obtain ⟨st, ⟨hk, hseed⟩, how⟩ := seedRow_ok hf
    rw [seedHistory_append]
    rcases mem_cons.mp hm with rfl | hm
    · -- the later rows of the batch leave this slot alone
      have hl : ∀ x ∈ rest, x.slot ≠ row.requestPoolIndex := fun x hx hq =>
        hd.1 (hq ▸ seeds_slots hr x hx)
      refine ⟨st, hk, ?_, ?_⟩
      · rw [seeds_owners_of_notMem hr hd.1, how, update_self]
      · rw [seedHistory_of_notMem hl]
        rcases hseed with ⟨rfl, hh⟩ | ⟨rfl, ht⟩
        · exact .inl ⟨rfl, hh⟩
        · exact .inr ⟨update_self .., ht⟩
    · have hs : row.requestPoolIndex ≠ first.requestPoolIndex := fun hq =>
        hd.1 (hq ▸ mem_map_of_mem hm)
      have hw : seedHistory rows sd.toList row.requestPoolIndex = rows row.requestPoolIndex :=
        seedHistory_of_notMem (fun x hx hq =>
          hs (hq.symm.trans (seedRow_slot hf x (Option.mem_toList.mp hx)))) rows
      obtain ⟨st', hk', hn', hc⟩ := ih hd.2 (seedHistory rows sd.toList) hr row hm
      rw [how, update_of_ne hs, hw] at hc
      exact ⟨st', hk', hn', hc⟩

namespace Histories

/-! ## The invariant -/

def RowHolds (h : Histories) (slot admission : Nat) : Prop :=
  h.fed admission ≤ (h.committed admission).length ∧
    (h.rows slot).take (h.fed admission) = (h.committed admission).take (h.fed admission)

structure Valid (h : Histories) : Prop where
  single : ∀ {rid rid' state state'}, h.states rid = some state → h.states rid' = some state' →
    state.admission = state'.admission → rid = rid'
  counted : ∀ {rid state}, h.states rid = some state → state.admission ≤ h.admissions
  owned : ∀ {slot admission}, h.owners slot = some admission → admission ≤ h.admissions
  holds : ∀ {slot admission}, h.owners slot = some admission → h.lastSlot admission = some slot →
    h.RowHolds slot admission

theorem valid_initial : Valid {} where
  single := by intro _ _ _ _ h; simp at h
  counted := by intro _ _ h; simp at h
  owned := by intro _ _ h; simp at h
  holds := by intro _ _ h; simp at h

variable {h h' : Histories}

theorem RowHolds.append {sl ad} (hr : h.RowHolds sl ad) (mr) :
    h.fed ad ≤ (h.committed ad ++ mr).length ∧
      (h.rows sl).take (h.fed ad) = (h.committed ad ++ mr).take (h.fed ad) := by
  refine ⟨?_, ?_⟩
  · rw [length_append]
    exact Nat.le_add_right_of_le hr.1
  · rw [take_append_of_le_length hr.1]
    exact hr.2

/-! ## Forwards -/

variable {batch : List RowRun}

theorem emits_of_emitsBatch (hm : h.EmitsBatch batch) {run : RowRun} (hr : run ∈ batch)
    {st} (hs : h.states run.requestId = some st) : h.Emits st run := by
  have := hm.2.2 run hr
  rw [hs, Option.any_some, decide_eq_true_eq] at this
  exact this

theorem seeded_some (hs : h.seeded batch = some h') :
    ∃ owners sds, seeds h.states h.owners (batch.map (·.toBatchRow)) = .ok (owners, sds) ∧
      h' = { h with owners := owners, rows := seedHistory h.rows sds } := by
  unfold seeded at hs
  split at hs
  · next owners sds hq =>
    cases hs
    exact ⟨owners, sds, hq, rfl⟩
  · cases hs

theorem map_toBatchRow_slots (batch : List RowRun) :
    (batch.map (·.toBatchRow)).map (·.requestPoolIndex) = batch.map (·.requestPoolIndex) := by
  rw [map_map]
  rfl

theorem Valid.seeded_fresh (hva : h.Valid) (hm : h.EmitsBatch batch)
    (hh : ∀ run ∈ batch, h.Home run) (hse : h.seeded batch = some h') : ∀ run ∈ batch, h'.Fresh run ∧
      ∃ st, h.states run.requestId = some st ∧ h'.owners run.requestPoolIndex = some st.admission := by
  intro run hr
  obtain ⟨owners, sds, hd, rfl⟩ := seeded_some hse
  have hsl : ((batch.map (·.toBatchRow)).map (·.requestPoolIndex)).Nodup := by
    rw [map_toBatchRow_slots]
    exact hm.2.1
  obtain ⟨st, hst, how, hc⟩ := seeds_rows hsl h.rows hd _ (mem_map_of_mem hr)
  refine ⟨fun st' hst' => ?_, st, hst, how⟩
  obtain rfl : st = st' := Option.mem_unique hst hst'
  have hw := emits_of_emitsBatch hm hr hst
  change (seedHistory h.rows sds run.requestPoolIndex).take _ = _
  by_cases hn : h.owners run.requestPoolIndex = some st.admission
  · -- the row is the request's own since it ran here last
    have hl := hh run hr st hst hn
    obtain ⟨hf, hho⟩ := hva.holds hn hl
    have hle := hw.2.1 (by rw [hl]; rfl)
    rcases hc with ⟨hs, _⟩ | ⟨_, hot⟩
    · rw [show seedHistory h.rows sds run.requestPoolIndex = h.rows run.requestPoolIndex from hs]
      have := congrArg (take (run.boundary (h.committed st.admission).length)) hho
      rwa [take_take, take_take, min_eq_left hle] at this
    · exact absurd hn hot
  · -- nothing of the request is in flight, so the control plane seeds what is committed
    have ht := hw.2.2 (.inr hn)
    rw [ht] at hc
    rcases hc with ⟨_, hz | hs⟩ | ⟨hv, _⟩
    · rw [show run.boundary (h.committed st.admission).length = 0 from hz, take_zero, take_zero]
    · exact absurd hs hn
    · rw [show seedHistory h.rows sds run.requestPoolIndex = _ from hv]
      have hln : ((h.committed st.admission).take (run.boundary (h.committed st.admission).length)).length =
          run.boundary (h.committed st.admission).length :=
        length_take_of_le (RowRun.boundary_le hw.1)
      have := @take_overwrite (h.rows run.requestPoolIndex) 0 _ _ (Nat.zero_le _) hln.ge
      rwa [zero_add, take_zero, nil_append, take_of_length_le hln.le] at this

structure Running (h : Histories) (rest : List RowRun) : Prop where
  single : ∀ {rid rid' state state'}, h.states rid = some state → h.states rid' = some state' →
    state.admission = state'.admission → rid = rid'
  ids : (rest.map (·.requestId)).Nodup
  slots : (rest.map (·.requestPoolIndex)).Nodup
  ready : ∀ run ∈ rest, h.Fresh run ∧ ∃ state, h.states run.requestId = some state ∧
    h.owners run.requestPoolIndex = some state.admission ∧ run.Fits (h.committed state.admission)
  holds : ∀ {slot admission}, slot ∉ rest.map (·.requestPoolIndex) → h.owners slot = some admission →
    h.lastSlot admission = some slot → h.RowHolds slot admission

theorem runRow_some {run : RowRun} {st : RequestState} (hs : h.states run.requestId = some st) :
    h.runRow run = { h with
      rows := update h.rows run.requestPoolIndex (overwrite (h.rows run.requestPoolIndex)
        (run.boundary (h.committed st.admission).length) (run.inputs (h.committed st.admission)))
      committed := update h.committed st.admission (h.committed st.admission ++ run.kept)
      fed := update h.fed st.admission (run.fedAfter (h.committed st.admission))
      lastSlot := update h.lastSlot st.admission (some run.requestPoolIndex) } := by
  simp only [runRow, hs]

theorem Running.runRow {run rest} (hrn : h.Running (run :: rest)) : (h.runRow run).Running rest := by
  obtain ⟨hsi, hd, hsl, hre, hho⟩ := hrn
  rw [map_cons, nodup_cons] at hd hsl
  obtain ⟨hfr, st, ht, hw, hf⟩ := hre run mem_cons_self
  have hm : ∀ run' ∈ rest, ∀ st', h.states run'.requestId = some st' →
      st'.admission ≠ st.admission := fun run' hr' st' ht' hq =>
    hd.1 (hsi ht' ht hq ▸ mem_map_of_mem hr')
  have hs : ∀ run' ∈ rest, run'.requestPoolIndex ≠ run.requestPoolIndex := fun run' hr' hq =>
    hsl.1 (hq ▸ mem_map_of_mem hr')
  rw [runRow_some ht]
  refine ⟨hsi, hd.2, hsl.2, fun run' hr' => ?_, fun {sl ad} hn hon hl => ?_⟩
  · obtain ⟨hfr', st', ht', hw', hf'⟩ := hre run' (mem_cons_of_mem _ hr')
    refine ⟨fun st'' ht'' => ?_, st', ht', hw', ?_⟩
    · have := hfr' st'' ht''
      simpa only [update_of_ne (hm run' hr' st'' ht''), update_of_ne (hs run' hr')] using this
    · simpa only [update_of_ne (hm run' hr' st' ht')] using hf'
  · change update h.lastSlot st.admission (some run.requestPoolIndex) ad = some sl at hl
    by_cases hh : sl = run.requestPoolIndex
    · subst hh
      obtain rfl : ad = st.admission := Option.mem_unique hon hw
      simp only [RowHolds, update_self]
      exact ⟨RowRun.fedAfter_le hf, RowRun.take_fedAfter hf (hfr st ht)⟩
    · have hne : ad ≠ st.admission := by
        rintro rfl
        rw [update_self] at hl
        exact hh (Option.some.inj hl).symm
      rw [update_of_ne hne] at hl
      have hn' : sl ∉ (run :: rest).map (·.requestPoolIndex) := by
        rw [map_cons, mem_cons, not_or]
        exact ⟨hh, hn⟩
      simpa only [RowHolds, update_of_ne hne, update_of_ne hh] using hho hn' hon hl

theorem Running.foldl {rest : List RowRun} : ∀ {h}, h.Running rest → (rest.foldl Histories.runRow h).Running [] := by
  induction rest with
  | nil => intro h hr; exact hr
  | cons run rest ih => intro h hr; exact ih hr.runRow

theorem foldl_runRow_frame (batch : List RowRun) : ∀ h,
    (batch.foldl runRow h).states = h.states ∧ (batch.foldl runRow h).owners = h.owners ∧
      (batch.foldl runRow h).admissions = h.admissions := by
  induction batch with
  | nil => intro h; exact ⟨rfl, rfl, rfl⟩
  | cons run batch ih =>
    intro h
    obtain ⟨hs, hw, hc⟩ := ih (h.runRow run)
    have hr : (h.runRow run).states = h.states ∧ (h.runRow run).owners = h.owners ∧
      (h.runRow run).admissions = h.admissions := by
      unfold runRow
      split <;> exact ⟨rfl, rfl, rfl⟩
    obtain ⟨hs', hw', hc'⟩ := hr
    exact ⟨hs.trans hs', hw.trans hw', hc.trans hc'⟩

section

variable (hva : h.Valid)
include hva

theorem Valid.running {batch} (hm : h.EmitsBatch batch)
    (hh : ∀ run ∈ batch, h.Home run) (hs : h.seeded batch = some h') : h'.Running batch := by
  have hre := hva.seeded_fresh hm hh hs
  obtain ⟨owners, sds, hd, rfl⟩ := seeded_some hs
  refine ⟨hva.single, hm.1, hm.2.1, fun run hr => ?_, fun {slot ad} hn hon hl => ?_⟩
  · obtain ⟨hf, st, ht, how⟩ := hre run hr
    exact ⟨hf, st, ht, how, (emits_of_emitsBatch hm hr ht).1⟩
  · -- a slot outside the batch has neither been seeded nor changed its owner
    rw [← map_toBatchRow_slots] at hn
    change owners slot = some ad at hon
    rw [seeds_owners_of_notMem hd hn] at hon
    have hw : seedHistory h.rows sds slot = h.rows slot :=
      seedHistory_of_notMem (fun x hx (hq : x.slot = slot) => hn (hq ▸ seeds_slots hd x hx)) h.rows
    have hho := hva.holds hon hl
    simp only [RowHolds, hw] at hho ⊢
    exact hho

theorem Valid.forward {batch : List RowRun} (hm : h.EmitsBatch batch)
    (hh : ∀ run ∈ batch, h.Home run) (hse : h.seeded batch = some h') : (batch.foldl runRow h').Valid := by
  have hr := (hva.running hm hh hse).foldl
  have hre := hva.seeded_fresh hm hh hse
  obtain ⟨ht, hos, hc⟩ := foldl_runRow_frame batch h'
  obtain ⟨owners, sds, hd, rfl⟩ := seeded_some hse
  refine ⟨hr.single, fun {rid st} hst => ?_, fun {sl ad} hn => ?_, fun hn hl =>
    hr.holds (by simp) hn hl⟩
  · rw [ht] at hst
    rw [hc]
    exact hva.counted hst
  · rw [hos] at hn
    rw [hc]
    by_cases hs : sl ∈ batch.map (·.requestPoolIndex)
    · obtain ⟨run, hru, rfl⟩ := mem_map.mp hs
      obtain ⟨_, st, hst, hw⟩ := hre run hru
      obtain rfl : ad = st.admission := Option.mem_unique hn hw
      exact hva.counted hst
    · rw [← map_toBatchRow_slots] at hs
      exact hva.owned ((seeds_owners_of_notMem hd hs).symm.trans hn)

/-! ## The other events -/

theorem Valid.register (rid pr) (hp : h.apply (.register rid pr) = some h') : h'.Valid := by
  cases hp
  refine ⟨fun {r1 r2 st1 st2} h1 h2 hq => ?_, fun {rid' st} hs => ?_, fun hn => ?_, fun {sl ad} hn hl => ?_⟩
  · by_cases hr1 : r1 = rid <;> by_cases hr2 : r2 = rid
    · exact hr1.trans hr2.symm
    · subst hr1
      simp only [update_self, Option.some.injEq, update_of_ne hr2] at h1 h2
      have := hva.counted h2
      rw [← hq, ← h1] at this
      exact absurd this (Nat.not_succ_le_self _)
    · subst hr2
      simp only [update_self, Option.some.injEq, update_of_ne hr1] at h1 h2
      have := hva.counted h1
      rw [hq, ← h2] at this
      exact absurd this (Nat.not_succ_le_self _)
    · simp only [update_of_ne hr1, update_of_ne hr2] at h1 h2
      exact hva.single h1 h2 hq
  · rcases update_cases hs with ⟨rfl, hu⟩ | ⟨-, hs⟩
    · rw [Option.some.injEq] at hu
      rw [← hu]
    · exact Nat.le_succ_of_le (hva.counted hs)
  · exact Nat.le_succ_of_le (hva.owned hn)
  · have hne : ad ≠ h.admissions + 1 := fun hq => Nat.not_succ_le_self _ (hq ▸ hva.owned hn)
    simpa only [RowHolds, update_of_ne hne] using hva.holds hn hl

theorem Valid.setState (rid st) (hs : ∀ new ∈ st, ∃ old, h.states rid = some old ∧ old.admission = new.admission) :
    Valid { h with states := update h.states rid st } := by
  have hold : ∀ {rid' new}, update h.states rid st rid' = some new →
      ∃ old, h.states rid' = some old ∧ old.admission = new.admission := by
    intro rid' new hn
    rcases update_cases hn with ⟨rfl, hu⟩ | ⟨-, hn⟩
    · exact hs new hu
    · exact ⟨new, hn, rfl⟩
  refine ⟨fun h1 h2 hq => ?_, fun ht => ?_, hva.owned, hva.holds⟩
  · obtain ⟨o1, hold1, hm1⟩ := hold h1
    obtain ⟨o2, hold2, hm2⟩ := hold h2
    exact hva.single hold1 hold2 (hm1.trans (hq.trans hm2.symm))
  · obtain ⟨old, hold, hm⟩ := hold ht
    exact hm ▸ hva.counted hold

theorem Valid.land (rid tk) (hp : h.apply (.land rid tk) = some h') : h'.Valid := by
  simp only [apply] at hp
  split at hp
  · cases hp
    exact hva
  · next st ht =>
    split at hp
    · cases hp
      have hs := hva.setState rid (some { st with outputIds := st.outputIds ++ [tk] })
        (by rintro new ⟨⟩; exact ⟨st, ht, rfl⟩)
      refine { hs with holds := fun {sl ad} hn hl => ?_ }
      have hh := hva.holds hn hl
      by_cases hm : ad = st.admission
      · subst hm
        simpa only [RowHolds, update_self] using hh.append [tk]
      · simpa only [RowHolds, update_of_ne hm] using hh
    · cases hp

/-! ## Runs -/

theorem Valid.step (hs : Step h h') : h'.Valid := by
  obtain ⟨e, hp, hh⟩ := hs
  cases e with
  | register rid pr => exact hva.register rid pr hp
  | land rid tk => exact hva.land rid tk hp
  | forward batch =>
    simp only [apply] at hp
    split at hp
    · next hm =>
      obtain ⟨h1, hse, rfl⟩ := Option.map_eq_some_iff.mp hp
      exact hva.forward hm hh hse
    · cases hp
  | commit rid count =>
    cases hp
    refine hva.setState rid _ fun new hn => ?_
    obtain ⟨old, hold, rfl⟩ := Option.map_eq_some_iff.mp hn
    exact ⟨old, hold, rfl⟩
  | release rid =>
    cases hp
    exact hva.setState rid none (by simp)

end

theorem valid_of_steps (hr : Relation.ReflTransGen Step {} h) : h.Valid := by
  induction hr with
  | refl => exact valid_initial
  | tail _ hs ih => exact ih.step hs

end Histories

end TokenSpeed.Engine

import TokenSpeed.Engine.ExpertMoves

/-!
# What the ranks plan

Every rank plans its part of the moves alone; the sends of one rank to another and the other's receives name
the same experts.
-/

namespace TokenSpeed.Engine

open Function List

/-! ## Spreading -/

theorem spreadRuns_elements (sh lr) : ∀ trs i els, els.length = sh * trs.length + (lr - i) → lr - i ≤ trs.length →
    (spreadRuns sh lr i els trs).map Prod.fst = els
  | [], i, els, hg, hl => by
    have hn : els = [] := length_eq_zero_iff.mp (by simp at hg hl; omega)
    simp [spreadRuns, hn]
  | target :: rest, i, els, hg, hl => by
    simp only [length_cons, Nat.mul_succ] at hg hl
    simp only [spreadRuns, map_append, map_map, comp_def, map_id']
    rw [spreadRuns_elements sh lr rest (i + 1) _ ?_ (by omega), take_append_drop]
    rw [length_drop]
    split <;> omega

theorem spreadRuns_targets {sh lr run} : ∀ {trs i els}, run ∈ spreadRuns sh lr i els trs → run.2 ∈ trs
  | target :: rest, i, els, hn => by
    simp only [spreadRuns, mem_append, mem_map] at hn
    rcases hn with ⟨_, _, rfl⟩ | hr
    · exact mem_cons_self
    · exact mem_cons_of_mem _ (spreadRuns_targets hr)

theorem spread_mem {els targets el tr} (hs : spread els targets el = some tr) : tr ∈ targets := by
  simp only [spread] at hs
  split at hs
  · cases hs
  · obtain ⟨run, hf, rfl⟩ := Option.map_eq_some_iff.mp hs
    exact spreadRuns_targets (mem_reverse.mp (mem_of_find?_eq_some hf))

theorem spread_isSome {els trs el} (hl : el ∈ els) (ht : trs ≠ []) : (spread els trs el).isSome := by
  have hp : 0 < trs.length := length_pos_iff.mpr ht
  have hr := spreadRuns_elements (els.length / trs.length) (els.length % trs.length) trs 0 els
    (by rw [Nat.sub_zero, Nat.mul_comm, Nat.div_add_mod]) (by have := Nat.mod_lt els.length hp; omega)
  rw [← hr] at hl
  obtain ⟨run, hn, rfl⟩ := mem_map.mp hl
  have hne : els ≠ [] := by
    rintro rfl
    rw [hr] at hl
    cases hl
  simp only [spread]
  rw [if_neg (by simp [hne, ht]), Option.isSome_map, find?_isSome]
  exact ⟨run, mem_reverse.mpr hn, by simp⟩

/-! ## Ranks -/

theorem mem_pushRank {ranks rank r} : r ∈ pushRank ranks rank ↔ r ∈ ranks ∨ r = rank := by
  unfold pushRank
  split
  · next hl =>
    constructor
    · exact .inl
    · rintro (hm | rfl)
      · exact hm
      · exact mem_of_getLast? hl
  · simp

theorem mem_foldl_pushRank {r} : ∀ {ps ranks : List Nat}, r ∈ ps.foldl pushRank ranks ↔ r ∈ ranks ∨ r ∈ ps
  | [], ranks => by simp
  | rank :: rest, ranks => by
    rw [foldl_cons, mem_foldl_pushRank, mem_pushRank, mem_cons, or_assoc]

theorem sorted_foldl_pushRank : ∀ {ps ranks : List Nat}, ranks.Pairwise (· < ·) → ps.Pairwise (· ≤ ·) →
    (∀ r ∈ ranks, ∀ p ∈ ps, r ≤ p) → (ps.foldl pushRank ranks).Pairwise (· < ·)
  | [], ranks, hk, _, _ => hk
  | rank :: rest, ranks, hk, hs, hb => by
    obtain ⟨hf, ht⟩ := pairwise_cons.mp hs
    rw [foldl_cons]
    refine sorted_foldl_pushRank ?_ ht fun r hr p hp => ?_
    · unfold pushRank
      split
      · exact hk
      · next hl =>
        refine pairwise_append.mpr ⟨hk, pairwise_singleton .., fun r hr p hp => ?_⟩
        rw [mem_singleton] at hp
        subst hp
        refine lt_of_le_of_ne (hb r hr p mem_cons_self) ?_
        rintro rfl
        -- the greatest element of an increasing list is its last one
        rcases eq_nil_or_concat ranks with rfl | ⟨i, ls, rfl⟩
        · cases hr
        · simp only [concat_eq_append, getLast?_concat, Option.some.injEq] at hl
          simp only [concat_eq_append, pairwise_append, mem_append, mem_singleton] at hk hr hb
          rcases hr with hn | rfl
          · have hlt := hk.2.2 r hn ls rfl
            have hle := hb ls (.inr rfl) r mem_cons_self
            omega
          · exact hl rfl
    · rcases mem_pushRank.mp hr with hm | rfl
      · exact hb r hm p (mem_cons_of_mem _ hp)
      · exact hf p hp

section Plan

variable {old new nodes : List Int} {numLocal : Nat} {logical : Int} {rank dr : Nat}

theorem mem_slotRanks {row : List Int} : rank ∈ slotRanks row numLocal logical ↔
    ∃ p < row.length, row.getD p 0 = logical ∧ p / numLocal = rank := by
  simp [slotRanks, and_assoc]

theorem mem_srcRanksOf : rank ∈ srcRanksOf old numLocal logical ↔ ∃ p < old.length, old.getD p 0 = logical ∧
    p / numLocal = rank := by
  rw [srcRanksOf, mem_foldl_pushRank, mem_slotRanks]
  simp

theorem dstRanksOf_nodup (old new : List Int) (numLocal : Nat) (logical : Int) :
    (dstRanksOf old new numLocal logical).Nodup := by
  have hs : (slotRanks new numLocal logical).Pairwise (· ≤ ·) := by
    refine pairwise_map.mpr ((pairwise_lt_range.filter _).imp fun hl => ?_)
    exact Nat.div_le_div_right hl.le
  exact (sorted_foldl_pushRank .nil (hs.filter _) (by simp)).imp ne_of_lt

theorem sourceFor_mem {sr} (hs : sourceFor old new nodes numLocal logical dr = some sr) :
    sr ∈ srcRanksOf old numLocal logical := by
  simp only [sourceFor] at hs
  split at hs
  · exact mem_of_mem_filter (spread_mem hs)
  · exact spread_mem hs

theorem sourceFor_isSome (hd : dr ∈ dstRanksOf old new numLocal logical) (hc : srcRanksOf old numLocal logical ≠ []) :
    (sourceFor old new nodes numLocal logical dr).isSome := by
  simp only [sourceFor]
  split
  · next hs => exact spread_isSome (mem_filter.mpr ⟨hd, by simp⟩) hs
  · next hs =>
    refine spread_isSome (mem_filter.mpr ⟨hd, ?_⟩) hc
    simp only [ne_eq, not_not, filter_eq_nil_iff, decide_eq_true_eq] at hs
    simp only [mem_map, not_exists, not_and, decide_eq_true_eq]
    exact hs

/-! ## The loop over a rank's slots -/

theorem heldSlotOf_some {first sl} (hh : heldSlotOf old numLocal first logical = some sl) :
    sl < numLocal ∧ old.getD (first + sl) 0 = logical :=
  ⟨mem_range.mp (mem_of_find?_eq_some hh), by simpa using find?_some hh⟩

theorem heldSlotOf_isSome (hl : 0 < numLocal) (hr : (rank + 1) * numLocal ≤ old.length) :
    (heldSlotOf old numLocal (rank * numLocal) logical).isSome ↔ rank ∈ srcRanksOf old numLocal logical := by
  rw [mem_srcRanksOf, heldSlotOf, find?_isSome]
  simp only [mem_range, decide_eq_true_eq]
  constructor
  · rintro ⟨sl, hs, hold⟩
    refine ⟨rank * numLocal + sl, by rw [Nat.succ_mul] at hr; omega, hold, ?_⟩
    rw [Nat.mul_comm, Nat.mul_add_div hl, Nat.div_eq_of_lt hs, Nat.add_zero]
  · rintro ⟨p, _, hold, rfl⟩
    refine ⟨p % numLocal, Nat.mod_lt _ hl, ?_⟩
    rw [Nat.mul_comm, Nat.div_add_mod]
    exact hold

variable (old new numLocal rank) in
def Fresh (slot : Nat) : Prop :=
  old.getD (rank * numLocal + slot) 0 ≠ new.getD (rank * numLocal + slot) 0 ∧
    heldSlotOf old numLocal (rank * numLocal) (new.getD (rank * numLocal + slot) 0) = none

variable (old new numLocal rank) in
/-- The first of a rank's slots below `k` that needs the expert. -/
def IsFirst (k : Nat) (logical : Int) (slot : Nat) : Prop :=
  slot < k ∧ Fresh old new numLocal rank slot ∧ new.getD (rank * numLocal + slot) 0 = logical ∧
    ∀ e < slot, Fresh old new numLocal rank e → new.getD (rank * numLocal + e) 0 ≠ logical

theorem exists_isFirst {k sl} (hs : sl < k) (hfr : Fresh old new numLocal rank sl)
    (hp : new.getD (rank * numLocal + sl) 0 = logical) : ∃ e ≤ sl, IsFirst old new numLocal rank k logical e := by
  induction sl using Nat.strong_induction_on with
  | _ sl ih =>
    by_cases hea : ∃ e < sl, Fresh old new numLocal rank e ∧ new.getD (rank * numLocal + e) 0 = logical
    · obtain ⟨e, hl, hfr', hp'⟩ := hea
      obtain ⟨e', hle, hf⟩ := ih e hl (by omega) hfr' hp'
      exact ⟨e', by omega, hf⟩
    · exact ⟨sl, le_rfl, hs, hfr, hp, fun e he hfr' hp' => hea ⟨e, he, hfr', hp'⟩⟩

theorem isFirst_unique {k e e'} (hf : IsFirst old new numLocal rank k logical e)
    (hf' : IsFirst old new numLocal rank k logical e') : e = e' := by
  rcases lt_trichotomy e e' with hl | hq | hgt
  · exact absurd hf.2.2.1 (hf'.2.2.2 e hl hf.2.1)
  · exact hq
  · exact absurd hf'.2.2.1 (hf.2.2.2 e' hgt hf'.2.1)

theorem isFirst_succ {k e} : IsFirst old new numLocal rank (k + 1) logical e ↔
    IsFirst old new numLocal rank k logical e ∨
    e = k ∧ Fresh old new numLocal rank k ∧ new.getD (rank * numLocal + k) 0 = logical ∧
      ∀ e, ¬IsFirst old new numLocal rank k logical e := by
  constructor
  · rintro ⟨hl, hfr, hp, hleast⟩
    rcases Nat.lt_succ_iff_lt_or_eq.mp hl with hb | rfl
    · exact .inl ⟨hb, hfr, hp, hleast⟩
    · exact .inr ⟨rfl, hfr, hp, fun e' hf => hleast e' hf.1 hf.2.1 hf.2.2.1⟩
  · rintro (⟨hl, hr⟩ | ⟨rfl, hfr, hp, hn⟩)
    · exact ⟨by omega, hr⟩
    · refine ⟨by omega, hfr, hp, fun e' he' hfr' hp' => ?_⟩
      obtain ⟨first, _, hf⟩ := exists_isFirst he' hfr' hp'
      exact hn first hf

variable (old new nodes numLocal rank) in
/-- What the loop has planned after `k` slots. -/
structure Planned (k : Nat) (state : MoveState) : Prop where
  localCopy : ∀ slot held, (slot, held) ∈ state.localCopy ↔ slot < k ∧
    old.getD (rank * numLocal + slot) 0 ≠ new.getD (rank * numLocal + slot) 0 ∧
      heldSlotOf old numLocal (rank * numLocal) (new.getD (rank * numLocal + slot) 0) = some held
  first : ∀ logical slot, state.firstReceiving logical = some slot ↔ IsFirst old new numLocal rank k logical slot
  freeRider : ∀ slot e, (slot, e) ∈ state.freeRider ↔ slot < k ∧ Fresh old new numLocal rank slot ∧
    IsFirst old new numLocal rank slot (new.getD (rank * numLocal + slot) 0) e
  recv : ∀ logical slot source, (logical, slot, source) ∈ state.recv ↔
    IsFirst old new numLocal rank k logical slot ∧ sourceFor old new nodes numLocal logical rank = some source
  once : (state.recv.map Prod.fst).Nodup

variable {k : Nat} {state : MoveState}

theorem isFirst_succ_of_not (hs : ¬Fresh old new numLocal rank k) {e} :
    IsFirst old new numLocal rank (k + 1) logical e ↔ IsFirst old new numLocal rank k logical e := by
  rw [isFirst_succ]
  exact or_iff_left fun hn => hs hn.2.1

/-- What holds of the slots up to `k`, slot `k` apart. -/
theorem lt_succ_and {P : Nat → Prop} {slot} : slot < k + 1 ∧ P slot ↔ slot < k ∧ P slot ∨ slot = k ∧ P k := by
  rw [Nat.lt_succ_iff_lt_or_eq, or_and_right]
  refine or_congr_right (and_congr_right ?_)
  rintro rfl
  rfl

variable (old new numLocal rank) in
abbrev Copies (held slot : Nat) : Prop :=
  old.getD (rank * numLocal + slot) 0 ≠ new.getD (rank * numLocal + slot) 0 ∧
    heldSlotOf old numLocal (rank * numLocal) (new.getD (rank * numLocal + slot) 0) = some held

variable (old new numLocal rank) in
abbrev Rides (e slot : Nat) : Prop :=
  Fresh old new numLocal rank slot ∧ IsFirst old new numLocal rank slot (new.getD (rank * numLocal + slot) 0) e

section

variable (hpl : Planned old new nodes numLocal rank k state)
include hpl

theorem Planned.stale (hs : ¬Fresh old new numLocal rank k)
    {cps} (hc : ∀ sl held, (sl, held) ∈ cps ↔ (sl, held) ∈ state.localCopy ∨ sl = k ∧
      Copies old new numLocal rank held k) :
    Planned old new nodes numLocal rank (k + 1) { state with localCopy := cps } where
  localCopy := fun sl held => by
    rw [hc, hpl.localCopy]
    exact (lt_succ_and (P := Copies old new numLocal rank held)).symm
  first := fun logical sl => by rw [hpl.first, isFirst_succ_of_not hs]
  freeRider := fun sl e => by
    rw [hpl.freeRider, lt_succ_and (P := Rides old new numLocal rank e)]
    exact (or_iff_left fun hn => hs hn.2.1).symm
  recv := fun logical sl sr => by rw [hpl.recv, isFirst_succ_of_not hs]
  once := hpl.once

section

variable (hfr : Fresh old new numLocal rank k)
include hfr

theorem Planned.copies_of_fresh (sl held) :
    (sl, held) ∈ state.localCopy ↔ sl < k + 1 ∧ Copies old new numLocal rank held sl := by
  rw [hpl.localCopy, lt_succ_and]
  refine (or_iff_left fun hn => ?_).symm
  have hh := hn.2.2
  rw [hfr.2] at hh
  cases hh

theorem Planned.rider {er} (hea : state.firstReceiving (new.getD (rank * numLocal + k) 0) = some er) : Planned old new
    nodes numLocal rank (k + 1) { state with freeRider := state.freeRider ++ [(k, er)] } := by
  have hf := (hpl.first _ _).mp hea
  have hn : ∀ logical e, IsFirst old new numLocal rank (k + 1) logical e ↔ IsFirst old new numLocal rank k logical e :=
    fun logical e => by
    rw [isFirst_succ]
    refine or_iff_left ?_
    rintro ⟨_, _, rfl, ht⟩
    exact ht er hf
  refine ⟨fun sl held => ?_, fun logical sl => ?_, fun sl e => ?_, fun logical sl sr => ?_, hpl.once⟩
  · exact hpl.copies_of_fresh hfr sl held
  · rw [hpl.first, hn]
  · rw [lt_succ_and (P := Rides old new numLocal rank e), ← hpl.freeRider, mem_append, mem_singleton]
    refine or_congr_right ?_
    rw [Prod.mk.injEq]
    refine and_congr_right fun _ => ?_
    constructor
    · rintro rfl
      exact ⟨hfr, hf⟩
    · exact fun hw => isFirst_unique hw.2 hf
  · rw [hpl.recv, hn]

theorem Planned.receiving {sr}
    (hn : state.firstReceiving (new.getD (rank * numLocal + k) 0) = none)
    (hc : sourceFor old new nodes numLocal (new.getD (rank * numLocal + k) 0) rank = some sr) :
    Planned old new nodes numLocal rank (k + 1) { state with
      firstReceiving := update state.firstReceiving (new.getD (rank * numLocal + k) 0) (some k)
      recv := state.recv ++ [(new.getD (rank * numLocal + k) 0, k, sr)] } := by
  have hu : ∀ e, ¬IsFirst old new numLocal rank k (new.getD (rank * numLocal + k) 0) e := fun e hf => by
    rw [(hpl.first _ _).mpr hf] at hn
    cases hn
  have hs : ∀ logical e, IsFirst old new numLocal rank (k + 1) logical e ↔ IsFirst old new numLocal rank k logical e ∨
      e = k ∧ new.getD (rank * numLocal + k) 0 = logical := fun logical e => by
    rw [isFirst_succ]
    refine or_congr_right (and_congr_right fun _ => ⟨fun hw => hw.2.1, ?_⟩)
    rintro rfl
    exact ⟨hfr, rfl, hu⟩
  refine ⟨fun sl held => ?_, fun logical sl => ?_, fun sl e => ?_, fun logical sl src => ?_, ?_⟩
  · exact hpl.copies_of_fresh hfr sl held
  · rw [hs, ← hpl.first]
    dsimp only
    by_cases hl : logical = new.getD (rank * numLocal + k) 0
    · subst hl
      rw [update_self, hn]
      simp [eq_comm]
    · rw [update_of_ne hl]
      exact (or_iff_left fun hw => hl hw.2.symm).symm
  · rw [hpl.freeRider, lt_succ_and (P := Rides old new numLocal rank e)]
    exact (or_iff_left fun hw => hu e hw.2.2).symm
  · rw [hs, mem_append, mem_singleton, hpl.recv, or_and_right]
    refine or_congr_right ?_
    simp only [Prod.mk.injEq]
    constructor
    · rintro ⟨rfl, rfl, rfl⟩
      exact ⟨⟨rfl, rfl⟩, hc⟩
    · rintro ⟨⟨rfl, rfl⟩, hsr⟩
      exact ⟨rfl, rfl, Option.mem_unique hsr hc⟩
  · simp only [map_append, map_cons, map_nil]
    refine nodup_append.mpr ⟨hpl.once, nodup_singleton _, fun x hx y hy => ?_⟩
    obtain ⟨⟨logical, sl, src⟩, hm, rfl⟩ := mem_map.mp hx
    rw [mem_singleton.mp hy]
    rintro rfl
    exact hu sl ((hpl.recv _ _ _).mp hm).1

end

theorem planSlot_ok
    (hso : Fresh old new numLocal rank k →
      (sourceFor old new nodes numLocal (new.getD (rank * numLocal + k) 0) rank).isSome) :
    ∃ state', planSlot old new nodes numLocal rank state k = .ok state' ∧
      Planned old new nodes numLocal rank (k + 1) state' := by
  by_cases hs : old.getD (rank * numLocal + k) 0 = new.getD (rank * numLocal + k) 0
  · exact ⟨state, by simp only [planSlot, if_pos hs], hpl.stale (fun hfr => hfr.1 hs)
      fun sl held => (or_iff_left fun hw => hw.2.1 hs).symm⟩
  · cases hh : heldSlotOf old numLocal (rank * numLocal) (new.getD (rank * numLocal + k) 0) with
    | some held =>
      refine ⟨{ state with localCopy := state.localCopy ++ [(k, held)] }, by simp only [planSlot, if_neg hs, hh],
        hpl.stale (fun hfr => ?_) fun sl h => ?_⟩
      · have hn := hfr.2
        rw [hh] at hn
        cases hn
      · rw [mem_append, mem_singleton, Prod.mk.injEq, Copies, hh]
        refine or_congr_right (and_congr_right fun _ =>
          ⟨fun hq => ⟨hs, by rw [hq]⟩, fun hw => (Option.some.inj hw.2).symm⟩)
    | none =>
      have hfr : Fresh old new numLocal rank k := ⟨hs, hh⟩
      cases hea : state.firstReceiving (new.getD (rank * numLocal + k) 0) with
      | some er =>
        have hl := ((hpl.first _ _).mp hea).1
        have hu : update state.firstReceiving (new.getD (rank * numLocal + k) 0) (some er) = state.firstReceiving := by
          rw [← hea]
          exact update_eq_self ..
        refine ⟨_, ?_, hpl.rider hfr hea⟩
        simp only [planSlot, if_neg hs, hh, hea, Option.getD_some, hu, ne_eq, hl.ne, not_false_eq_true, if_true]
      | none =>
        obtain ⟨sr, hc⟩ := Option.isSome_iff_exists.mp (hso hfr)
        refine ⟨_, ?_, hpl.receiving hfr hea hc⟩
        simp only [planSlot, if_neg hs, hh, hea, Option.getD_none, ne_eq, not_true_eq_false, if_false, hc]

end

theorem planSlots_ok (hc : ∀ k < numLocal, Fresh old new numLocal rank k →
    (sourceFor old new nodes numLocal (new.getD (rank * numLocal + k) 0) rank).isSome) :
    ∀ k ≤ numLocal, ∃ state, (range k).foldlM (planSlot old new nodes numLocal rank) {} = .ok state ∧
      Planned old new nodes numLocal rank k state
  | 0, _ => ⟨{}, rfl, ⟨by simp, by simp [IsFirst], by simp, by simp [IsFirst], .nil⟩⟩
  | k + 1, hk => by
    obtain ⟨state, hf, hpl⟩ := planSlots_ok hc k (by omega)
    obtain ⟨state', hs, hpl'⟩ := planSlot_ok hpl (hc k (by omega))
    refine ⟨state', ?_, hpl'⟩
    rw [range_succ, foldlM_append, hf]
    change (foldlM (planSlot old new nodes numLocal rank) state [k] : Except MoveError MoveState) = _
    rw [foldlM_cons, hs]
    rfl

/-! ## Sends and receives -/

variable (old new nodes numLocal) in
structure Layout : Prop where
  positive : 0 < numLocal
  size : old.length = nodes.length * numLocal
  same : new.length = old.length
  experts : ∀ e ∈ new, e ∈ old

namespace Layout

variable (hla : Layout old new nodes numLocal)
include hla

section

variable (hr : rank < nodes.length)
include hr

theorem fits : (rank + 1) * numLocal ≤ old.length := by
  rw [hla.size]
  exact Nat.mul_le_mul_right _ hr

theorem slot_lt {sl} (hs : sl < numLocal) :
    rank * numLocal + sl < old.length ∧ (rank * numLocal + sl) / numLocal = rank := by
  have hf := hla.fits hr
  rw [Nat.succ_mul] at hf
  refine ⟨by omega, ?_⟩
  rw [Nat.mul_comm, Nat.mul_add_div hla.positive, Nat.div_eq_of_lt hs, Nat.add_zero]

theorem mem_dstRanksOf_iff :
    rank ∈ dstRanksOf old new numLocal logical ↔ ∃ slot, IsFirst old new numLocal rank numLocal logical slot := by
  rw [dstRanksOf, mem_foldl_pushRank, mem_filter, mem_slotRanks]
  simp only [decide_not, Bool.not_eq_true', decide_eq_false_iff_not, not_mem_nil, false_or]
  rw [← heldSlotOf_isSome hla.positive (hla.fits hr), Option.not_isSome_iff_eq_none]
  constructor
  · rintro ⟨⟨p, hp, hee, rfl⟩, hn⟩
    have hs : p / numLocal * numLocal + p % numLocal = p := by rw [Nat.mul_comm, Nat.div_add_mod]
    have hfr : Fresh old new numLocal (p / numLocal) (p % numLocal) := by
      unfold Fresh
      rw [hs, hee]
      refine ⟨fun hm => ?_, hn⟩
      have hb := find?_eq_none.mp hn (p % numLocal) (mem_range.mpr (Nat.mod_lt _ hla.positive))
      rw [hs] at hb
      exact hb (decide_eq_true hm)
    obtain ⟨first, _, hf⟩ := exists_isFirst (Nat.mod_lt p hla.positive) hfr (by rw [hs, hee])
    exact ⟨first, hf⟩
  · rintro ⟨slot, hs, hfr, rfl, _⟩
    obtain ⟨hl, hd⟩ := hla.slot_lt hr hs
    exact ⟨⟨_, by rw [hla.same]; exact hl, rfl, hd⟩, hfr.2⟩

theorem source_isSome {sl} (hs : sl < numLocal) (hfr : Fresh old new numLocal rank sl) :
    (sourceFor old new nodes numLocal (new.getD (rank * numLocal + sl) 0) rank).isSome := by
  obtain ⟨hl, _⟩ := hla.slot_lt hr hs
  obtain ⟨first, _, hf⟩ := exists_isFirst hs hfr rfl
  refine sourceFor_isSome ((hla.mem_dstRanksOf_iff hr).mpr ⟨first, hf⟩) ?_
  have hm : new.getD (rank * numLocal + sl) 0 ∈ old := by
    refine hla.experts _ ?_
    rw [getD_eq_getElem?_getD, getElem?_eq_getElem (by rw [hla.same]; exact hl)]
    exact getElem_mem _
  obtain ⟨p, hp, hee⟩ := getElem_of_mem hm
  refine ne_nil_of_mem (mem_srcRanksOf.mpr ⟨p, hp, ?_, rfl⟩)
  rw [getD_eq_getElem?_getD, getElem?_eq_getElem hp]
  exact hee

end

theorem source_holds {sr} (hs : sourceFor old new nodes numLocal logical dr = some sr) :
    sr < nodes.length ∧ (heldSlotOf old numLocal (sr * numLocal) logical).isSome := by
  have hm := sourceFor_mem hs
  obtain ⟨p, hp, _, rfl⟩ := mem_srcRanksOf.mp hm
  have hl : p / numLocal < nodes.length := by
    rw [Nat.div_lt_iff_lt_mul hla.positive, ← hla.size]
    exact hp
  exact ⟨hl, (heldSlotOf_isSome hla.positive (hla.fits hl)).mpr hm⟩

end Layout

theorem mem_planSends {sl} : (logical, sl, dr) ∈ planSends old new nodes numLocal rank ↔
    sl < numLocal ∧ old.getD (rank * numLocal + sl) 0 = logical ∧
      heldSlotOf old numLocal (rank * numLocal) logical = some sl ∧
      dr ∈ dstRanksOf old new numLocal logical ∧ sourceFor old new nodes numLocal logical dr = some rank := by
  simp only [planSends, mem_flatMap, mem_filter, mem_range, decide_eq_true_eq, mem_map, Prod.mk.injEq]
  constructor
  · rintro ⟨s, ⟨hs, hh⟩, d, ⟨hd, hc⟩, rfl, rfl, rfl⟩
    exact ⟨hs, rfl, hh, hd, hc⟩
  · rintro ⟨hs, rfl, hh, hd, hc⟩
    exact ⟨sl, ⟨hs, hh⟩, dr, ⟨hd, hc⟩, rfl, rfl, rfl⟩

theorem planSends_nodup (old new nodes numLocal rank) :
    ((planSends old new nodes numLocal rank).map fun sn => (sn.1, sn.2.2)).Nodup := by
  simp only [planSends, map_flatMap, map_map, comp_def]
  refine nodup_flatMap.mpr ⟨fun sl _ => ?_, ?_⟩
  · exact (((dstRanksOf_nodup ..).filter _).map fun a b hb => (Prod.mk.inj hb).2)
  · refine (nodup_range.filter _).imp_of_mem fun {s s'} hs hs' hn => ?_
    simp only [mem_filter, decide_eq_true_eq] at hs hs'
    simp only [onFun, disjoint_left, mem_map, not_exists, not_and]
    rintro _ ⟨d, _, rfl⟩ d' _ hq
    rw [← (Prod.mk.inj hq).1] at hs
    exact hn (Option.mem_unique hs.2 hs'.2)

theorem moveLe_total (a b : Int × Nat × Nat) : MoveLe a b ∨ MoveLe b a := by
  unfold MoveLe
  omega

theorem moveLe_trans {a b c} (hb : MoveLe a b) (hc : MoveLe b c) : MoveLe a c := by
  unfold MoveLe at *
  omega

theorem experts_sorted {mvs : List (Int × Nat × Nat)} {p : Int × Nat × Nat → Bool}
    (hn : ((mvs.filter p).map Prod.fst).Nodup) :
    (((mvs.insertionSort MoveLe).filter p).map Prod.fst).Pairwise (· < ·) := by
  have hs : (mvs.insertionSort MoveLe).Pairwise MoveLe :=
    @pairwise_insertionSort _ MoveLe _ ⟨moveLe_total⟩ ⟨fun _ _ _ => moveLe_trans⟩ mvs
  have hp : Perm (((mvs.insertionSort MoveLe).filter p).map Prod.fst) ((mvs.filter p).map Prod.fst) :=
    ((perm_insertionSort MoveLe mvs).filter p).map _
  have hl : (((mvs.insertionSort MoveLe).filter p).map Prod.fst).Pairwise (· ≤ ·) :=
    pairwise_map.mpr ((hs.filter p).imp fun hab => by unfold MoveLe at hab; omega)
  exact (hl.and (hp.nodup_iff.mpr hn)).imp fun hb => lt_of_le_of_ne hb.1 hb.2

/-- The sends from `a` to `b` and the receives of `b` from `a` name the same experts in the same order. -/
theorem experts_match (hla : Layout old new nodes numLocal) {a b} (hb : b < nodes.length)
    (hpl : Planned old new nodes numLocal b numLocal state) :
    (((planSends old new nodes numLocal a).insertionSort MoveLe).filter (·.2.2 = b)).map Prod.fst =
      ((state.recv.insertionSort MoveLe).filter (·.2.2 = a)).map Prod.fst := by
  have hs : (((planSends old new nodes numLocal a).filter (·.2.2 = b)).map Prod.fst).Nodup := by
    refine Nodup.of_map (·, b) ?_
    have hn := (planSends_nodup old new nodes numLocal a).sublist
      ((filter_sublist (p := fun sn : Int × Nat × Nat => sn.2.2 = b)).map fun sn => (sn.1, sn.2.2))
    rw [map_map]
    convert hn using 1
    refine map_congr_left fun sn hse => ?_
    simp only [comp_apply, Prod.mk.injEq, true_and]
    exact (of_decide_eq_true (mem_filter.mp hse).2).symm
  have hrc : ((state.recv.filter (·.2.2 = a)).map Prod.fst).Nodup := hpl.once.sublist (filter_sublist.map _)
  have hs' := experts_sorted hs
  have hrc' := experts_sorted hrc
  refine Perm.eq_of_pairwise (fun x y _ _ hx hyx => absurd hx (not_lt.mpr hyx.le)) hs' hrc' ?_
  rw [perm_ext_iff_of_nodup (hs'.imp fun h => h.ne) (hrc'.imp fun h => h.ne)]
  intro logical
  simp only [mem_map, mem_filter, mem_insertionSort, decide_eq_true_eq]
  constructor
  · rintro ⟨⟨l, sl, d⟩, ⟨hse, rfl⟩, rfl⟩
    obtain ⟨_, _, _, hd, hc⟩ := mem_planSends.mp hse
    obtain ⟨first, hf⟩ := (hla.mem_dstRanksOf_iff hb).mp hd
    exact ⟨(l, first, a), ⟨(hpl.recv _ _ _).mpr ⟨hf, hc⟩, rfl⟩, rfl⟩
  · rintro ⟨⟨l, sl, sr⟩, ⟨hre, rfl⟩, rfl⟩
    obtain ⟨hf, hc⟩ := (hpl.recv _ _ _).mp hre
    obtain ⟨held, hh⟩ := Option.isSome_iff_exists.mp (hla.source_holds hc).2
    obtain ⟨hl, hp⟩ := heldSlotOf_some hh
    exact ⟨(l, held, b), ⟨mem_planSends.mpr ⟨hl, hp, hh, (hla.mem_dstRanksOf_iff hb).mpr ⟨sl, hf⟩, hc⟩, rfl⟩, rfl⟩

end Plan

/-! ## Weights -/

section Moves

variable {α : Type}

theorem foldl_update_target {β : Type} (key : β → Nat) (vl : β → α) (tr : Nat → α) (sl) :
    ∀ {ens : List β} {f : Nat → α}, (∀ x ∈ ens, vl x = tr (key x)) →
      ens.foldl (fun f x => update f (key x) (vl x)) f sl = if sl ∈ ens.map key then tr sl else f sl
  | [], f, _ => by simp
  | x :: rest, f, hv => by
    rw [foldl_cons, foldl_update_target key vl tr sl fun y hy => hv y (mem_cons_of_mem _ hy)]
    by_cases hr : sl ∈ rest.map key
    · simp [hr]
    · by_cases hx : sl = key x
      · subst hx
        simp [hv x mem_cons_self]
      · simp [hx, hr]

theorem foldl_copy_target {tr : Nat → α} {p : Nat → Prop} : ∀ {mvs : List (Nat × Nat)} {sls : Nat → α},
    (∀ mv ∈ mvs, tr mv.2 = tr mv.1 ∧ p mv.2 ∧ mv.2 ∉ mvs.map Prod.fst) →
    (∀ slot, p slot → slot ∉ mvs.map Prod.fst → sls slot = tr slot) → ∀ slot, p slot →
      mvs.foldl (fun sls mv => update sls mv.1 (sls mv.2)) sls slot = tr slot
  | [], sls, _, hl, slot, ht => hl slot ht (by simp)
  | (dst, src) :: rest, sls, hv, hl, slot, ht => by
    obtain ⟨hsa, hc, hp⟩ := hv (dst, src) mem_cons_self
    rw [foldl_cons]
    refine foldl_copy_target (fun mv hm => ?_) (fun s hs hn => ?_) slot ht
    · obtain ⟨hs', hc', hp'⟩ := hv mv (mem_cons_of_mem _ hm)
      exact ⟨hs', hc', fun hme => hp' (mem_cons_of_mem _ hme)⟩
    · by_cases hd : s = dst
      · subst hd
        rw [update_self, hl src hc hp]
        exact hsa
      · rw [update_of_ne hd]
        exact hl s hs (by simpa [hd] using hn)

theorem receive_all (wg : Int → α) : ∀ {rc : List (Int × Nat × Nat)} {qus : Nat → List α} {st : Nat → α},
    (∀ src, qus src = (rc.filter (·.2.2 = src)).map fun mv => wg mv.1) →
    receive (rc.map Prod.snd) qus st =
      some (rc.foldl (fun st mv => update st mv.2.1 (wg mv.1)) st, fun _ => [])
  | [], qus, st, hq => by
    have hp : qus = fun _ => [] := funext hq
    simp [receive, hp]
  | (logical, dst, src) :: rest, qus, st, hq => by
    have hqu := hq src
    rw [filter_cons_of_pos (by simp), map_cons] at hqu
    simp only [map_cons, receive, hqu, foldl_cons]
    refine receive_all wg fun other => ?_
    by_cases hh : other = src
    · subst hh
      exact update_self ..
    · rw [update_of_ne hh, hq, filter_cons_of_neg (by simpa using Ne.symm hh)]

variable {old new nodes : List Int} {numLocal rank : Nat} {state : MoveState} {mvs : Nat → SlotMoves}
  {live : Nat → Nat → α}

def movesOf (old new nodes : List Int) (numLocal rank : Nat) (state : MoveState) : SlotMoves where
  recv := (state.recv.insertionSort MoveLe).map Prod.snd
  send := ((planSends old new nodes numLocal rank).insertionSort MoveLe).map Prod.snd
  localCopy := state.localCopy
  freeRider := state.freeRider

theorem planSlotMoves_ok (hla : Layout old new nodes numLocal) (hr : rank < nodes.length) :
    ∃ state, Planned old new nodes numLocal rank numLocal state ∧
      planSlotMoves old new nodes numLocal rank = .ok (movesOf old new nodes numLocal rank state) := by
  obtain ⟨state, hf, hpl⟩ := planSlots_ok (fun _ hk => hla.source_isSome hr hk) numLocal le_rfl
  refine ⟨state, hpl, ?_⟩
  unfold planSlotMoves
  rw [if_neg (not_not.mpr hla.same), if_neg, if_neg (not_le.mpr hr), hf]
  · rfl
  · rintro (hz | hs)
    · exact ne_of_gt hla.positive hz
    · exact hs hla.size

theorem layout_of_plan {sm} (hp : planSlotMoves old new nodes numLocal rank = .ok sm)
    (hes : ∀ e ∈ new, e ∈ old) : Layout old new nodes numLocal := by
  simp only [planSlotMoves] at hp
  split at hp
  · cases hp
  · next hs =>
    split at hp
    · cases hp
    · next hsi =>
      rw [not_or, not_not] at hsi
      exact ⟨Nat.pos_of_ne_zero hsi.1, hsi.2, not_not.mp hs, hes⟩

theorem sent_eq (weight : Int → α)
    (hl : ∀ r < nodes.length, ∀ s < numLocal, live r s = weight (old.getD (r * numLocal + s) 0)) {src}
    (hc : src < nodes.length) (hm : ∃ state, mvs src = movesOf old new nodes numLocal src state) (dst) :
    sent nodes.length mvs live dst src =
      ((((planSends old new nodes numLocal src).insertionSort MoveLe).filter (·.2.2 = dst)).map
        Prod.fst).map weight := by
  obtain ⟨state, hm⟩ := hm
  rw [sent, if_pos hc, hm, movesOf, filter_map, map_map, map_map]
  refine map_congr_left fun sn hse => ?_
  obtain ⟨logical, sl, d⟩ := sn
  have hme := (mem_insertionSort ..).mp (mem_of_mem_filter hse)
  obtain ⟨hs, hp, _⟩ := mem_planSends.mp hme
  simp only [comp_apply, hl src hc sl hs, hp]

/-- A slot no move writes keeps its expert. -/
theorem Planned.unmoved (hpl : Planned old new nodes numLocal rank numLocal state) (hla : Layout old new nodes numLocal)
    (hr : rank < nodes.length) {sl} (ht : sl < numLocal)
    (hu : sl ∉ ((state.recv.insertionSort MoveLe).map Prod.snd ++ state.localCopy).map Prod.fst)
    (hno : sl ∉ state.freeRider.map Prod.fst) :
    old.getD (rank * numLocal + sl) 0 = new.getD (rank * numLocal + sl) 0 := by
  by_contra hd
  cases hh : heldSlotOf old numLocal (rank * numLocal) (new.getD (rank * numLocal + sl) 0) with
  | some held =>
    exact hu (mem_map.mpr ⟨(sl, held), mem_append_right _ ((hpl.localCopy ..).mpr ⟨ht, hd, hh⟩), rfl⟩)
  | none =>
    obtain ⟨first, hle, hf⟩ := exists_isFirst ht ⟨hd, hh⟩ rfl
    rcases lt_or_eq_of_le hle with hlt | rfl
    · exact hno (mem_map.mpr ⟨(sl, first), (hpl.freeRider ..).mpr ⟨ht, ⟨hd, hh⟩, hlt, hf.2⟩, rfl⟩)
    · obtain ⟨sr, hsr⟩ := Option.isSome_iff_exists.mp (hla.source_isSome hr ht ⟨hd, hh⟩)
      have hme := (mem_insertionSort MoveLe).mpr ((hpl.recv _ first sr).mpr ⟨hf, hsr⟩)
      exact hu (mem_map.mpr ⟨(first, sr), mem_append_left _ (mem_map.mpr ⟨_, hme, rfl⟩), rfl⟩)

section Exchange

variable (hla : Layout old new nodes numLocal) (wg : Int → α)
  (hl : ∀ r < nodes.length, ∀ s < numLocal, live r s = wg (old.getD (r * numLocal + s) 0))
  (hm : ∀ r < nodes.length, ∃ state, mvs r = movesOf old new nodes numLocal r state) (hr : rank < nodes.length)
  (hpl : Planned old new nodes numLocal rank numLocal state) (hw : mvs rank = movesOf old new nodes numLocal rank state)
  (st : Nat → α)
include hla hl hm hr hpl hw

theorem exchange_ok : exchange nodes.length mvs live st rank =
      some ((state.recv.insertionSort MoveLe).foldl (fun st mv => update st mv.2.1 (wg mv.1)) st) := by
  have hq : ∀ src, sent nodes.length mvs live rank src =
      ((state.recv.insertionSort MoveLe).filter (·.2.2 = src)).map fun mv => wg mv.1 := fun src => by
    by_cases hs : src < nodes.length
    · rw [sent_eq wg hl hs (hm src hs), experts_match hla hr hpl, map_map]
      rfl
    · have hn : (state.recv.insertionSort MoveLe).filter (·.2.2 = src) = [] := by
        refine filter_eq_nil_iff.mpr fun ⟨logical, sl, sr⟩ hme hc => ?_
        have hre := (hpl.recv logical sl sr).mp ((mem_insertionSort ..).mp hme)
        have heq : sr = src := of_decide_eq_true hc
        rw [heq] at hre
        exact hs (hla.source_holds hre.2).1
      rw [sent, if_neg hs, hn, map_nil]
  have hre : (mvs rank).recv = (state.recv.insertionSort MoveLe).map Prod.snd := by rw [hw]; rfl
  rw [exchange, hre, receive_all wg hq]
  simp

theorem moveWeights_ok : ∃ slots, moveWeights nodes.length mvs live st rank = some slots ∧
      ∀ s < numLocal, slots s = wg (new.getD (rank * numLocal + s) 0) := by
  have hre : (mvs rank).recv = (state.recv.insertionSort MoveLe).map Prod.snd := by rw [hw]; rfl
  have hc : (mvs rank).localCopy = state.localCopy := by rw [hw]; rfl
  have hri : (mvs rank).freeRider = state.freeRider := by rw [hw]; rfl
  refine ⟨_, by rw [moveWeights, exchange_ok hla wg hl hm hr hpl hw, Option.map_some], ?_⟩
  rw [hre, hc, hri]
  -- what every slot shall hold
  generalize hta : (fun s => wg (new.getD (rank * numLocal + s) 0)) = target
  have hat : ∀ s, wg (new.getD (rank * numLocal + s) 0) = target s := congrFun hta
  have hrc : ∀ mv ∈ state.recv.insertionSort MoveLe, wg mv.1 = target mv.2.1 := by
    rintro ⟨logical, sl, sr⟩ hme
    rw [← hat, ((hpl.recv logical sl sr).mp ((mem_insertionSort ..).mp hme)).1.2.2.1]
  have hcp : ∀ mv ∈ state.localCopy, live rank mv.2 = target mv.1 := by
    rintro ⟨sl, held⟩ hme
    obtain ⟨_, _, hh⟩ := (hpl.localCopy sl held).mp hme
    obtain ⟨hlt, hp⟩ := heldSlotOf_some hh
    rw [hl rank hr held hlt, hp, hat]
  have hst : ∀ mv ∈ (state.recv.insertionSort MoveLe).map Prod.snd ++ state.localCopy,
      state.localCopy.foldl (fun st mv => update st mv.1 (live rank mv.2))
        ((state.recv.insertionSort MoveLe).foldl (fun st mv => update st mv.2.1 (wg mv.1)) st) mv.1 =
        target mv.1 := by
    intro mv hmv
    rw [foldl_update_target Prod.fst (fun mv => live rank mv.2) target _ hcp,
      foldl_update_target (fun mv : Int × Nat × Nat => mv.2.1) (fun mv => wg mv.1) target _ hrc]
    split
    · rfl
    · next hno =>
      rw [if_pos]
      rcases mem_append.mp hmv with hme | hme
      · obtain ⟨x, hx, rfl⟩ := mem_map.mp hme
        exact mem_map.mpr ⟨x, hx, rfl⟩
      · exact absurd (mem_map_of_mem hme) hno
  intro s hs
  rw [hat]
  refine foldl_copy_target (p := (· < numLocal)) ?_ (fun sl ht hno => ?_) s hs
  · rintro ⟨sl, e⟩ hme
    obtain ⟨hlt, _, hf⟩ := (hpl.freeRider sl e).mp hme
    refine ⟨by rw [← hat, ← hat, hf.2.2.1], lt_trans hf.1 hlt, fun hrd => ?_⟩
    obtain ⟨⟨_, e'⟩, hme', rfl⟩ := mem_map.mp hrd
    obtain ⟨_, _, hf'⟩ := (hpl.freeRider _ e').mp hme'
    exact hf.2.2.2 e' hf'.1 hf'.2.1 (hf'.2.2.1.trans hf.2.2.1)
  · rw [foldl_update_target Prod.fst _ target _ hst]
    split
    · rfl
    · next hu =>
      rw [hl rank hr sl ht, hpl.unmoved hla hr ht hu hno, hat]

end Exchange

theorem written_changes (hpl : Planned old new nodes numLocal rank numLocal state) {sl}
    (hs : sl ∈ (movesOf old new nodes numLocal rank state).written) :
    old.getD (rank * numLocal + sl) 0 ≠ new.getD (rank * numLocal + sl) 0 := by
  simp only [SlotMoves.written, movesOf, map_append, mem_append] at hs
  rcases hs with (hre | hc) | hd
  · obtain ⟨_, hm, rfl⟩ := mem_map.mp hre
    obtain ⟨⟨logical, s, sr⟩, hso, rfl⟩ := mem_map.mp hm
    exact ((hpl.recv logical s sr).mp ((mem_insertionSort ..).mp hso)).1.2.1.1
  · obtain ⟨⟨s, held⟩, hm, rfl⟩ := mem_map.mp hc
    exact ((hpl.localCopy s held).mp hm).2.1
  · obtain ⟨⟨s, e⟩, hm, rfl⟩ := mem_map.mp hd
    exact ((hpl.freeRider s e).mp hm).2.1.1

end Moves

end TokenSpeed.Engine

import Mathlib.Data.List.TakeWhile
import Mathlib.Logic.Relation

/-!
# Runs

The longest run of accepted numbers from a start, the layout of a table of equal rows, and runs of events.
-/

namespace TokenSpeed

open List

/-- The length of the longest accepted run among `start, .., start + n - 1`. -/
def runLength (accept : Nat → Bool) (start n : Nat) : Nat :=
  ((List.range' start n).takeWhile accept).length

theorem runLength_succ_pos {accept : Nat → Bool} {start n} (h : accept start = true) :
    runLength accept start (n + 1) = runLength accept (start + 1) n + 1 := by
  simp [runLength, range'_succ, h]

theorem runLength_succ_neg {accept : Nat → Bool} {start n} (h : accept start = false) :
    runLength accept start (n + 1) = 0 := by
  simp [runLength, range'_succ, h]

theorem runLength_le (accept : Nat → Bool) (start n) : runLength accept start n ≤ n := by
  have h : (takeWhile accept (range' start n)).length ≤ _ :=
    (List.takeWhile_prefix accept).length_le
  rwa [length_range'] at h

theorem accept_of_lt_runLength {accept : Nat → Bool} :
    ∀ {start n j}, start ≤ j → j < start + runLength accept start n → accept j = true
  | start, 0, j, h1, h2 => by simp [runLength] at h2; omega
  | start, n + 1, j, h1, h2 => by
    cases h : accept start with
    | false => rw [runLength_succ_neg h] at h2; omega
    | true =>
      rw [runLength_succ_pos h] at h2
      rcases eq_or_lt_of_le h1 with rfl | hlt
      · exact h
      · exact @accept_of_lt_runLength _ (start + 1) n j hlt (by omega)

theorem le_runLength {accept : Nat → Bool} :
    ∀ {start n m}, m ≤ n → (∀ j, start ≤ j → j < start + m → accept j = true) →
      m ≤ runLength accept start n
  | _, _, 0, _, _ => Nat.zero_le _
  | start, n + 1, m + 1, hm, hall => by
    rw [runLength_succ_pos (hall start le_rfl (by omega))]
    have := @le_runLength _ (start + 1) n m (by omega)
      fun j h1 h2 => hall j (by omega) (by omega)
    omega

/-- `rows` rows of `width` cells, read row by row. -/
theorem flatMap_range_rows {α : Type} (cell : Nat → Nat → α) {width} (hw : 0 < width) :
    ∀ rows, (range rows).flatMap (fun r => (range width).map (cell r)) =
      (range (rows * width)).map fun j => cell (j / width) (j % width)
  | 0 => by simp
  | rows + 1 => by
    rw [range_succ, flatMap_append, flatMap_range_rows cell hw rows, Nat.succ_mul,
      range_add, map_append, map_map]
    congr 1
    rw [flatMap_singleton]
    refine map_congr_left fun o ho => ?_
    have ho := mem_range.mp ho
    simp only [Function.comp]
    rw [Nat.mul_comm rows, Nat.mul_add_div hw, Nat.mul_add_mod, Nat.div_eq_of_lt ho,
      Nat.mod_eq_of_lt ho, Nat.add_zero]

theorem flatMap_eq_range {α β : Type} (f : α → List β) (d : α) (l : List α) :
    l.flatMap f = (range l.length).flatMap fun k => f (l.getD k d) := by
  induction l with
  | nil => rfl
  | cons a l ih =>
    rw [flatMap_cons, ih, length_cons, range_succ_eq_map, flatMap_cons, flatMap_map]
    simp

/-- What a list of events leads to is reached step by step. -/
theorem reaches_of_run {σ ε : Type*} {Step : σ → σ → Prop} {run : σ → List ε → Option σ} (hnil : ∀ h, run h [] = some h)
    (hcons : ∀ {h ev evs h'}, run h (ev :: evs) = some h' → ∃ next, Step h next ∧ run next evs = some h') : ∀
    {evs h h'}, run h evs = some h' → Relation.ReflTransGen Step h h'
  | [], h, _, hr => by
    cases (hnil h).symm.trans hr
    exact .refl
  | _ :: _, _, _, hr => by
    obtain ⟨next, hs, hr⟩ := hcons hr
    exact .head hs (reaches_of_run hnil hcons hr)

/-- Where a run ends is looked at by deciding what holds there. -/
theorem exists_of_any {α : Type*} {run : Option α} {P : α → Prop} [DecidablePred P]
    (h : run.any (fun x => decide (P x)) = true) : ∃ x, run = some x ∧ P x := by
  obtain ⟨x, hr, hp⟩ := (Option.any_eq_true ..).mp h
  exact ⟨x, hr, of_decide_eq_true hp⟩

end TokenSpeed

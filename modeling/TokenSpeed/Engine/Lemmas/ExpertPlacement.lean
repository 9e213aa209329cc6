import Mathlib.Algebra.Order.BigOperators.Group.List
import Mathlib.Algebra.Order.Field.Rat
import Mathlib.Data.List.MinMax
import TokenSpeed.Engine.ExpertPlacement

/-!
# The replicas of the experts

The loop of `replicate_experts` keeps the counts levelled, and levelled counts are the best ones.
-/

namespace TokenSpeed.Engine

open List

/-! ## The scan -/

section Scan

variable {α : Type} [LinearOrder α]

/-- The scan ends at a load no other exceeds, unless it keeps the load it came with. -/
theorem heaviest_spec (loads : List α) : ∀ expert best bestLoad,
    (heaviest expert best bestLoad loads = best ∧ (bestLoad = none → loads = []) ∧ ∀ l ∈ bestLoad, ∀ x ∈ loads, x ≤ l) ∨
      ∃ k, ∃ hk : k < loads.length, heaviest expert best bestLoad loads = expert + k ∧ (∀ x ∈ loads, x ≤ loads[k]) ∧
        ∀ l ∈ bestLoad, l < loads[k] := by
  induction loads with
  | nil => exact fun _ _ _ => .inl ⟨rfl, fun _ => rfl, fun _ _ x hx => absurd hx not_mem_nil⟩
  | cons load loads ih =>
    intro expert best bestLoad
    rw [heaviest]
    split
    next hm =>
      have hs : ∀ l ∈ bestLoad, l < load := by simpa [Option.all_eq_true] using hm
      right
      rcases ih (expert + 1) expert (some load) with ⟨hp, -, hle⟩ | ⟨k, hk, hat, hle, hlt⟩
      · exact ⟨0, Nat.succ_pos _, hp, by simpa using hle load rfl, hs⟩
      · have hd : load < loads[k] := hlt load rfl
        refine ⟨k + 1, Nat.succ_lt_succ hk, by rw [hat]; omega, ?_, fun l hl => (hs l hl).trans hd⟩
        simpa using ⟨hd.le, hle⟩
    next hs =>
      obtain ⟨l, rfl, hl⟩ : ∃ l, bestLoad = some l ∧ load ≤ l := by
        cases bestLoad with
        | none => exact absurd rfl hs
        | some l => exact ⟨l, rfl, by simpa using hs⟩
      rcases ih (expert + 1) best (some l) with ⟨hp, -, hle⟩ | ⟨k, hk, hat, hle, hlt⟩
      · exact .inl ⟨hp, nofun, by simpa [hl] using hle⟩
      · have hm : l < loads[k] := hlt l rfl
        refine .inr ⟨k + 1, Nat.succ_lt_succ hk, by rw [hat]; omega, ?_, by simpa using hm⟩
        simpa using ⟨hl.trans hm.le, hle⟩

theorem heaviest_greatest {loads : List α} (hne : loads ≠ []) :
    ∃ hk : heaviest 0 0 none loads < loads.length, ∀ x ∈ loads, x ≤ loads[heaviest 0 0 none loads] := by
  rcases heaviest_spec loads 0 0 none with ⟨-, hn, -⟩ | ⟨k, hk, hat, hl, -⟩
  · exact absurd (hn rfl) hne
  · rw [zero_add] at hat
    simp only [hat]
    exact ⟨hk, hl⟩

end Scan

/-! ## The counts -/

theorem width_eq {α : Type} {weight : List (List α)} {n : Nat} (hr : ∀ row ∈ weight, row.length = n)
    (hne : weight ≠ []) :
    width weight = n := by
  cases weight with
  | nil => exact absurd rfl hne
  | cons row rest => exact hr row mem_cons_self

theorem sum_set_succ : ∀ {l : List Nat} {i c}, l[i]? = some c → (l.set i (c + 1)).sum = l.sum + 1
  | a :: l, 0, c, h => by
    cases h
    simp only [set_cons_zero, sum_cons]
    omega
  | a :: l, i + 1, c, h => by
    simp only [set_cons_succ, sum_cons, sum_set_succ (l := l) h]
    omega

theorem Counts.set {n slots} {count : List Nat} (h : Counts n slots count) {i c} (hi : count[i]? = some c) :
    Counts n (slots + 1) (count.set i (c + 1)) := by
  refine ⟨by rw [length_set, h.length], by rw [sum_set_succ hi, h.total], fun x hx => ?_⟩
  rcases mem_or_eq_of_mem_set hx with hx | rfl
  · exact h.pos x hx
  · exact Nat.succ_pos c

/-- Whoever got a second replica carried, before the last one it got, at least what anyone carries now. -/
def Levelled (row : List ℚ) (count : List Nat) : Prop :=
  ∀ j k, k < row.length → 1 < count.getD j 0 →
    row.getD k 0 / (count.getD k 0 : ℚ) ≤ row.getD j 0 / ((count.getD j 0 - 1 : Nat) : ℚ)

section Loads

variable {row : List ℚ} {count : List Nat} {n slots : Nat}

theorem perReplica_getElem {k} (hk : k < (perReplica row count).length) :
    (perReplica row count)[k] = row.getD k 0 / (count.getD k 0 : ℚ) := by
  have hl := hk
  rw [perReplica, length_zipWith, Nat.lt_min] at hl
  simp [perReplica, hl]

theorem length_perReplica (h : count.length = row.length) : (perReplica row count).length = row.length := by
  rw [perReplica, length_zipWith, h, min_self]

theorem getD_set_of_getElem? {b c} (hb : count[b]? = some c) (v j) :
    (count.set b v).getD j 0 = if b = j then v else count.getD j 0 := by
  have hl := (List.getElem?_eq_some_iff.mp hb).1
  simp only [getD_eq_getElem?_getD, getElem?_set, hl, if_true]
  split <;> rfl

theorem getD_load_nonneg (hr : ∀ w ∈ row, 0 ≤ w) (k) : 0 ≤ row.getD k 0 := by
  rw [getD_eq_getElem?_getD]
  cases hk : row[k]? with
  | none => exact le_rfl
  | some w => exact hr w (mem_of_getElem? hk)

theorem Levelled.set (hl : Levelled row count) (hr : ∀ w ∈ row, 0 ≤ w) (hp : ∀ c ∈ count, 1 ≤ c) {b c : Nat}
    (hb : count[b]? = some c) (hm : ∀ k < row.length, row.getD k 0 / (count.getD k 0 : ℚ) ≤ row.getD b 0 / (c : ℚ)) :
    Levelled row (count.set b (c + 1)) := by
  have hc : 1 ≤ c := hp c (mem_of_getElem? hb)
  -- One more replica never raises the load per replica.
  have hf : ∀ k, row.getD k 0 / ((count.set b (c + 1)).getD k 0 : ℚ) ≤ row.getD k 0 / (count.getD k 0 : ℚ) := by
    intro k
    rw [getD_set_of_getElem? hb]
    split
    next hq =>
      rw [← hq, getD_eq_getElem?_getD (l := count), hb, Option.getD_some]
      refine div_le_div_of_nonneg_left (getD_load_nonneg hr b) (by exact_mod_cast hc) ?_
      exact_mod_cast c.le_succ
    next => exact le_rfl
  intro j k hk hj
  refine (hf k).trans ?_
  rw [getD_set_of_getElem? hb] at hj ⊢
  split at hj
  next hq =>
    subst hq
    simpa using hm k hk
  next hn =>
    rw [if_neg hn]
    exact hl j k hk hj

theorem giveSlot_levelled {st : Replicas} (hr : ∀ w ∈ row, 0 ≤ w) (hn : 0 < row.length)
    (hs : Counts row.length slots st.count) (hv : Levelled row st.count) :
    Returns (st.giveSlot row) fun st' => Counts row.length (slots + 1) st'.count ∧ Levelled row st'.count := by
  have hl := length_perReplica hs.length
  obtain ⟨hk, hm⟩ := heaviest_greatest (ne_nil_of_length_pos (hl ▸ hn))
  unfold Replicas.giveSlot
  set best := heaviest 0 0 none (perReplica row st.count) with hb
  obtain ⟨c, hc⟩ : ∃ c, st.count[best]? = some c :=
    ⟨_, getElem?_eq_getElem (by rw [hs.length, ← hl]; exact hk)⟩
  simp only [hc]
  refine ⟨hs.set hc, hv.set hr hs.pos hc fun k hkn => ?_⟩
  have hle := hm _ (getElem_mem (hl ▸ hkn : k < (perReplica row st.count).length))
  rw [perReplica_getElem, perReplica_getElem, ← hb] at hle
  simpa [getD_eq_getElem?_getD, hc] using hle

theorem giveSlots_levelled (hr : ∀ w ∈ row, 0 ≤ w) (expert) (hn : row.length = 0 → expert = 0) :
    ∀ {slots} {st : Replicas}, Counts row.length slots st.count → Levelled row st.count →
      Returns (giveSlots row expert st) fun st' =>
        Counts row.length (slots + expert) st'.count ∧ Levelled row st'.count := by
  induction expert with
  | zero => exact fun hc hl => .pure ⟨hc, hl⟩
  | succ expert ih =>
    intro slots st hc hl
    have hp : 0 < row.length := Nat.pos_of_ne_zero fun h => Nat.succ_ne_zero _ (hn h)
    refine (giveSlot_levelled hr hp hc hl).bind fun next hx => ?_
    rw [add_comm expert, ← add_assoc]
    exact ih (fun h => absurd h hp.ne') hx.1 hx.2

theorem counts_replicate (n) : Counts n n (replicate n 1) :=
  ⟨length_replicate, by simp, fun _ hc => (eq_of_mem_replicate hc).ge⟩

theorem levelled_replicate (row : List ℚ) : Levelled row (replicate row.length 1) := by
  intro j k _ hj
  rw [getD_eq_getElem?_getD, getElem?_replicate] at hj
  split at hj <;> simp at hj

/-! ## Optimality -/

/-- Of two ways to give the same slots, one that gives an expert less gives another one more. -/
theorem exists_more_of_less {a b : List Nat} (hl : a.length = b.length) (hs : a.sum = b.sum) {k}
    (hk : a.getD k 0 < b.getD k 0) : ∃ j, b.getD j 0 < a.getD j 0 := by
  by_contra hn
  simp only [not_exists, not_lt] at hn
  have hle : Forall₂ (· ≤ ·) a b :=
    forall₂_iff_get.mpr ⟨hl, fun i ha hb => by simpa [ha, hb] using hn i⟩
  have hq : a = b := by
    clear hk hn hl
    induction hle with
    | nil => rfl
    | cons hx hr ih =>
      have := hr.sum_le_sum
      rw [sum_cons, sum_cons] at hs
      rw [ih (by omega)]
      congr 1
      omega
  exact lt_irrefl _ (hq ▸ hk)

/-- Levelled counts leave nobody more than the most any other way to give the slots leaves somebody. -/
theorem Levelled.maximum_le (hv : Levelled row count) (hw : ∀ w ∈ row, 0 ≤ w) (hc : Counts row.length slots count)
    {other} (hr : Counts row.length slots other) : (perReplica row count).maximum ≤ (perReplica row other).maximum := by
  have hm : ∀ i < row.length,
    ((row.getD i 0 / (other.getD i 0 : ℚ) : ℚ) : WithBot ℚ) ≤ (perReplica row other).maximum := by
    intro i hi
    rw [← perReplica_getElem ((length_perReplica hr.length).symm ▸ hi)]
    exact le_maximum_of_mem' (getElem_mem _)
  refine maximum_le_of_forall_le fun x hx => ?_
  obtain ⟨k, hk, rfl⟩ := mem_iff_getElem.mp hx
  rw [perReplica_getElem hk]
  rw [length_perReplica hc.length] at hk
  -- An expert with more replicas elsewhere carries less there only if another has fewer than it was given here.
  rcases le_or_gt (other.getD k 0) (count.getD k 0) with hle | hl
  · refine le_trans ?_ (hm k hk)
    have hp : 1 ≤ other.getD k 0 := hr.pos _ (by
      rw [getD_eq_getElem?_getD, getElem?_eq_getElem (hr.length.symm ▸ hk)]
      exact getElem_mem _)
    exact_mod_cast div_le_div_of_nonneg_left (getD_load_nonneg hw k) (by exact_mod_cast hp) (by exact_mod_cast hle)
  · obtain ⟨j, hj⟩ := exists_more_of_less (hc.length.trans hr.length.symm) (hc.total.trans hr.total.symm) hl
    have hn : j < row.length := by
      by_contra hg
      rw [getD_eq_getElem?_getD (l := count), getElem?_eq_none (by rw [hc.length]; omega)] at hj
      exact absurd hj (Nat.not_lt_zero _)
    have hp : 1 ≤ other.getD j 0 := hr.pos _ (by
      rw [getD_eq_getElem?_getD, getElem?_eq_getElem (hr.length.symm ▸ hn)]
      exact getElem_mem _)
    refine le_trans ?_ (hm j hn)
    refine WithBot.coe_le_coe.mpr ((hv j k hk (by omega)).trans ?_)
    exact div_le_div_of_nonneg_left (getD_load_nonneg hw j) (by exact_mod_cast hp)
      (by exact_mod_cast Nat.le_sub_one_of_lt hj)

end Loads

end TokenSpeed.Engine

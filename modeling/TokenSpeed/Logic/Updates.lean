import Mathlib.Data.List.Nodup
import Mathlib.Logic.Function.Basic

/-!
# Functions and lists changed at one point
-/

namespace TokenSpeed

open Function

variable {ι α β : Type*} [DecidableEq ι] {i j : ι}

/-- What holds of a value is said of the new one, or of an old one elsewhere. -/
theorem of_update {P : β → Prop} {f : ι → β} {v} (h : P (update f i v j)) : j = i ∧ P v ∨ j ≠ i ∧ P (f j) := by
  by_cases hj : j = i
  · rw [hj, update_self] at h
    exact .inl ⟨hj, h⟩
  · rw [update_of_ne hj] at h
    exact .inr ⟨hj, h⟩

theorem update_cases {f : ι → β} {v x} (h : update f i v j = x) : j = i ∧ v = x ∨ j ≠ i ∧ f j = x :=
  of_update (P := (· = x)) h

theorem mem_update_cases {f : ι → List α} {l x} (h : x ∈ update f i l j) : j = i ∧ x ∈ l ∨ j ≠ i ∧ x ∈ f j :=
  of_update (P := (x ∈ ·)) h

section

open List

/-- A list with distinct keys, one element set apart. -/
theorem perm_cons_filter {κ : Type*} [BEq κ] [LawfulBEq κ] {l : List α} {key : α → κ} {a} (hn : (l.map key).Nodup)
    (ha : a ∈ l) :
    l.Perm (a :: l.filter fun x => !(key x == key a)) ∧
      ∀ b, (l.map fun x => if key x == key a then b else x).Perm (b :: l.filter fun x => !(key x == key a)) := by
  have hl : l.filter (key · == key a) = [a] := by
    have hk : (l.filter (key · == key a)).map key = [key a] := by
      rw [← comp_def (· == key a), ← filter_map, filter_beq, count_eq_one_of_mem hn (mem_map_of_mem ha)]
      rfl
    obtain ⟨y, hy, -⟩ := map_eq_singleton_iff.mp hk
    have := hy ▸ mem_filter.mpr ⟨ha, beq_self_eq_true (key a)⟩
    rw [hy, mem_singleton.mp this]
  have hp := (filter_append_perm (key · == key a) l).symm
  rw [hl] at hp
  refine ⟨hp, fun b => (hp.map _).trans (.of_eq ?_)⟩
  rw [singleton_append, map_cons, if_pos (beq_self_eq_true _)]
  refine congrArg _ ((map_congr_left fun x hx => if_neg ?_).trans (map_id _))
  simpa using (mem_filter.mp hx).2

end

end TokenSpeed

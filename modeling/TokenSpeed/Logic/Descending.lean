import Mathlib.Data.List.Pairwise
import Mathlib.Order.Bounds.Basic

/-!
# Descending search

A scan of a list in descending order that stops at the first accepted element finds the greatest
accepted value.
-/

namespace TokenSpeed

open List

variable {α : Type}

/-- The value of the first accepted element, or `base` when there is none. -/
def firstValue (accept : α → Bool) (value : α → Nat) (base : Nat) (l : List α) : Nat :=
  ((l.find? accept).map value).getD base

@[simp] theorem firstValue_nil (accept : α → Bool) (value : α → Nat) (base) :
    firstValue accept value base [] = base := rfl

variable {value : α → Nat} {base : Nat} {l : List α} {accept : α → Bool} {a : α}

theorem firstValue_cons_pos (h : accept a = true) : firstValue accept value base (a :: l) = value a := by
  simp [firstValue, h]

theorem firstValue_cons_neg
    (h : accept a = false) : firstValue accept value base (a :: l) = firstValue accept value base l := by
  simp [firstValue, h]

theorem firstValue_map {value' : α → Nat} {base'} (f : Nat → Nat) (hba : base' = f base)
    (hv : ∀ a ∈ l, value' a = f (value a)) : firstValue accept value' base' l = f (firstValue accept value base l) := by
  induction l with
  | nil => exact hba
  | cons a l ih =>
    cases h : accept a with
    | true => rw [firstValue_cons_pos h, firstValue_cons_pos h, hv a mem_cons_self]
    | false =>
      rw [firstValue_cons_neg h, firstValue_cons_neg h]
      exact ih fun b hb => hv b (mem_cons_of_mem a hb)

/-- In a descending list above `base`, the first accepted value is the greatest. -/
theorem isGreatest_firstValue (accept : α → Bool)
    (hs : l.Pairwise fun a b => value b ≤ value a) (hba : ∀ a ∈ l, base ≤ value a) :
    IsGreatest {v | v = base ∨ ∃ a ∈ l, accept a = true ∧ value a = v} (firstValue accept value base l) := by
  induction l with
  | nil => exact ⟨.inl rfl, by rintro v (rfl | ⟨a, ha, -⟩) <;> simp_all⟩
  | cons a l ih =>
    rw [pairwise_cons] at hs
    cases h : accept a with
    | true =>
      rw [firstValue_cons_pos h]
      refine ⟨.inr ⟨a, mem_cons_self, h, rfl⟩, ?_⟩
      rintro v (rfl | ⟨b, hb, -, rfl⟩)
      · exact hba a mem_cons_self
      · rcases mem_cons.mp hb with rfl | hb
        · exact le_rfl
        · exact hs.1 b hb
    | false =>
      rw [firstValue_cons_neg h]
      have ih := ih hs.2 fun b hb => hba b (mem_cons_of_mem a hb)
      refine ⟨?_, ?_⟩
      · rcases ih.1 with hv | ⟨b, hb, hc, hv⟩
        · exact .inl hv
        · exact .inr ⟨b, mem_cons_of_mem a hb, hc, hv⟩
      · rintro v (rfl | ⟨b, hb, hc, rfl⟩)
        · exact ih.2 (.inl rfl)
        · rcases mem_cons.mp hb with rfl | hb
          · simp [h] at hc
          · exact ih.2 (.inr ⟨b, hb, hc, rfl⟩)

end TokenSpeed

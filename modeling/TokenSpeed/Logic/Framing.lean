import Mathlib.Data.List.Basic

/-!
# Self-delimiting encodings

What starts with the encoding of a value determines the value and what follows it.
-/

namespace TokenSpeed

open List

variable {α β : Type} {enc : α → List β} {P : α → Prop}

/-- A stream tells which value of `P` it starts with, and where that ends. -/
def Delimits (enc : α → List β) (P : α → Prop) : Prop :=
  ∀ a b, P a → P b → ∀ r r' : List β, enc a ++ r = enc b ++ r' → a = b ∧ r = r'

theorem Delimits.of_length {n} (hl : ∀ a, (enc a).length = n) (hj : ∀ a b, P a → P b → enc a = enc b → a = b) :
    Delimits enc P := by
  intro a b ha hb r r' h
  obtain ⟨hab, hr⟩ := append_inj h ((hl a).trans (hl b).symm)
  exact ⟨hj a b ha hb hab, hr⟩

/-- Values one after another, as many in both streams. -/
theorem Delimits.flatMap (h : Delimits enc P) : ∀ {l l' : List α} {r r' : List β}, l.length = l'.length →
    (∀ a ∈ l, P a) →
    (∀ a ∈ l', P a) → l.flatMap enc ++ r = l'.flatMap enc ++ r' → l = l' ∧ r = r'
  | [], [], _, _, _, _, _, hq => ⟨rfl, hq⟩
  | a :: l, b :: l', r, r', hh, hl, hl', hq => by
    simp only [flatMap_cons, append_assoc] at hq
    obtain ⟨rfl, ht⟩ := h a b (hl a mem_cons_self) (hl' b mem_cons_self) _ _ hq
    obtain ⟨rfl, hr⟩ := h.flatMap (Nat.succ.inj hh) (fun x hx => hl x (mem_cons_of_mem _ hx))
      (fun x hx => hl' x (mem_cons_of_mem _ hx)) ht
    exact ⟨rfl, hr⟩

/-- A list behind its length. -/
def framed (size : Nat → List β) (enc : α → List β) (l : List α) : List β := size l.length ++ l.flatMap enc

theorem Delimits.framed {size : Nat → List β} {bound : Nat} (hs : Delimits size (· < bound)) (h : Delimits enc P) :
    Delimits (framed size enc) fun l => l.length < bound ∧ ∀ a ∈ l, P a := by
  intro l l' hl hl' r r' hq
  simp only [TokenSpeed.framed, append_assoc] at hq
  obtain ⟨hh, hq⟩ := hs _ _ hl.1 hl'.1 _ _ hq
  exact h.flatMap hh hl.2 hl'.2 hq

end TokenSpeed

import Mathlib.Data.List.Basic

/-!
# Fallible computations

A computation returns or stops with a fault: a failed assertion, which the caller may observe as an
exception, or a fatal check, which ends the process. `Safe` states what holds after a computation that
reaches no fatal check.
-/

namespace TokenSpeed

open List

inductive Fault where
  | assertion (message : String)
  | fatal (message : String)
  deriving DecidableEq, Repr

def Fault.IsFatal : Fault → Prop
  | .assertion _ => False
  | .fatal _ => True

abbrev Result := Except Fault

/-- `_assert(condition, message)`. -/
def assert (condition : Bool) (message : String) : Result Unit :=
  if condition then .ok () else .error (.assertion message)

/-- `FatalCheck(condition, message)`. -/
def fatalCheck (condition : Bool) (message : String) : Result Unit :=
  if condition then .ok () else .error (.fatal message)

/-! ## Results that reach no fatal check -/

/-- The computation reaches no fatal check, and what it returns, if it returns, satisfies `Q`. -/
def Safe {α : Type} (m : Result α) (Q : α → Prop) : Prop :=
  match m with
  | .ok a => Q a
  | .error e => ¬ e.IsFatal

section Rules

variable {α β : Type} {m : Result α} {P Q : α → Prop}

variable {a : α}

@[simp] theorem safe_ok : Safe (Except.ok a) Q ↔ Q a := Iff.rfl

@[simp] theorem safe_pure : Safe (pure a) Q ↔ Q a := Iff.rfl

variable {message : String}

@[simp] theorem safe_assertion :
    Safe (.error (.assertion message) : Result α) Q := id

@[simp] theorem safe_fatal :
    ¬ Safe (.error (.fatal message) : Result α) Q := fun h => h trivial

theorem Safe.pure (h : Q a) : Safe (Pure.pure a) Q := h

theorem Safe.mono (h : Safe m P) (hp : ∀ a, P a → Q a) : Safe m Q := by
  cases m with
  | ok a => exact hp a h
  | error e => exact h

theorem Safe.of_ok (h : Safe m Q) (hm : m = .ok a) : Q a := by
  subst hm; exact h

theorem Safe.of_eq (hm : m = .ok a) (h : Q a) : Safe m Q := by
  subst hm; exact h

theorem Safe.not_fatal (h : Safe m Q) : m ≠ .error (.fatal message) := by
  rintro rfl; exact safe_fatal h

variable {R : β → Prop} {f : α → Result β}

theorem Safe.bind (hm : Safe m Q) (hf : ∀ a, Q a → Safe (f a) R) : Safe (m >>= f) R := by
  cases m with
  | ok a => exact hf a hm
  | error e => exact hm

variable {c : Bool}

theorem Safe.assert {f : Unit → Result β}
    (hf : c = true → Safe (f ()) R) : Safe (TokenSpeed.assert c message >>= f) R := by
  cases c with
  | true => exact hf rfl
  | false => exact safe_assertion

theorem Safe.foldlM {σ : Type} {f : σ → α → Result σ} (I : List α → σ → Prop) :
    ∀ (l : List α) (s : σ), I l s →
      (∀ a l s, I (a :: l) s → Safe (f s a) (I l)) → Safe (l.foldlM f s) (I [])
  | [], s, hs, _ => hs
  | a :: l, s, hs, hp => by
    rw [foldlM_cons]
    exact (hp a l s hs).bind fun s' hs' => Safe.foldlM I l s' hs' hp

theorem Safe.mapM {R : α → β → Prop} : ∀ l, (∀ a ∈ l, Safe (f a) (R a)) → Safe (l.mapM f) (Forall₂ R l)
  | [], _ => by rw [mapM_nil]; exact .nil
  | a :: l, h => by
    rw [mapM_cons]
    refine (h a mem_cons_self).bind fun b hb => ?_
    refine (Safe.mapM l fun x hx => h x (mem_cons_of_mem _ hx)).bind fun outs hs => ?_
    exact safe_pure.mpr (.cons hb hs)

end Rules

/-! ## Results that are returned -/

/-- The computation returns, and what it returns satisfies `Q`. -/
def Returns {α : Type} (m : Result α) (Q : α → Prop) : Prop :=
  match m with
  | .ok a => Q a
  | .error _ => False

section Returns

variable {α β : Type} {m : Result α} {P Q : α → Prop}

theorem Returns.pure {a : α} (h : Q a) : Returns (Pure.pure a) Q := h

theorem Returns.safe (h : Returns m Q) : Safe m Q := by
  cases m with
  | ok a => exact h
  | error e => exact h.elim

theorem Returns.exists (h : Returns m Q) : ∃ a, m = .ok a ∧ Q a := by
  cases m with
  | ok a => exact ⟨a, rfl, h⟩
  | error e => exact h.elim

theorem Returns.mono (h : Returns m P) (hp : ∀ a, P a → Q a) : Returns m Q := by
  cases m with
  | ok a => exact hp a h
  | error e => exact h

variable {R : β → Prop} {f : α → Result β}

theorem Returns.bind (hm : Returns m Q) (hf : ∀ a, Q a → Returns (f a) R) : Returns (m >>= f) R := by
  cases m with
  | ok a => exact hf a hm
  | error e => exact hm

variable {c : Bool} {message : String}

theorem Returns.fatalCheck {f : Unit → Result β}
    (hc : c = true) (hf : Returns (f ()) R) : Returns (TokenSpeed.fatalCheck c message >>= f) R := by
  subst hc; exact hf

theorem Returns.assert {f : Unit → Result β}
    (hc : c = true) (hf : Returns (f ()) R) : Returns (TokenSpeed.assert c message >>= f) R := by
  subst hc; exact hf

theorem Returns.mapM {R : α → β → Prop} : ∀ l, (∀ a ∈ l, Returns (f a) (R a)) → Returns (l.mapM f) (Forall₂ R l)
  | [], _ => by rw [mapM_nil]; exact .nil
  | a :: l, h => by
    rw [mapM_cons]
    refine (h a mem_cons_self).bind fun b hb => ?_
    refine (Returns.mapM l fun x hx => h x (mem_cons_of_mem _ hx)).bind fun outs hs => ?_
    exact .pure (.cons hb hs)

end Returns

/-! ## Inversion -/

theorem bind_ok {ε α β : Type} {m : Except ε α} {f : α → Except ε β} {b : β} :
    (m >>= f) = .ok b ↔ ∃ a, m = .ok a ∧ f a = .ok b := by
  cases m with
  | ok a => simp [bind, Except.bind]
  | error e => simp [bind, Except.bind]

theorem assert_ok {c} {message} : assert c message = .ok () ↔ c = true := by
  cases c <;> simp [assert]

end TokenSpeed

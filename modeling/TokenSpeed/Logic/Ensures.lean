import TokenSpeed.Logic.Fault

/-!
# What a computation that returns establishes

`Ensures m Q`: whatever `m` returns satisfies `Q`. Of faults it says nothing, so a check that was passed may
be assumed.
-/

namespace TokenSpeed

open List

/-- What the computation returns, if it returns, satisfies `Q`. -/
def Ensures {α : Type} (m : Result α) (Q : α → Prop) : Prop := ∀ a, m = .ok a → Q a

section Rules

variable {α β : Type} {m : Result α} {P Q : α → Prop}

variable {a : α}

@[simp] theorem ensures_ok : Ensures (Except.ok a) Q ↔ Q a :=
  ⟨fun h => h a rfl, fun h _ hq => Except.ok.inj hq ▸ h⟩

@[simp] theorem ensures_pure : Ensures (pure a) Q ↔ Q a := ensures_ok

@[simp] theorem ensures_error {e} : Ensures (.error e : Result α) Q := fun _ h => nomatch h

theorem Ensures.pure (h : Q a) : Ensures (Pure.pure a) Q := ensures_ok.mpr h

theorem Ensures.of_ok (h : Ensures m Q) (hm : m = .ok a) : Q a := h a hm

theorem Ensures.mono (h : Ensures m P) (hp : ∀ a, P a → Q a) : Ensures m Q := fun a ha => hp a (h a ha)

theorem Ensures.and (hp : Ensures m P) (hq : Ensures m Q) : Ensures m fun a => P a ∧ Q a :=
  fun a ha => ⟨hp a ha, hq a ha⟩

theorem Ensures.trivial : Ensures m fun a => m = .ok a := fun _ ha => ha

variable {R : β → Prop} {f : α → Result β}

theorem Ensures.bind (hm : Ensures m Q) (hf : ∀ a, Q a → Ensures (f a) R) : Ensures (m >>= f) R := by
  cases m with
  | ok a => exact hf a (hm a rfl)
  | error e => exact ensures_error

theorem Ensures.skip (hf : ∀ a, m = .ok a → Ensures (f a) R) : Ensures (m >>= f) R :=
  Ensures.bind Ensures.trivial hf

theorem Ensures.mapM : ∀ l : List α, (∀ a ∈ l, Ensures (f a) R) →
    Ensures (l.mapM f) fun out => out.length = l.length ∧ ∀ b ∈ out, R b
  | [], _ => by rw [mapM_nil]; exact .pure ⟨rfl, by simp⟩
  | a :: l, h => by
    rw [mapM_cons]
    refine (h a mem_cons_self).bind fun b hb => ?_
    refine (Ensures.mapM l fun x hx => h x (mem_cons_of_mem _ hx)).bind fun outs hbs => ?_
    exact .pure ⟨congrArg Nat.succ hbs.1, forall_mem_cons.mpr ⟨hb, hbs.2⟩⟩

variable {c : Bool} {message : String}

theorem Ensures.assert {f : Unit → Result β}
    (hf : c = true → Ensures (f ()) R) : Ensures (TokenSpeed.assert c message >>= f) R := by
  cases c with
  | true => exact hf rfl
  | false => exact ensures_error

theorem Ensures.fatalCheck {f : Unit → Result β}
    (hf : c = true → Ensures (f ()) R) : Ensures (TokenSpeed.fatalCheck c message >>= f) R := by
  cases c with
  | true => exact hf rfl
  | false => exact ensures_error

theorem Ensures.ite {c : Prop} [Decidable c] {m'} (ht : c → Ensures m Q) (hf : ¬ c → Ensures m' Q) :
    Ensures (if c then m else m') Q := by
  split
  next h => exact ht h
  next h => exact hf h

variable {σ : Type}

theorem Ensures.foldlM {f : σ → α → Result σ} (I : List α → σ → Prop) :
    ∀ (l : List α) (s : σ), I l s →
      (∀ a l s, I (a :: l) s → Ensures (f s a) (I l)) → Ensures (l.foldlM f s) (I [])
  | [], s, hs, _ => ensures_pure.mpr hs
  | a :: l, s, hs, hp => by
    rw [foldlM_cons]
    exact (hp a l s hs).bind fun s' hs' => Ensures.foldlM I l s' hs' hp

variable {l : List α}

theorem Ensures.foldlM_keep {f : σ → α → Result σ} (I : σ → Prop) {s : σ} (hs : I s)
    (hp : ∀ a ∈ l, ∀ s, I s → Ensures (f s a) I) : Ensures (l.foldlM f s) I := by
  refine Ensures.foldlM (fun rest s => (∀ a ∈ rest, a ∈ l) ∧ I s) l s ⟨fun _ h => h, hs⟩ ?_ |>.mono fun _ h => h.2
  rintro a rest s ⟨hm, hs⟩
  exact (hp a (hm a mem_cons_self) s hs).mono fun s' hs' =>
    ⟨fun x hx => hm x (mem_cons_of_mem _ hx), hs'⟩

theorem Ensures.foldlM_rel {f : σ → α → Result σ} {R : σ → σ → Prop} (hr : ∀ s, R s s)
    (ht : ∀ {s₁ s₂ s₃}, R s₁ s₂ → R s₂ s₃ → R s₁ s₃)
    (hs : ∀ a ∈ l, ∀ s, Ensures (f s a) (R s)) (s : σ) : Ensures (l.foldlM f s) (R s) :=
  Ensures.foldlM_keep (R s) (hr s) fun a ha s' hs' => (hs a ha s').mono fun _ h => ht hs' h

end Rules

end TokenSpeed

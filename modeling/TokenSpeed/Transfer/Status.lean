import TokenSpeed.Cache.Types

/-!
# Room states

`TransferPoll` and `RoomTable` of `ts-pd/src/status.rs`, and the `StatusMessage` of `ts-pd/src/wire.rs` a
Prefill rank sends to a Decode rank.
-/

namespace TokenSpeed.Transfer

inductive TransferPoll where
  | failed
  | bootstrapping
  | bootstrapped
  | waitingForInput
  | transferring
  | success
  deriving DecidableEq, Repr

namespace TransferPoll

def toWire : TransferPoll → Nat
  | failed => 0
  | bootstrapping => 1
  | bootstrapped => 2
  | waitingForInput => 3
  | transferring => 4
  | success => 5

def fromWire : Nat → Option TransferPoll
  | 0 => some failed
  | 1 => some bootstrapping
  | 2 => some bootstrapped
  | 3 => some waitingForInput
  | 4 => some transferring
  | 5 => some success
  | _ => none

def later (a b : TransferPoll) : TransferPoll := if a.toWire ≤ b.toWire then b else a

@[simp] theorem fromWire_toWire (a : TransferPoll) : fromWire a.toWire = some a := by cases a <;> rfl

theorem fromWire_eq_success {n} (h : fromWire n = some success) : n = success.toWire := by
  unfold fromWire at h
  split at h <;> simp_all [toWire]

theorem toWire_le (a : TransferPoll) : a.toWire ≤ 5 := by cases a <;> simp [toWire]

/-- An answer that is no failure, where no other member failed, is agreed to be none. -/
theorem fromWire_min {a : TransferPoll} {other : Nat} (ha : a ≠ failed) (ho : other ≠ 0) :
    (fromWire (min a.toWire other)).getD failed ≠ failed := by
  have hr : 1 ≤ min a.toWire other ∧ min a.toWire other ≤ 5 := by
    have := a.toWire_le
    cases a <;> simp_all [toWire] <;> omega
  generalize min a.toWire other = code at hr ⊢
  match code, hr with
  | 1, _ | 2, _ | 3, _ | 4, _ | 5, _ => simp [fromWire]

theorem fromWire_min_success {a : TransferPoll} {other : Nat} (ha : a ≠ success) :
    (fromWire (min a.toWire other)).getD failed ≠ success := by
  have hr : min a.toWire other ≤ 4 := by cases a <;> simp_all [toWire]
  generalize min a.toWire other = code at hr ⊢
  match code, hr with
  | 0, _ | 1, _ | 2, _ | 3, _ | 4, _ => simp [fromWire]

@[simp] theorem later_success (a) : later a success = success := by cases a <;> rfl

theorem later_eq_success {a b} (h : later a b = success) : a = success ∨ b = success := by
  unfold later at h
  split at h
  · exact .inr h
  · exact .inl h

end TransferPoll

structure RoomTable where
  states : Nat → Option TransferPoll := fun _ => none
  failures : Nat → Option String := fun _ => none

namespace RoomTable

variable (t : RoomTable)

def get (room : Nat) : Option TransferPoll := t.states room

def advanced (room : Nat) (status : TransferPoll) : TransferPoll :=
  let entry := (t.states room).getD status
  if entry = .failed ∨ status = .failed then .failed else entry.later status

def update (room : Nat) (status : TransferPoll) : RoomTable :=
  { t with states := Function.update t.states room (some (t.advanced room status)) }

def recordFailure (room : Nat) (reason : String) : RoomTable :=
  { t with failures := Function.update t.failures room (some reason) }

def hasFailure (room : Nat) : Bool := (t.failures room).isSome

def remove (room : Nat) : RoomTable :=
  { states := Function.update t.states room none, failures := Function.update t.failures room none }

variable {t} {room room' : Nat} {status : TransferPoll}

@[simp] theorem get_update_self : (t.update room status).get room = some (t.advanced room status) :=
  Function.update_self ..

theorem get_update_of_ne (h : room' ≠ room) : (t.update room status).get room' = t.get room' :=
  Function.update_of_ne h ..

@[simp] theorem get_remove_self : (t.remove room).get room = none := Function.update_self ..

theorem get_remove_of_ne (h : room' ≠ room) : (t.remove room).get room' = t.get room' := Function.update_of_ne h ..

theorem advanced_of_failed (h : t.get room = some .failed) : t.advanced room status = .failed := by
  change t.states room = _ at h
  simp [advanced, h]

@[simp] theorem advanced_failed : t.advanced room .failed = .failed := by simp [advanced]

theorem advanced_eq_success (h : t.advanced room status = .success) :
    t.get room = some .success ∨ status = .success := by
  unfold advanced at h
  unfold get
  cases hr : t.states room with
  | none =>
    simp only [hr, Option.getD_none, or_self] at h
    split at h
    · cases h
    · exact .inr ((TransferPoll.later_eq_success h).elim id id)
  | some entry =>
    simp only [hr, Option.getD_some] at h
    split at h
    · cases h
    · exact (TransferPoll.later_eq_success h).imp (by rintro rfl; rfl) id

theorem advanced_eq_failed (h : t.advanced room status = .failed) : t.get room = some .failed ∨ status = .failed := by
  unfold advanced at h
  unfold get
  cases hr : t.states room with
  | none =>
    simp only [hr, Option.getD_none, or_self] at h
    split at h
    · next hf => exact .inr hf
    · next hk =>
      unfold TransferPoll.later at h
      rw [if_pos (Nat.le_refl _)] at h
      exact absurd h hk
  | some entry =>
    simp only [hr, Option.getD_some] at h
    split at h
    · next hf => exact hf.imp (congrArg some) id
    · next hk =>
      rw [not_or] at hk
      unfold TransferPoll.later at h
      split at h
      · exact absurd h hk.2
      · exact absurd h hk.1

theorem advanced_success (h : t.get room ≠ some .failed) : t.advanced room .success = .success := by
  cases hr : t.states room with
  | none => simp [advanced, hr, TransferPoll.later]
  | some entry =>
    have : entry ≠ .failed := fun he => h (hr.trans (congrArg some he))
    simp [advanced, hr, this]

end RoomTable

/-- `StatusMessage`; a logprob is the bits of its float. -/
structure StatusMessage where
  room : Nat
  status : TransferPoll
  prefillRank : Int
  bootstrapToken : Int := -1
  specCandidateIds : Option (List Token) := none
  cachedTokens : Int := 0
  bootstrapLogprob : Option (BitVec 64) := none
  deriving DecidableEq, Repr

end TokenSpeed.Transfer

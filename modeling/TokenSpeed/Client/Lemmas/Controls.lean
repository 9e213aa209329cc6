import TokenSpeed.Client.Controls
import Mathlib.Data.List.Nodup
import Mathlib.Data.List.Perm.Subperm
import TokenSpeed.Logic.Updates

/-!
# Replies go to the operation they answer
-/

namespace TokenSpeed.Client.ControlRun

open Function List Option

variable {n : Nat} {tag : Nat → Nat} {h h' : ControlRun} {op e k : Nat}

/-! ## The invariant -/

structure Answers (n op : Nat) (replies : List ControlReply) : Prop where
  own : ∀ reply ∈ replies, reply.op = op ∧ reply.engine < n
  nodup : (replies.map (·.engine)).Nodup

structure Sends (n : Nat) (tag : Nat → Nat) (phase : Nat → ControlPhase) (turn : Nat → Option Nat)
    (outstanding : Nat → List Nat) : Prop where
  holds : ∀ op, (phase op = .turn ∨ ∃ k, phase op = .sending k) → turn (tag op) = some op
  sent : ∀ e, ∀ op ∈ outstanding e, e < n ∧ ((∃ k, phase op = .sending k ∧ e < k) ∨ phase op = .ended)
  nodup : ∀ e, (outstanding e).Nodup

structure Waits (n : Nat) (tag : Nat → Nat) (phase : Nat → ControlPhase) (outstanding : Nat → List Nat) (τ : Nat)
    (w : ControlWaiter) : Prop where
  tagged : tag w.op = τ
  started : phase w.op = .ended ∨ ∃ k, phase w.op = .sending k
  answers : Answers n w.op w.replies
  answered : ∀ reply ∈ w.replies, w.op ∉ outstanding reply.engine ∧ ∀ k, phase w.op = .sending k → reply.engine < k
  alone : ∀ other, other ≠ w.op → tag other = τ → (∀ e, other ∉ outstanding e) ∧ ∀ k, phase other ≠ .sending k

def Complete (n : Nat) (results : Nat → Option (List ControlReply)) : Prop :=
  ∀ op replies, results op = some replies → Answers n op replies ∧ replies.length = n

structure Inv (n : Nat) (tag : Nat → Nat) (h : ControlRun) : Prop where
  sends : Sends n tag h.phase h.turn h.outstanding
  waits : ∀ τ w, h.waiter τ = some w → Waits n tag h.phase h.outstanding τ w
  result : Complete n h.result
  returned : Complete n h.returned

theorem Complete.update {rss : Nat → Option (List ControlReply)} (hc : Complete n rss) {rps : List ControlReply}
    (hr : Answers n op rps ∧ rps.length = n) : Complete n (update rss op (some rps)) := by
  intro other replies hs
  rcases update_cases hs with ⟨rfl, hu⟩ | ⟨-, hs⟩
  · cases hu
    exact hr
  · exact hc other replies hs

section Sends

variable {phase : Nat → ControlPhase} {turn : Nat → Option Nat} {outstanding : Nat → List Nat} {p : ControlPhase}

section

variable (hsn : Sends n tag phase turn outstanding)
include hsn

theorem Sends.enter (hb : phase op ≠ .ended ∧ ∀ k, phase op ≠ .sending k)
    (hh : (p = .turn ∨ ∃ k, p = .sending k) → turn (tag op) = some op) :
    Sends n tag (update phase op p) turn outstanding := by
  have hn : ∀ e, op ∉ outstanding e := fun e hm => by
    rcases (hsn.sent e op hm).2 with ⟨k, hp, _⟩ | hp
    · exact hb.2 k hp
    · exact hb.1 hp
  refine ⟨fun other hp => ?_, fun e other hm => ?_, hsn.nodup⟩
  · by_cases ht : other = op
    · subst ht
      rw [update_self] at hp
      exact hh hp
    · rw [update_of_ne ht] at hp
      exact hsn.holds other hp
  · rw [update_of_ne (by rintro rfl; exact hn e hm)]
    exact hsn.sent e other hm

theorem Sends.acquire (hw : phase op = .waiting) (hf : turn (tag op) = none) :
    Sends n tag (update phase op .turn) (update turn (tag op) (some op)) outstanding := by
  have hh : Sends n tag phase (update turn (tag op) (some op)) outstanding := by
    refine ⟨fun other hp => ?_, hsn.sent, hsn.nodup⟩
    have hot := hsn.holds other hp
    rw [update_of_ne (fun ht => by rw [ht, hf] at hot; cases hot)]
    exact hot
  exact hh.enter ⟨by rw [hw]; decide, fun k => by rw [hw]; exact ControlPhase.noConfusion⟩ fun _ => update_self ..

theorem Sends.release (hd : phase op = .ended) :
    Sends n tag phase (if turn (tag op) = some op then update turn (tag op) none else turn) outstanding := by
  refine ⟨fun other hp => ?_, hsn.sent, hsn.nodup⟩
  have hl := hsn.holds other hp
  split
  · next hh =>
    have ht : tag other ≠ tag op := fun ht => by
      rw [ht, hh] at hl
      rw [← some.inj hl, hd] at hp
      rcases hp with hp | ⟨_, hp⟩ <;> cases hp
    rw [update_of_ne ht]
    exact hl
  · exact hl

theorem Sends.ended (op) : Sends n tag (update phase op .ended) turn outstanding := by
  refine ⟨fun other hp => ?_, fun e other hm => ?_, hsn.nodup⟩
  · by_cases hh : other = op
    · subst hh
      rw [update_self] at hp
      rcases hp with hp | ⟨_, hp⟩ <;> cases hp
    · rw [update_of_ne hh] at hp
      exact hsn.holds other hp
  · refine ⟨(hsn.sent e other hm).1, ?_⟩
    by_cases hh : other = op
    · exact .inr (by rw [hh, update_self])
    · rw [update_of_ne hh]
      exact (hsn.sent e other hm).2

end

theorem Sends.leave (hsn : Sends n tag h.phase h.turn outstanding) :
    Sends n tag (h.leave tag op).phase (h.leave tag op).turn outstanding :=
  (hsn.ended op).release (update_self ..)

theorem Sends.send (hsn : Sends n tag phase turn h.outstanding) (hn : phase op = .sending k) (hk : k < n)
    (hp : p = .ended ∨ p = .sending (k + 1)) : Sends n tag (update phase op p) turn (h.sendTo k op) := by
  have hw : op ∉ h.outstanding k := fun hm => by
    rcases (hsn.sent k op hm).2 with ⟨j, hph, hl⟩ | hph
    · rw [hn] at hph
      cases hph
      exact Nat.lt_irrefl k hl
    · rw [hn] at hph
      cases hph
  have hs : ∀ e ≤ k, (∃ j, p = .sending j ∧ e < j) ∨ p = .ended := fun e he => by
    rcases hp with rfl | rfl
    · exact .inr rfl
    · exact .inl ⟨k + 1, rfl, Nat.lt_succ_of_le he⟩
  refine ⟨fun other hph => ?_, fun e other hm => ?_, fun e => ?_⟩
  · by_cases hh : other = op
    · exact hh ▸ hsn.holds op (.inr ⟨k, hn⟩)
    · rw [update_of_ne hh] at hph
      exact hsn.holds other hph
  · by_cases hh : other = op
    · subst hh
      rw [update_self]
      by_cases hek : e = k
      · exact ⟨by omega, hs e (by omega)⟩
      · rw [sendTo, update_of_ne hek] at hm
        obtain ⟨hl, hph⟩ := hsn.sent e other hm
        refine ⟨hl, hs e ?_⟩
        rcases hph with ⟨j, hph, hej⟩ | hph
        · rw [hn] at hph
          cases hph
          omega
        · rw [hn] at hph
          cases hph
    · rw [update_of_ne hh]
      refine hsn.sent e other ?_
      by_cases hek : e = k
      · subst hek
        rw [sendTo, update_self] at hm
        exact (mem_append.mp hm).resolve_right fun hm => hh (mem_singleton.mp hm)
      · rw [sendTo, update_of_ne hek] at hm
        exact hm
  · by_cases hek : e = k
    · subst hek
      rw [sendTo, update_self]
      exact nodup_append.mpr ⟨hsn.nodup e, nodup_singleton op,
        fun a ha b hb hab => hw (by rw [← mem_singleton.mp hb, ← hab]; exact ha)⟩
    · rw [sendTo, update_of_ne hek]
      exact hsn.nodup e

end Sends

section Waits

variable {phase : Nat → ControlPhase} {outstanding : Nat → List Nat} {p : ControlPhase} {τ : Nat} {w : ControlWaiter}

section

variable (hwa : Waits n tag phase outstanding τ w)
include hwa

theorem Waits.ended (op) : Waits n tag (update phase op .ended) outstanding τ w := by
  have hs : ∀ other k, update phase op .ended other = .sending k → phase other = .sending k := fun other k hp => by
    rcases update_cases hp with ⟨hh, hp⟩ | ⟨-, hp⟩
    · cases hp
    · exact hp
  refine ⟨hwa.tagged, ?_, hwa.answers, fun reply hr => ⟨(hwa.answered reply hr).1, fun k hk => ?_⟩,
    fun other hn ht => ?_⟩
  · by_cases hop : w.op = op
    · exact .inl (by rw [hop, update_self])
    · rw [update_of_ne hop]
      exact hwa.started
  · exact (hwa.answered reply hr).2 k (hs _ k hk)
  · exact ⟨(hwa.alone other hn ht).1, fun k hk => (hwa.alone other hn ht).2 k (hs other k hk)⟩

theorem Waits.enter (hp : op ≠ w.op) (hs : ∀ k, p = .sending k → tag op ≠ τ) :
    Waits n tag (update phase op p) outstanding τ w := by
  refine ⟨hwa.tagged, ?_, hwa.answers, fun reply hr => ?_,
    fun other hn ht => ⟨(hwa.alone other hn ht).1, fun k hk => ?_⟩⟩
  · rw [update_of_ne hp.symm]
    exact hwa.started
  · rw [update_of_ne hp.symm]
    exact hwa.answered reply hr
  · rcases update_cases hk with ⟨rfl, hu⟩ | ⟨-, hk⟩
    · exact hs k hu ht
    · exact (hwa.alone other hn ht).2 k hk

theorem Waits.less {outstanding' : Nat → List Nat}
    (hl : ∀ e, ∀ other ∈ outstanding' e, other ∈ outstanding e) : Waits n tag phase outstanding' τ w :=
  ⟨hwa.tagged, hwa.started, hwa.answers,
    fun reply hr => ⟨fun hm => (hwa.answered reply hr).1 (hl _ _ hm), (hwa.answered reply hr).2⟩,
    fun other hn ht => ⟨fun e hm => (hwa.alone other hn ht).1 e (hl e other hm), (hwa.alone other hn ht).2⟩⟩

end

theorem mem_sendTo {other} (hm : other ∈ h.sendTo k op e) : other ∈ h.outstanding e ∨ e = k ∧ other = op := by
  by_cases hk : e = k
  · subst hk
    rw [sendTo, update_self] at hm
    exact (mem_append.mp hm).imp_right fun hm => ⟨rfl, mem_singleton.mp hm⟩
  · rw [sendTo, update_of_ne hk] at hm
    exact .inl hm

theorem Waits.send_other (hwa : Waits n tag phase h.outstanding τ w) (ht : tag op ≠ τ) :
    Waits n tag phase (h.sendTo k op) τ w := by
  have hp : w.op ≠ op := fun hq => ht (hq ▸ hwa.tagged)
  refine ⟨hwa.tagged, hwa.started, hwa.answers, fun reply hr => ⟨fun hm => ?_, (hwa.answered reply hr).2⟩,
    fun other hn hh => ⟨fun e hm => ?_, (hwa.alone other hn hh).2⟩⟩
  · rcases mem_sendTo hm with hm | ⟨_, hq⟩
    · exact (hwa.answered reply hr).1 hm
    · exact hp hq
  · rcases mem_sendTo hm with hm | ⟨_, rfl⟩
    · exact (hwa.alone other hn hh).1 e hm
    · exact ht hh

theorem Waits.send (hwa : Waits n tag phase h.outstanding τ w) (hs : phase w.op = .sending k) :
    Waits n tag (update phase w.op (.sending (k + 1))) (h.sendTo k w.op) τ w := by
  refine ⟨hwa.tagged, .inr ⟨k + 1, update_self ..⟩, hwa.answers, fun reply hr => ?_,
    fun other hne hh => ⟨fun e hm => ?_, ?_⟩⟩
  · obtain ⟨hn, hl⟩ := hwa.answered reply hr
    have hl := hl k hs
    refine ⟨fun hm => ?_, fun j hj => ?_⟩
    · rcases mem_sendTo hm with hm | ⟨hq, _⟩
      · exact hn hm
      · omega
    · rw [update_self] at hj
      cases hj
      omega
  · rcases mem_sendTo hm with hm | ⟨_, hq⟩
    · exact (hwa.alone other hne hh).1 e hm
    · exact hne hq
  · rw [update_of_ne hne]
    exact (hwa.alone other hne hh).2

end Waits

/-! ## Steps -/

section Steps

variable (hin : Inv n tag h)
include hin

theorem Inv.leave (op) : Inv n tag (h.leave tag op) :=
  ⟨hin.sends.leave, fun τ w hw => (hin.waits τ w hw).ended op, hin.result, hin.returned⟩

theorem Inv.register (ht : h.phase op = .turn) (hd : h.Orderly n tag (.register op)) :
    Inv n tag { h with
      phase := update h.phase op (.sending 0)
      waiter := update h.waiter (tag op) (some { op := op }) } := by
  have hh := hin.sends.holds op (.inl ht)
  have hsn := hin.sends.enter (p := .sending 0)
    ⟨by rw [ht]; decide, fun k => by rw [ht]; exact ControlPhase.noConfusion⟩ fun _ => hh
  refine ⟨hsn, fun τ w hw => ?_, hin.result, hin.returned⟩
  rcases update_cases hw with ⟨rfl, hn⟩ | ⟨hτ, hw⟩
  · cases hn
    refine ⟨rfl, .inr ⟨0, update_self ..⟩, ⟨forall_mem_nil _, nodup_nil⟩,
      forall_mem_nil _, fun other hne hg => ⟨fun e hm => ?_, fun k hk => ?_⟩⟩
    · exact hne (hd e (hin.sends.sent e other hm).1 other hm hg)
    · have hk : h.phase other = .sending k := (update_of_ne hne ..).symm.trans hk
      have hl := hin.sends.holds other (.inr ⟨k, hk⟩)
      rw [hg, hh] at hl
      exact hne (some.inj hl).symm
  · have hwa := hin.waits τ w hw
    exact hwa.enter (fun hq => hτ (by rw [hq]; exact hwa.tagged.symm)) fun _ _ hg => hτ hg.symm

theorem Inv.send (hs : h.phase op = .sending k) (hk : k < n) :
    Inv n tag { h with phase := update h.phase op (.sending (k + 1)), outstanding := h.sendTo k op } := by
  refine ⟨hin.sends.send hs hk (.inr rfl), fun τ w hw => ?_, hin.result, hin.returned⟩
  have hwa := hin.waits τ w hw
  by_cases ht : tag op = τ
  · have hp : op = w.op := by
      by_contra hn
      exact (hwa.alone op hn ht).2 k hs
    subst hp
    exact hwa.send hs
  · exact (hwa.send_other ht).enter (fun hq => ht (by rw [hq]; exact hwa.tagged)) fun _ _ => ht

theorem Inv.sendFailed {dl : Bool} (hs : h.phase op = .sending k) (hk : k < n) :
    Inv n tag { h.leave tag op with
      waiter := update h.waiter (tag op) none
      outstanding := if dl then h.sendTo k op else h.outstanding } := by
  refine ⟨?_, fun τ w hw => ?_, hin.result, hin.returned⟩
  · cases dl with
    | false => exact hin.sends.leave
    | true => exact (hin.sends.send hs hk (.inl rfl)).release (update_self ..)
  · rcases update_cases hw with ⟨_, hw⟩ | ⟨hτ, hw⟩
    · cases hw
    · have hwa := (hin.waits τ w hw).ended op
      cases dl with
      | false => exact hwa
      | true => exact hwa.send_other hτ.symm

theorem Inv.receive (hm : op ∈ h.outstanding e) :
    Inv n tag ({ h with
      outstanding := update h.outstanding e ((h.outstanding e).erase op) }.dispatchControl n tag ⟨e, op⟩) := by
  have hl : ∀ e', ∀ other ∈ update h.outstanding e ((h.outstanding e).erase op) e', other ∈ h.outstanding e' :=
    fun e' other hh => by
    rcases mem_update_cases hh with ⟨rfl, hh⟩ | ⟨-, hh⟩
    · exact mem_of_mem_erase hh
    · exact hh
  have hg : op ∉ update h.outstanding e ((h.outstanding e).erase op) e := by
    rw [update_self]
    exact (hin.sends.nodup e).not_mem_erase
  have hsn : Sends n tag h.phase h.turn (update h.outstanding e ((h.outstanding e).erase op)) := by
    refine ⟨hin.sends.holds, fun e' other hh => hin.sends.sent e' other (hl e' other hh), fun e' => ?_⟩
    by_cases hee : e' = e
    · rw [hee, update_self]
      exact (hin.sends.nodup e).erase op
    · rw [update_of_ne hee]
      exact hin.sends.nodup e'
  have ht : ∀ τ w, h.waiter τ = some w →
    Waits n tag h.phase (update h.outstanding e ((h.outstanding e).erase op)) τ w :=
    fun τ w hw => (hin.waits τ w hw).less hl
  unfold dispatchControl
  cases hwt : h.waiter (tag op) with
  | none => exact ⟨hsn, ht, hin.result, hin.returned⟩
  | some w =>
    have hwa := hin.waits _ w hwt
    have hp : op = w.op := by
      by_contra hne
      exact (hwa.alone op hne rfl).1 e hm
    obtain ⟨hlt, hph⟩ := hin.sends.sent e op hm
    have han : Answers n w.op (w.replies ++ [⟨e, op⟩]) := by
      refine ⟨forall_mem_append.mpr ⟨hwa.answers.own, forall_mem_singleton.mpr ⟨hp, hlt⟩⟩, ?_⟩
      rw [map_append, map_singleton]
      refine nodup_append.mpr ⟨hwa.answers.nodup, nodup_singleton e, fun a ha b hb hab => ?_⟩
      obtain ⟨reply, hr, rfl⟩ := mem_map.mp ha
      refine (hwa.answered reply hr).1 ?_
      rw [hab, mem_singleton.mp hb, ← hp]
      exact hm
    dsimp only
    split
    · next hln =>
      refine ⟨hsn, fun τ w' hw' => ?_, hin.result.update ⟨han, hln⟩, hin.returned⟩
      rcases update_cases hw' with ⟨_, hw'⟩ | ⟨_, hw'⟩
      · cases hw'
      · exact ht τ w' hw'
    · refine ⟨hsn, fun τ w' hw' => ?_, hin.result, hin.returned⟩
      rcases update_cases hw' with ⟨rfl, hn⟩ | ⟨_, hw'⟩
      · cases hn
        have hold := ht _ w hwt
        refine { hold with answers := han, answered := forall_mem_append.mpr ⟨hold.answered,
          forall_mem_singleton.mpr ?_⟩ }
        refine ⟨by rw [← hp]; exact hg, fun k hk => ?_⟩
        rcases hph with ⟨j, hj, hlt⟩ | hd
        · rw [hp, hk] at hj
          cases hj
          exact hlt
        · rw [hp, hk] at hd
          cases hd
      · exact ht τ w' hw'

theorem Inv.step {ev} (hd : h.Orderly n tag ev) (hs : h.step n tag ev = some h') : Inv n tag h' := by
  have hid : ∀ {op τ w}, h.waiter τ = some w → (h.phase op = .fresh ∨ h.phase op = .waiting) →
    op ≠ w.op := fun {op τ w} hw hp hq => by
    subst hq
    rcases (hin.waits τ w hw).started with ht | ⟨k, ht⟩ <;> rw [ht] at hp <;> rcases hp with hp | hp <;> cases hp
  cases ev with
  | call op =>
    obtain ⟨hp, ⟨⟩⟩ := ite_none_right_eq_some.mp hs
    have hsn := hin.sends.enter (p := .waiting)
      ⟨by rw [hp]; decide, fun k => by rw [hp]; exact ControlPhase.noConfusion⟩
      fun hh => by rcases hh with hh | ⟨_, hh⟩ <;> cases hh
    exact ⟨hsn, fun τ w hw => (hin.waits τ w hw).enter (hid hw (.inl hp)) fun _ hn => (by cases hn), hin.result,
      hin.returned⟩
  | acquire op =>
    obtain ⟨⟨hp, hf⟩, hs⟩ := ite_none_right_eq_some.mp hs
    split at hs
    · cases hs
      exact hin.leave op
    · cases hs
      exact ⟨hin.sends.acquire hp hf, fun τ w hw => (hin.waits τ w hw).enter (hid hw (.inr hp)) fun _ hn =>
        (by cases hn), hin.result, hin.returned⟩
  | register op =>
    obtain ⟨hp, ⟨⟩⟩ := ite_none_right_eq_some.mp hs
    exact hin.register hp hd
  | send op =>
    simp only [ControlRun.step] at hs
    split at hs
    · next hn =>
      obtain ⟨hk, ⟨⟩⟩ := ite_none_right_eq_some.mp hs
      exact hin.send hn hk
    · cases hs
  | sendFailed op dl =>
    simp only [ControlRun.step] at hs
    split at hs
    · next hn =>
      obtain ⟨hk, ⟨⟩⟩ := ite_none_right_eq_some.mp hs
      exact hin.sendFailed hn hk
    · cases hs
  | giveUp op =>
    obtain ⟨_, ⟨⟩⟩ := ite_none_left_eq_some.mp hs
    exact hin.leave op
  | receive e op =>
    obtain ⟨hm, ⟨⟩⟩ := ite_none_right_eq_some.mp hs
    exact hin.receive hm
  | finish op =>
    obtain ⟨_, hs⟩ := ite_none_right_eq_some.mp hs
    split at hs
    · cases hs
    · next rps hr =>
      cases hs
      have hl := hin.leave op
      exact { hl with returned := hin.returned.update (hin.result op rps hr) }
  | fail op =>
    obtain ⟨_, ⟨⟩⟩ := ite_none_right_eq_some.mp hs
    exact hin.leave op
  | close =>
    cases hs
    exact { hin with }
  | clear =>
    obtain ⟨_, ⟨⟩⟩ := ite_none_right_eq_some.mp hs
    exact { hin with waits := fun _ _ hw => (by cases hw) }

theorem Inv.answered : h.Answered n := by
  intro op rps hr
  obtain ⟨hn, hg⟩ := hin.returned op rps hr
  refine ⟨?_, fun reply hl => (hn.own reply hl).1⟩
  have hs : rps.map (·.engine) ⊆ range n := fun e he => by
    obtain ⟨reply, hl, rfl⟩ := mem_map.mp he
    exact mem_range.mpr (hn.own reply hl).2
  exact (subperm_of_subset hn.nodup hs).perm_of_length_le (by simp [hg])

end Steps

theorem Inv.start : Inv n tag {} :=
  ⟨⟨fun _ hp => (by rcases hp with hp | ⟨_, hp⟩ <;> cases hp), fun _ _ hm => absurd hm not_mem_nil, fun _ => nodup_nil⟩,
    fun _ _ hw => (by cases hw), fun _ _ hr => (by cases hr), fun _ _ hr => (by cases hr)⟩

end TokenSpeed.Client.ControlRun

import Mathlib.Algebra.BigOperators.Group.Finset.Piecewise
import Mathlib.Algebra.Order.BigOperators.Group.Finset
import TokenSpeed.Cache.BlockPool

/-!
# Parents needed

How `parentsNeededForBuckets` moves when a parent is opened, a slot is freed or a block is placed.
-/

namespace TokenSpeed

open Finset Function

theorem ceilDiv_sub {w} (hw : 0 < w) (n) : (n - w + w - 1) / w = (n + w - 1) / w - 1 := by
  rcases lt_or_ge n w with h | h
  · have h1 : (n - w + w - 1) / w = 0 := Nat.div_eq_of_lt (by omega)
    have h2 : (n + w - 1) / w < 2 := (Nat.div_lt_iff_lt_mul hw).mpr (by omega)
    omega
  · have h1 : n + w - 1 = (n - w + w - 1) + w := by omega
    rw [h1, Nat.add_div_right _ hw]
    rfl

theorem ceilDiv_mono {w m n} (h : m ≤ n) : (m + w - 1) / w ≤ (n + w - 1) / w :=
  Nat.div_le_div_right (by omega)

theorem ceilDiv_pos {w n} (hw : 0 < w) (hn : 0 < n) : 0 < (n + w - 1) / w :=
  Nat.div_pos (by omega) hw

section

variable {B w : Nat} {need holes : Nat → Nat} {dn : Nat}

def bucketParents (w : Nat) (need holes : Nat → Nat) (b : Nat) : Nat :=
  (need b - holes b + w - 1) / w

theorem parentsNeeded_eq (hB : 0 < B) (need holes : Nat → Nat) (dn) :
    parentsNeededForBuckets B need holes dn (B * w) =
      max ((range B).sup (bucketParents w need holes))
        ((dn + ∑ b ∈ range B, need b - ∑ b ∈ range B, holes b + B * w - 1) / (B * w)) := by
  unfold parentsNeededForBuckets bucketParents
  rw [Nat.mul_div_cancel_left w hB]

theorem parentsNeeded_mono (hB : 0 < B) {need' holes' : Nat → Nat} {dn'}
    (hn : ∀ b < B, need b ≤ need' b) (hh : ∀ b < B, holes' b ≤ holes b) (hd : dn ≤ dn') :
    parentsNeededForBuckets B need holes dn (B * w) ≤
      parentsNeededForBuckets B need' holes' dn' (B * w) := by
  rw [parentsNeeded_eq hB, parentsNeeded_eq hB]
  refine max_le_max ?_ (ceilDiv_mono ?_)
  · refine sup_mono_fun fun b hb => ceilDiv_mono ?_
    have h1 := hn b (mem_range.mp hb)
    have h2 := hh b (mem_range.mp hb)
    omega
  · have h1 : ∑ b ∈ range B, need b ≤ ∑ b ∈ range B, need' b :=
      sum_le_sum fun b hb => hn b (mem_range.mp hb)
    have h2 : ∑ b ∈ range B, holes' b ≤ ∑ b ∈ range B, holes b :=
      sum_le_sum fun b hb => hh b (mem_range.mp hb)
    omega

theorem parentsNeeded_congr (hB : 0 < B) {need' holes' : Nat → Nat}
    (hn : ∀ b < B, need b = need' b) (hh : ∀ b < B, holes b = holes' b) :
    parentsNeededForBuckets B need holes dn (B * w) =
      parentsNeededForBuckets B need' holes' dn (B * w) :=
  le_antisymm
    (parentsNeeded_mono hB (fun b hb => (hn b hb).le) (fun b hb => (hh b hb).ge) le_rfl)
    (parentsNeeded_mono hB (fun b hb => (hn b hb).ge) (fun b hb => (hh b hb).le) le_rfl)

theorem parentsNeeded_open (hB : 0 < B) (hw : 0 < w) (need holes : Nat → Nat) (dense) :
    parentsNeededForBuckets B need (fun b => holes b + w) dense (B * w) =
      parentsNeededForBuckets B need holes dense (B * w) - 1 := by
  have hBw : 0 < B * w := Nat.mul_pos hB hw
  have hs : ∑ b ∈ range B, (holes b + w) = ∑ b ∈ range B, holes b + B * w := by
    rw [sum_add_distrib, sum_const_nat fun _ _ => rfl, card_range]
  have hk : ∀ b, bucketParents w need (fun b => holes b + w) b =
      bucketParents w need holes b - 1 := by
    intro b
    unfold bucketParents
    rw [← ceilDiv_sub hw, Nat.sub_sub]
  have hp : (range B).sup (bucketParents w need fun b => holes b + w) =
      (Finset.range B).sup (bucketParents w need holes) - 1 := by
    refine le_antisymm (Finset.sup_le fun b hb => ?_) ?_
    · rw [hk]
      exact Nat.sub_le_sub_right (le_sup hb) 1
    · rw [Nat.sub_le_iff_le_add]
      refine Finset.sup_le fun b hb => ?_
      have := le_sup (f := bucketParents w need fun b => holes b + w) hb
      rw [hk] at this
      omega
  rw [parentsNeeded_eq hB, parentsNeeded_eq hB, hp, hs, ← Nat.sub_sub, ceilDiv_sub hBw]
  omega

theorem sum_change {s} {f k : Nat → Nat} {q} (hq : q ∈ s)
    (h : ∀ i ≠ q, k i = f i) : ∑ i ∈ s, k i + f q = ∑ i ∈ s, f i + k q := by
  rw [← add_sum_erase _ k hq, ← add_sum_erase _ f hq]
  have : ∑ i ∈ s.erase q, k i = ∑ i ∈ s.erase q, f i :=
    sum_congr rfl fun i hi => h i (ne_of_mem_erase hi)
  omega

theorem sum_update_sub_one {f : Nat → Nat} {b} (hb : b < B) (hp : 0 < f b) :
    ∑ x ∈ range B, update f b (f b - 1) x = ∑ x ∈ range B, f x - 1 := by
  have hm : b ∈ range B := mem_range.mpr hb
  rw [sum_update_of_mem hm, ← add_sum_erase _ f hm, sdiff_singleton_eq_erase]
  omega

theorem le_sum_of_lt {f : Nat → Nat} {b} (hb : b < B) : f b ≤ ∑ x ∈ range B, f x :=
  single_le_sum (fun _ _ => Nat.zero_le _) (mem_range.mpr hb)

theorem parentsNeeded_place (hB : 0 < B) (need holes : Nat → Nat) (dn) {b}
    (hb : b < B) (hd : 0 < need b) (hho : 0 < holes b) :
    parentsNeededForBuckets B (update need b (need b - 1)) (update holes b (holes b - 1)) dn (B * w) =
      parentsNeededForBuckets B need holes dn (B * w) := by
  have hk : bucketParents w (update need b (need b - 1))
      (update holes b (holes b - 1)) = bucketParents w need holes := by
    funext x
    unfold bucketParents
    by_cases hx : x = b
    · subst hx
      simp only [update_self]
      rw [show need x - 1 - (holes x - 1) = need x - holes x by omega]
    · simp only [update_of_ne hx]
  have hn := le_sum_of_lt (f := need) hb
  have hh := le_sum_of_lt (f := holes) hb
  rw [parentsNeeded_eq hB, parentsNeeded_eq hB, hk, sum_update_sub_one hb hd,
    sum_update_sub_one hb hho]
  congr 2
  omega

theorem parentsNeeded_dense (hB : 0 < B) (hw : 0 < w) :
    parentsNeededForBuckets B (fun _ => 0) holes dn (B * w) =
      (dn - ∑ b ∈ range B, holes b + B * w - 1) / (B * w) := by
  have hn : (range B).sup (bucketParents w (fun _ => 0) holes) = 0 := by
    refine Nat.le_zero.mp (Finset.sup_le fun b _ => le_of_eq ?_)
    unfold bucketParents
    rw [Nat.zero_sub, Nat.zero_add]
    exact Nat.div_eq_of_lt (by omega)
  rw [parentsNeeded_eq hB, hn, zero_max, sum_const_zero, add_zero]

theorem parentsNeeded_le {empties} (hB : 0 < B) (hw : 0 < w) (h : ∀ b < B, need b ≤ holes b + empties * w) :
    parentsNeededForBuckets B need holes 0 (B * w) ≤ empties := by
  have hc : ∀ {k n}, 0 < k → n ≤ empties * k → (n + k - 1) / k ≤ empties := fun {k n} hk hn =>
    Nat.le_of_lt_succ ((Nat.div_lt_iff_lt_mul hk).mpr (by rw [Nat.succ_mul]; omega))
  rw [parentsNeeded_eq hB]
  refine max_le (Finset.sup_le fun b hb => hc hw ?_) (hc (Nat.mul_pos hB hw) ?_)
  · have := h b (mem_range.mp hb)
    omega
  · have hs := sum_le_sum fun b hb => h b (mem_range.mp hb)
    rw [sum_add_distrib, sum_const_nat fun _ _ => rfl, card_range, mul_left_comm] at hs
    omega

theorem parentsNeeded_pos (hB : 0 < B) (hw : 0 < w) {b} (hb : b < B)
    (hs : holes b < need b) : 0 < parentsNeededForBuckets B need holes dn (B * w) := by
  rw [parentsNeeded_eq hB]
  refine lt_of_lt_of_le ?_ (le_max_left _ _)
  exact lt_of_lt_of_le (ceilDiv_pos hw (by omega) : 0 < bucketParents w need holes b)
    (le_sup (f := bucketParents w need holes) (mem_range.mpr hb))

end

end TokenSpeed

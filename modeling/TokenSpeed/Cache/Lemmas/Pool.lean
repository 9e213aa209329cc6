import Mathlib.Data.Int.CardIntervalMod
import TokenSpeed.Cache.Lemmas.Packing

/-!
# The pool's invariant

A pool is in order when its parents, its FIFO and its use counts tell one story. A pool that only
let blocks go still holds every demand it held before.
-/

namespace TokenSpeed.BlockPool

open Finset

variable {p p' p'' : BlockPool}

structure Ok (p : BlockPool) : Prop where
  packing_pos : ∀ g, 0 < p.packing g
  shard_pos : ∀ g, 0 < p.shardCount g
  shard_dvd : ∀ g, p.shardCount g ∣ p.packing g
  free_nodup : p.freeParentIds.Nodup
  mem_free : ∀ id, id ∈ p.freeParentIds ↔ id ∈ p.parentIds ∧ p.boundGroup id = none
  bound_mem : ∀ id g, p.boundGroup id = some g → id ∈ p.parentIds
  bound_occupied : ∀ id g, p.boundGroup id = some g →
    ∃ s < p.packing g, (p.lcmBlocks id).occupancy s = true
  occupied_bound : ∀ l, p.isOccupied l = true →
    ∃ g, p.boundGroup l.lcmBlockId = some g ∧ l.slotIndex < p.packing g
  use_pos : ∀ l, 0 < p.useCount l ↔ p.isOccupied l = true

def perBucket (p : BlockPool) (g : Nat) : Nat := p.packing g / p.shardCount g

theorem Ok.packing_eq (h : p.Ok) (g) : p.packing g = p.shardCount g * p.perBucket g :=
  (Nat.mul_div_cancel' (h.shard_dvd g)).symm

theorem Ok.perBucket_pos (h : p.Ok) (g) : 0 < p.perBucket g :=
  Nat.div_pos (Nat.le_of_dvd (h.packing_pos g) (h.shard_dvd g)) (h.shard_pos g)

theorem Ok.bucketOf_lt (h : p.Ok) (g) (l) :
    p.bucketOf g l < p.shardCount g := Nat.mod_lt _ (h.shard_pos g)

/-- `p'` is `p` with some blocks let go: nothing new is occupied and no parent changed its group
while occupied. -/
structure Shrinks (p p' : BlockPool) : Prop where
  parents_eq : p'.numLcmBlocks = p.numLcmBlocks
  packing_eq : p'.packing = p.packing
  shard_eq : p'.shardCount = p.shardCount
  occupied_of : ∀ l, p'.isOccupied l = true → p.isOccupied l = true
  bound_of : ∀ id g, p'.boundGroup id = some g → p.boundGroup id = some g

theorem Shrinks.refl (p : BlockPool) : p.Shrinks p where
  parents_eq := rfl
  packing_eq := rfl
  shard_eq := rfl
  occupied_of := fun _ h => h
  bound_of := fun _ _ h => h

theorem Shrinks.trans (h : p.Shrinks p') (h' : p'.Shrinks p'') : p.Shrinks p'' where
  parents_eq := h'.parents_eq.trans h.parents_eq
  packing_eq := h'.packing_eq.trans h.packing_eq
  shard_eq := h'.shard_eq.trans h.shard_eq
  occupied_of := fun l hl => h.occupied_of l (h'.occupied_of l hl)
  bound_of := fun id g hb => h.bound_of id g (h'.bound_of id g hb)

/-! ## Counting slots -/

theorem card_bucket {B w b} (hb : b < B) : ((range (B * w)).filter fun s => s % B == b).card = w := by
  have hB : 0 < B := by omega
  have hm : ((range (B * w)).filter fun s => s % B == b) = (range (B * w)).filter (· ≡ b [MOD B]) :=
    filter_congr fun s _ => by rw [beq_iff_eq, Nat.ModEq, Nat.mod_eq_of_lt hb]
  rw [hm, ← Nat.count_eq_card_filter_range, Nat.count_modEq_card _ hB, Nat.mul_div_cancel_left w hB, Nat.mul_mod_right,
    if_neg (Nat.not_lt_zero _), Nat.add_zero]

def parentFree (p : BlockPool) (g b id : Nat) : Nat :=
  if p.boundGroup id = some g then (p.freeSlotsIn g id b).card else 0

theorem freeSlotsByBucket_eq (p : BlockPool) (g b) :
    p.freeSlotsByBucket g b = ∑ id ∈ p.parentIds, p.parentFree g b id := rfl

/-! ## The demand a pool holds -/

def parentsFor (p : BlockPool) (need : Need) (i : Nat) : Nat :=
  parentsNeededForBuckets (p.shardCount i) (need.shape i) (p.freeSlotsByBucket i) (need.dense i)
    (p.packing i)

/-- The pool can place the need of the groups below `n`. -/
def Fit (p : BlockPool) (n : Nat) (need : Need) : Prop :=
  ∑ i ∈ Finset.range n, p.parentsFor need i ≤ p.freeParentIds.length

theorem Shrinks.parentIds_eq (h : p.Shrinks p') : p'.parentIds = p.parentIds := by
  rw [parentIds, parentIds, h.parents_eq]

end TokenSpeed.BlockPool

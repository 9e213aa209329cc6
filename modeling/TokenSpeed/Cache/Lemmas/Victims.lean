import TokenSpeed.Cache.Lemmas.Placement
import TokenSpeed.Cache.Lemmas.Release

/-!
# Pools with the same parents

What two pools share when only the use counts of their blocks differ.
-/

namespace TokenSpeed.BlockPool

variable {p q : BlockPool} {g : Nat} {l : CacheBlockLocation}

structure SamePlacement (p q : BlockPool) : Prop where
  parents_eq : q.numLcmBlocks = p.numLcmBlocks
  packing_eq : q.packing = p.packing
  shard_eq : q.shardCount = p.shardCount
  blocks_eq : q.lcmBlocks = p.lcmBlocks

namespace SamePlacement

theorem boundGroup_eq (h : p.SamePlacement q) (id) : q.boundGroup id = p.boundGroup id := by
  rw [boundGroup, boundGroup, h.blocks_eq]

theorem isOccupied_eq (h : p.SamePlacement q) (l) : q.isOccupied l = p.isOccupied l := by
  rw [isOccupied, isOccupied, h.blocks_eq]

theorem shrinks (h : p.SamePlacement q) : p.Shrinks q where
  parents_eq := h.parents_eq
  packing_eq := h.packing_eq
  shard_eq := h.shard_eq
  occupied_of := fun l hl => by rwa [← h.isOccupied_eq]
  bound_of := fun id g hb => by rwa [← h.boundGroup_eq]

end SamePlacement

end TokenSpeed.BlockPool

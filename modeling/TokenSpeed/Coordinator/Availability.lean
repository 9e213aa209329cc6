import TokenSpeed.Coordinator.Image

/-!
# The parents a release frees

`NumAvailableLcmBlocks` with `ParentIsFullyEvictable` of `prefix_index.h`: a census of the parents that are empty
or hold nothing but unpinned entries of the index.
-/

namespace TokenSpeed.CacheCoordinator

variable (c : CacheCoordinator)

def parentIsFullyEvictable (g id : Nat) : Bool :=
  c.pool.occupants id != 0 && (List.range (c.pool.packing g)).all fun slot =>
    let l : CacheBlockLocation := ⟨id, slot⟩
    !c.pool.isOccupied l || (c.deviceCached g l && c.pool.unique l)

def lcmBlockAvailable (id : Nat) : Bool :=
  match c.pool.boundGroup id with
  | none => true
  | some g => c.parentIsFullyEvictable g id

def numAvailableLcmBlocks : Nat := (List.range' 1 c.pool.numLcmBlocks).countP c.lcmBlockAvailable

def tableRefs (tables : Nat → BlockTable) (l : CacheBlockLocation) : Nat :=
  ((List.range c.groups.length).flatMap (releasedRefs tables)).count l

structure SharedWithIndex (tables : Nat → BlockTable) (others : CacheBlockLocation → Nat) (id : Nat) : Prop where
  referenced : ∃ slot, 0 < c.tableRefs tables ⟨id, slot⟩
  unshared : ∀ slot, others ⟨id, slot⟩ = 0
  cached : ∃ slot, c.pool.isOccupied ⟨id, slot⟩ = true ∧ c.tableRefs tables ⟨id, slot⟩ = 0

end TokenSpeed.CacheCoordinator

import Mathlib.Algebra.BigOperators.Group.Finset.Basic
import Mathlib.Data.List.MinMax
import Mathlib.Data.Prod.Lex
import Mathlib.Order.Lattice.Nat
import TokenSpeed.Cache.Types
import TokenSpeed.Logic.Fault

/-!
# The block pool

`cache/core/block_pool.h` and the ownership of `cache/core/cache_block_ref.h`. A parent (LCM block) is
bound to one group while a child slot of it is occupied; empty parents wait in a FIFO. The source's
counters and ordered sets are computed here from the occupancy. `useCount` is the `strong_count_`
behind a location, zero when no `CacheBlockRef` to it is alive.
-/

namespace TokenSpeed

open Function

def parentsNeededForBuckets (buckets : Nat) (need holes : Nat → Nat) (denseNeed packing : Nat) : Nat :=
  let perParent := packing / buckets
  let parents := (Finset.range buckets).sup fun b => (need b - holes b + perParent - 1) / perParent
  let totalNeed := denseNeed + ∑ b ∈ Finset.range buckets, need b
  let totalHoles := ∑ b ∈ Finset.range buckets, holes b
  max parents ((totalNeed - totalHoles + packing - 1) / packing)

structure Need where
  shape : Nat → Nat → Nat
  dense : Nat → Nat

/-- `LcmBlock`: the group a parent is bound to and which of its slots are occupied. -/
structure LcmBlock where
  boundGroup : Option Nat := none
  occupancy : Nat → Bool := fun _ => false

/-- `BlockPool`. Parent ids are `1 .. numLcmBlocks`. -/
structure BlockPool where
  numLcmBlocks : Nat
  lcmBlocks : Nat → LcmBlock
  freeParentIds : List Nat
  packing : Nat → Nat
  shardCount : Nat → Nat
  useCount : CacheBlockLocation → Nat

namespace BlockPool

/-- The constructor, with the groups registered as `CacheCoordinator` registers them. -/
def make (numLcmBlocks : Nat) (packing shardCount : Nat → Nat) : BlockPool where
  numLcmBlocks := numLcmBlocks
  lcmBlocks := fun _ => {}
  freeParentIds := List.range' 1 numLcmBlocks
  packing := packing
  shardCount := shardCount
  useCount := fun _ => 0

def boundGroup (p : BlockPool) (id : Nat) : Option Nat := (p.lcmBlocks id).boundGroup

variable (p : BlockPool) (g : Nat) (loads : Option (Nat → Nat)) (b : Nat) (l : CacheBlockLocation)

def isOccupied : Bool :=
  (p.lcmBlocks l.lcmBlockId).occupancy l.slotIndex

def slots : Finset Nat := Finset.range (p.packing g)

def occupiedCount (id : Nat) : Nat :=
  ((p.slots g).filter fun s => (p.lcmBlocks id).occupancy s).card

/-- `OccupiedCount(lcm_block_id)`. -/
def occupants (id : Nat) : Nat :=
  match p.boundGroup id with
  | none => 0
  | some g => p.occupiedCount g id

/-- The bucket of a slot of group `g`: `slot % shard_count`. -/
def bucketOf : Nat :=
  l.slotIndex % p.shardCount g

def freeSlotsIn (id b : Nat) : Finset Nat :=
  (p.slots g).filter fun s => !(p.lcmBlocks id).occupancy s && s % p.shardCount g == b

def parentIds : Finset Nat := Finset.Icc 1 p.numLcmBlocks

/-- `FreeSlotsByBucket`: holes of bucket `b` in the parents bound to `g`. -/
def freeSlotsByBucket : Nat :=
  ∑ id ∈ p.parentIds, if p.boundGroup id = some g then (p.freeSlotsIn g id b).card else 0

def freeSlots : Nat :=
  ∑ b ∈ Finset.range (p.shardCount g), p.freeSlotsByBucket g b

def numEmptyLcmBlocks : Nat := p.freeParentIds.length

def availableBlocks : Nat :=
  p.freeSlots g + p.freeParentIds.length * p.packing g

/-! ## Placement -/

/-- The lowest free slot of a parent in a bucket (`first_free_slots`). -/
def firstFreeSlot (id b : Nat) : Option Nat :=
  (List.range (p.packing g)).find? fun s =>
    !(p.lcmBlocks id).occupancy s && s % p.shardCount g == b

/-- The head of `parents_by_bucket[b]`, at its lowest free slot: the most occupied parent, then the lowest id. -/
def bucketHead : Option CacheBlockLocation :=
  let partialParents := (List.range' 1 p.numLcmBlocks).filter fun id =>
    p.boundGroup id == some g && (p.firstFreeSlot g id b).isSome
  match partialParents.argmax (p.occupiedCount g) with
  | none => none
  | some id => (p.firstFreeSlot g id b).map fun s => ⟨id, s⟩

def priority : Nat ×ₗ Nat ×ₗ Nat ×ₗ Nat ×ₗ Nat :=
  let rest := toLex (p.packing g - p.occupiedCount g l.lcmBlockId, toLex (l.lcmBlockId, l.slotIndex))
  match loads with
  | none => toLex (0, toLex (0, rest))
  | some load => toLex (load b, toLex (b, rest))

/-- `nextLocation`: the best hole over the buckets, else the FIFO's next empty parent, at the least
loaded bucket's slot. -/
def nextLocation : Result CacheBlockLocation :=
  let heads := (List.range (p.shardCount g)).filterMap fun b =>
    (p.bucketHead g b).map fun l => (b, l)
  match heads.argmin fun h => p.priority g loads h.1 h.2 with
  | some h => .ok h.2
  | none =>
    match p.freeParentIds with
    | [] => .error (.fatal "prechecked block capacity was exhausted")
    | id :: _ =>
      let slot := match loads with
        | none => 0
        | some load => ((List.range (p.shardCount g)).argmin load).getD 0
      .ok ⟨id, slot⟩

def nextLocationInBucket : Result CacheBlockLocation :=
  match p.bucketHead g b with
  | some l => .ok l
  | none =>
    match p.freeParentIds with
    | [] => .error (.fatal "prechecked bucket capacity was exhausted")
    | id :: _ => .ok ⟨id, b⟩

/-- The pool with the slot at `l` marked, its parent bound to `g`. -/
def setOccupied : BlockPool :=
  { p with
    lcmBlocks := update p.lcmBlocks l.lcmBlockId
      { boundGroup := some g
        occupancy := update (p.lcmBlocks l.lcmBlockId).occupancy l.slotIndex true }
    freeParentIds := if (p.boundGroup l.lcmBlockId).isNone then p.freeParentIds.tail
      else p.freeParentIds
    useCount := update p.useCount l 1 }

def createBlockRef : Result BlockPool := do
  if (p.boundGroup l.lcmBlockId).isNone then
    fatalCheck (p.freeParentIds.head? == some l.lcmBlockId)
      "empty LCM placement must consume the next free parent"
  else
    fatalCheck (p.boundGroup l.lcmBlockId == some g) "LCM parent binding changed while occupied"
  fatalCheck (l.slotIndex < p.packing g) "LCM child slot is out of range"
  fatalCheck (!p.isOccupied l) "LCM child slot already occupied"
  pure (p.setOccupied g l)

def acquireAvailableBlocks (g : Nat) :
    Nat → BlockPool → Option (Nat → Nat) → Result (List CacheBlockLocation × BlockPool)
  | 0, p, _ => .ok ([], p)
  | n + 1, p, loads => do
    let l ← p.nextLocation g loads
    let p' ← p.createBlockRef g l
    let b := l.slotIndex % p.shardCount g
    let (rest, p'') ← acquireAvailableBlocks g n p'
      (loads.map fun load => update load b (load b + 1))
    pure (l :: rest, p'')

/-- `AcquireBlocks`: all or nothing. -/
def acquireBlocks (num : Nat) (loads : Option (Nat → Nat)) : Result (List CacheBlockLocation × BlockPool) :=
  if p.availableBlocks g < num then .ok ([], p) else acquireAvailableBlocks g num p loads

def acquireInBuckets (g : Nat) : List Nat → BlockPool → Result (List CacheBlockLocation × BlockPool)
  | [], p => .ok ([], p)
  | b :: bs, p => do
    let l ← p.nextLocationInBucket g b
    let p' ← p.createBlockRef g l
    let (rest, p'') ← acquireInBuckets g bs p'
    pure (l :: rest, p'')

/-- `AcquireBlocksInBuckets`: one block per entry, each in the named bucket; all or nothing. -/
def acquireBlocksInBuckets (buckets : List Nat) : Result (List CacheBlockLocation × BlockPool) := do
  if buckets.isEmpty then
    return ([], p)
  assert (buckets.all (· < p.shardCount g)) "requested bucket is outside the registered shard count"
  if parentsNeededForBuckets (p.shardCount g) (fun b => buckets.count b) (p.freeSlotsByBucket g) 0
      (p.packing g) > p.freeParentIds.length then
    return ([], p)
  acquireInBuckets g buckets p

/-! ## Ownership -/

/-- The pool with the slot at `l` free again; a parent that loses its last occupant leaves its group
and joins the FIFO. -/
def setFree : BlockPool :=
  let parent := p.lcmBlocks l.lcmBlockId
  let occupancy := update parent.occupancy l.slotIndex false
  if p.occupiedCount g l.lcmBlockId = 1 then
    { p with
      lcmBlocks := update p.lcmBlocks l.lcmBlockId {}
      freeParentIds := p.freeParentIds ++ [l.lcmBlockId] }
  else
    { p with
      lcmBlocks := update p.lcmBlocks l.lcmBlockId { parent with occupancy := occupancy } }

def release : Result BlockPool :=
  match p.boundGroup l.lcmBlockId with
  | none => .error (.fatal "occupied LCM parent has no bound group")
  | some g => do
    fatalCheck (0 < l.lcmBlockId && l.lcmBlockId ≤ p.numLcmBlocks)
      "CacheBlock location has invalid LCM block id"
    fatalCheck (l.slotIndex < p.packing g) "CacheBlock location has invalid slot"
    fatalCheck (p.isOccupied l) "CacheBlock location is not occupied"
    pure (p.setFree g l)

/-- `CacheBlockControl::retain`: another `CacheBlockRef` to the block. -/
def retain (p : BlockPool) (l : CacheBlockLocation) : Result BlockPool := do
  fatalCheck (p.useCount l != 0) "cannot retain a destroyed or saturated CacheBlockControl"
  pure { p with useCount := update p.useCount l (p.useCount l + 1) }

/-- `CacheBlockControl::release`: a `CacheBlockRef` is dropped; the last one frees the slot. -/
def drop : Result BlockPool := do
  fatalCheck (p.useCount l != 0) "CacheBlockControl release requires a live reference"
  let p' := { p with useCount := update p.useCount l (p.useCount l - 1) }
  if p'.useCount l = 0 then p'.release l else pure p'

def unique : Bool := p.useCount l == 1

end BlockPool

end TokenSpeed

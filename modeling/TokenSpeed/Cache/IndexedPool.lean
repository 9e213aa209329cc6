import TokenSpeed.Cache.BlockPool

/-!
# The block pool with its indexes

`BlockPool` of `cache/core/block_pool.h` field by field: each parent's occupancy, count and lowest free
slots, and per group the holes and the ordered sets of partial parents by bucket. Vectors indexed by a
parent or a group are functions beside their size. An `int32` only compared with zero stays an integer.
-/

namespace TokenSpeed.Indexed

open Function

/-- `ParentOrder`: minus the occupancy, then the parent's id. -/
abbrev ParentOrder := ℤ ×ₗ ℕ

structure LcmBlock where
  boundGroup : Option Nat := none
  occupancy : List Bool := []
  occupiedCount : Nat := 0
  firstFreeSlots : List Nat := []
  deriving DecidableEq

structure GroupAvailability where
  packing : Nat := 0
  freeSlotsByBucket : List Nat := []
  parentsByBucket : List (Finset ParentOrder) := []

def GroupAvailability.freeSlots (group : GroupAvailability) : Nat := group.freeSlotsByBucket.sum

def GroupAvailability.buckets (group : GroupAvailability) : Nat := group.parentsByBucket.length

structure BlockPool where
  numLcmBlocks : Nat
  lcmBlocks : Nat → LcmBlock
  freeParentIds : List Nat
  numGroups : Nat
  groups : Nat → GroupAvailability

def LcmBlock.order (parent : LcmBlock) (id : Nat) : ParentOrder := toLex (-(parent.occupiedCount : ℤ), id)

/-! ## Availability -/

def removeAvailability (group : GroupAvailability) (parent : LcmBlock) (id : Nat) : Result GroupAvailability :=
  if parent.occupiedCount = parent.occupancy.length then pure group
  else do
    let sets ← group.parentsByBucket.zipIdx.mapM fun entry =>
      if parent.firstFreeSlots.getD entry.2 0 < group.packing then do
        fatalCheck (decide (parent.order id ∈ entry.1)) "partial LCM parent missing from its bucket index"
        pure (entry.1.erase (parent.order id))
      else pure entry.1
    pure { group with parentsByBucket := sets }

def addAvailability (group : GroupAvailability) (parent : LcmBlock) (id : Nat) : Result GroupAvailability :=
  if parent.occupiedCount = parent.occupancy.length then pure group
  else do
    let sets ← group.parentsByBucket.zipIdx.mapM fun entry =>
      if parent.firstFreeSlots.getD entry.2 0 < group.packing then do
        fatalCheck (decide (parent.order id ∉ entry.1))
          "partial LCM parent already present in its bucket index"
        pure (insert (parent.order id) entry.1)
      else pure entry.1
    pure { group with parentsByBucket := sets }

namespace BlockPool

variable (p : BlockPool)

def make (numLcmBlocks : Nat) (slotsPerGroup : List Nat) : Result BlockPool := do
  assert (slotsPerGroup.all fun packing => 0 < packing) "slots_per_parent must be > 0"
  assert (slotsPerGroup.all fun packing => numLcmBlocks * packing ≤ int32Max)
    "group cache page count exceeds int32 range"
  pure
    { numLcmBlocks := numLcmBlocks
      lcmBlocks := fun _ => {}
      freeParentIds := List.range' 1 numLcmBlocks
      numGroups := slotsPerGroup.length
      groups := fun g => { packing := slotsPerGroup.getD g 0 } }

def placement (g : Nat) : Result GroupAvailability := do
  fatalCheck (g < p.numGroups) "group id has no placement in this pool"
  pure (p.groups g)

variable (g : Nat) (group : GroupAvailability) (loads : List Int) (parent : LcmBlock) (l : CacheBlockLocation)

def setGroup : BlockPool :=
  { p with groups := update p.groups g group }

def isOccupied : Bool :=
  (p.lcmBlocks l.lcmBlockId).occupancy.getD l.slotIndex false

def registerGroup (packing shardCount : Nat) : Result BlockPool := do
  assert (0 < packing && 0 < shardCount && packing % shardCount == 0)
    "shard_count must be positive and divide parent packing"
  let group ← p.placement g
  assert (group.packing == packing) "cache group packing changed after construction"
  if group.buckets = 0 then
    pure (p.setGroup g { group with
        parentsByBucket := List.replicate shardCount ∅
        freeSlotsByBucket := List.replicate shardCount 0 })
  else do
    assert (group.buckets == shardCount) "cache group geometry changed after registration"
    pure p

def availableBlocks (packing : Nat) : Result Nat := do
  let group ← p.placement g
  assert (group.packing == packing) "cache group packing changed after construction"
  pure (group.freeSlots + p.freeParentIds.length * packing)

def prepareAvailability (packing : Nat) : Result BlockPool := do
  let _ ← p.availableBlocks g packing
  let group ← p.placement g
  if group.buckets = 0 then p.registerGroup g packing 1 else pure p

/-! ## Placement -/

/-- `*begin()` of a bucket's set of partial parents, with the parent's lowest free slot there. -/
def bucketHead (b : Nat) : Option (ParentOrder × Nat) :=
  match (group.parentsByBucket.getD b ∅).min with
  | ⊤ => none
  | (x : ParentOrder) => some (x, (p.lcmBlocks (ofLex x).2).firstFreeSlots.getD b 0)

def priority (entry : Nat × ParentOrder × Nat) : ℤ ×ₗ ℕ ×ₗ ℤ ×ₗ ℕ ×ₗ ℕ :=
  let place := toLex ((ofLex entry.2.1).1, toLex ((ofLex entry.2.1).2, entry.2.2))
  if loads.isEmpty then toLex (0, toLex (0, place))
  else toLex (loads.getD entry.1 0, toLex (entry.1, place))

def leastBy {α β : Type} [LinearOrder β] (value : α → β) (entries : List α) : Option α := entries.argmin value

def leastLoaded : Nat :=
  loads.idxOf (loads.min?.getD 0)

/-- The FIFO's next empty parent at the slot of bucket `b`. -/
def nextEmpty (b : Nat) (message : String) : Result CacheBlockLocation :=
  match p.freeParentIds with
  | [] => .error (.fatal message)
  | id :: _ => pure ⟨id, b⟩

def nextLocation : Result CacheBlockLocation :=
  let heads := (List.range group.buckets).filterMap fun b => (p.bucketHead group b).map fun h => (b, h)
  match leastBy (priority loads) heads with
  | some entry => pure ⟨(ofLex entry.2.1).2, entry.2.2⟩
  | none => p.nextEmpty (if loads.isEmpty then 0 else leastLoaded loads)
      "prechecked block capacity was exhausted"

def nextLocationInBucket (b : Nat) : Result CacheBlockLocation :=
  match p.bucketHead group b with
  | some h => pure ⟨(ofLex h.1).2, h.2⟩
  | none => p.nextEmpty b "prechecked bucket capacity was exhausted"

/-- The scan of `occupy` for the next free slot of a bucket. -/
def nextFreeSlot (occupancy : List Bool) (buckets packing : Nat) : Nat → Nat → Nat
  | 0, _ => packing
  | fuel + 1, next =>
    if next < occupancy.length then
      if occupancy.getD next false then nextFreeSlot occupancy buckets packing fuel (next + buckets)
      else next
    else packing

def occupySlot (buckets packing slot : Nat) : LcmBlock :=
  let occupancy := parent.occupancy.set slot true
  let b := slot % buckets
  { parent with
    occupancy := occupancy
    occupiedCount := parent.occupiedCount + 1
    firstFreeSlots :=
      if 1 < packing ∧ parent.firstFreeSlots.getD b 0 = slot then
        parent.firstFreeSlots.set b (nextFreeSlot occupancy buckets packing occupancy.length (slot + buckets))
      else parent.firstFreeSlots }

/-- The parent `occupy` places into: an empty one is bound and its slots join the group's holes, a
bound one leaves the indexes. -/
def prepareParent (g slotsPerParent id : Nat) : Result (LcmBlock × GroupAvailability × List Nat) :=
  let parent := p.lcmBlocks id
  if parent.occupiedCount = 0 then do
    fatalCheck (p.freeParentIds.head? == some id) "empty LCM placement must consume the next free parent"
    fatalCheck parent.occupancy.isEmpty "empty LCM parent must not retain child slots"
    pure
      ({ parent with
          boundGroup := some g
          occupancy := List.replicate slotsPerParent false
          firstFreeSlots :=
            if 1 < slotsPerParent then List.range group.buckets else parent.firstFreeSlots },
        { group with
          freeSlotsByBucket := group.freeSlotsByBucket.map (· + slotsPerParent / group.buckets) },
        p.freeParentIds.tail)
  else do
    let group ← removeAvailability group parent id
    pure (parent, group, p.freeParentIds)

def occupy (g slotsPerParent : Nat) (l : CacheBlockLocation) : Result BlockPool := do
  let group ← p.placement g
  let (parent, group, free) ← p.prepareParent group g slotsPerParent l.lcmBlockId
  fatalCheck (parent.boundGroup == some g && parent.occupancy.length == slotsPerParent)
    "LCM parent binding changed while occupied"
  fatalCheck (l.slotIndex < parent.occupancy.length) "LCM child slot is out of range"
  fatalCheck (!parent.occupancy.getD l.slotIndex false) "LCM child slot already occupied"
  let b := l.slotIndex % group.buckets
  fatalCheck (0 < group.freeSlotsByBucket.getD b 0) "group free-slot count underflow on occupy"
  let parent := occupySlot parent group.buckets slotsPerParent l.slotIndex
  let group ← addAvailability
    { group with freeSlotsByBucket := group.freeSlotsByBucket.set b (group.freeSlotsByBucket.getD b 0 - 1) }
    parent l.lcmBlockId
  pure
    { p.setGroup g group with
      lcmBlocks := update p.lcmBlocks l.lcmBlockId parent
      freeParentIds := free }

/-! ## Acquisition -/

def acquireLoop (g packing : Nat) : Nat → BlockPool → List Int → Result (List CacheBlockLocation × BlockPool)
  | 0, p, _ => pure ([], p)
  | n + 1, p, loads => do
    let group ← p.placement g
    let l ← p.nextLocation group loads
    let p ← p.occupy g packing l
    let b := l.slotIndex % loads.length
    let (rest, p) ← acquireLoop g packing n p (loads.set b (loads.getD b 0 + 1))
    pure (l :: rest, p)

def acquireAvailableBlocks (packing count : Nat) (bucketLoads : List Int) :
    Result (List CacheBlockLocation × BlockPool) := do
  let p ← p.prepareAvailability g packing
  acquireLoop g packing count p (if 1 < bucketLoads.length then bucketLoads else [])

def checkLoads (bucketLoads : List Int) : Result Unit :=
  if 1 < bucketLoads.length then do
    assert (group.buckets == bucketLoads.length) "allocation loads must match the registered shard_count"
    assert (bucketLoads.all fun load => 0 ≤ load) "allocation bucket loads must be non-negative"
  else pure ()

def acquireBlocks (num : Int) (bucketLoads : List Int) : Result (List CacheBlockLocation × BlockPool) := do
  let group ← p.placement g
  if num ≤ 0 then
    return ([], p)
  checkLoads group bucketLoads
  let available ← p.availableBlocks g group.packing
  if available < num.toNat then return ([], p)
  else p.acquireAvailableBlocks g group.packing num.toNat bucketLoads

def acquireUpToBlocks (maxNum : Int) : Result (List CacheBlockLocation × BlockPool) := do
  let group ← p.placement g
  if maxNum ≤ 0 then
    return ([], p)
  let available ← p.availableBlocks g group.packing
  let take := min maxNum.toNat available
  if 0 < take then p.acquireAvailableBlocks g group.packing take [] else return ([], p)

def acquireInBuckets (g packing : Nat) : List Nat → BlockPool → Result (List CacheBlockLocation × BlockPool)
  | [], p => pure ([], p)
  | b :: buckets, p => do
    let group ← p.placement g
    let l ← p.nextLocationInBucket group b
    let p ← p.occupy g packing l
    let (rest, p) ← acquireInBuckets g packing buckets p
    pure (l :: rest, p)

/-- `AcquireBlocksInBuckets` on a pool whose group is prepared. -/
def acquirePrepared (buckets : List Int) : Result (List CacheBlockLocation × BlockPool) := do
  let group ← p.placement g
  assert (buckets.all fun b => 0 ≤ b && b.toNat < group.buckets)
    "requested bucket is outside the registered shard count"
  let wanted := buckets.map Int.toNat
  if parentsNeededForBuckets group.buckets (fun b => wanted.count b)
      (fun b => group.freeSlotsByBucket.getD b 0) 0 group.packing > p.freeParentIds.length then
    return ([], p)
  else acquireInBuckets g group.packing wanted p

def acquireBlocksInBuckets (buckets : List Int) : Result (List CacheBlockLocation × BlockPool) := do
  let group ← p.placement g
  if buckets.isEmpty then
    return ([], p)
  let p ← p.prepareAvailability g group.packing
  p.acquirePrepared g buckets

/-! ## Release -/

def clearSlot (slot : Nat) : LcmBlock :=
  { parent with occupancy := parent.occupancy.set slot false, occupiedCount := parent.occupiedCount - 1 }

/-- The end of `Release`: a parent that lost its last occupant leaves its group. -/
def settleParent : Result BlockPool :=
  if parent.occupiedCount = 0 then do
    let perBucket := parent.occupancy.length / group.buckets
    fatalCheck (group.freeSlotsByBucket.all fun holes => perBucket ≤ holes)
      "group free-slot count underflow on unbind"
    fatalCheck (p.freeParentIds.length < p.numLcmBlocks) "LCM free queue overflow"
    pure
      { p.setGroup g { group with freeSlotsByBucket := group.freeSlotsByBucket.map (· - perBucket) } with
        lcmBlocks := update p.lcmBlocks l.lcmBlockId
          { parent with boundGroup := none, occupancy := [], firstFreeSlots := [] }
        freeParentIds := p.freeParentIds ++ [l.lcmBlockId] }
  else do
    let b := l.slotIndex % group.buckets
    let parent := { parent with
      firstFreeSlots := parent.firstFreeSlots.set b (min (parent.firstFreeSlots.getD b 0) l.slotIndex) }
    let group ← addAvailability group parent l.lcmBlockId
    pure
      { p.setGroup g group with
        lcmBlocks := update p.lcmBlocks l.lcmBlockId parent }

def release : Result BlockPool := do
  fatalCheck (0 < l.lcmBlockId && l.lcmBlockId ≤ p.numLcmBlocks) "CacheBlock location has invalid LCM block id"
  let parent := p.lcmBlocks l.lcmBlockId
  fatalCheck (l.slotIndex < parent.occupancy.length) "CacheBlock location has invalid slot"
  fatalCheck (parent.occupancy.getD l.slotIndex false && 0 < parent.occupiedCount)
    "CacheBlock location is not occupied"
  match parent.boundGroup with
  | none => .error (.fatal "occupied LCM parent has no bound group")
  | some g => do
    let group ← p.placement g
    let group ← removeAvailability group parent l.lcmBlockId
    let b := l.slotIndex % group.buckets
    p.settleParent g
      { group with freeSlotsByBucket := group.freeSlotsByBucket.set b (group.freeSlotsByBucket.getD b 0 + 1) }
      (clearSlot parent l.slotIndex) l

end BlockPool

/-! ## The representation invariant -/

variable (occupancy : List Bool)

/-- Slot `s` is free and of residue `b`. -/
def FreeAt (B b s : Nat) : Prop :=
  s < occupancy.length ∧ occupancy.getD s false = false ∧ s % B = b

instance (occupancy : List Bool) (B b s : Nat) : Decidable (FreeAt occupancy B b s) :=
  inferInstanceAs (Decidable (_ ∧ _))

def freeIn (B b : Nat) : Finset Nat :=
  (Finset.range occupancy.length).filter fun s => FreeAt occupancy B b s

/-- `v` is the lowest free slot of residue `b`, or the number of slots when there is none. -/
def LowestFree (B b v : Nat) : Prop :=
  (FreeAt occupancy B b v ∧ ∀ s < v, ¬ FreeAt occupancy B b s) ∨
    (v = occupancy.length ∧ ∀ s, ¬ FreeAt occupancy B b s)

structure ParentOk (packing B : Nat) (parent : LcmBlock) : Prop where
  size : parent.occupancy.length = packing
  count : parent.occupiedCount = parent.occupancy.count true
  first : 1 < packing → parent.firstFreeSlots.length = B ∧
    ∀ b < B, LowestFree parent.occupancy B b (parent.firstFreeSlots.getD b 0)
  first_one : packing ≤ 1 → parent.firstFreeSlots = []

namespace BlockPool

variable (p : BlockPool)

def bucketCount (g : Nat) : Nat := (p.groups g).buckets

def boundGroup (id : Nat) : Option Nat := (p.lcmBlocks id).boundGroup

/-- The free slots of residue `b` in parent `id`, when it is bound to `g`. -/
def freeSlotsOf (g b id : Nat) : Nat :=
  if p.boundGroup id = some g then (freeIn (p.lcmBlocks id).occupancy (p.bucketCount g) b).card else 0

/-- Parent `id` is bound to `g` and has a free slot of residue `b`. -/
def Partial (g b id : Nat) : Prop :=
  p.boundGroup id = some g ∧ (freeIn (p.lcmBlocks id).occupancy (p.bucketCount g) b).Nonempty

end BlockPool

structure RepOk (p : BlockPool) : Prop where
  packing_pos : ∀ g < p.numGroups, 0 < (p.groups g).packing
  lengths : ∀ g < p.numGroups, (p.groups g).freeSlotsByBucket.length = p.bucketCount g
  buckets_dvd : ∀ g < p.numGroups, 0 < p.bucketCount g → p.bucketCount g ∣ (p.groups g).packing
  free_nodup : p.freeParentIds.Nodup
  mem_free : ∀ id, id ∈ p.freeParentIds ↔ (1 ≤ id ∧ id ≤ p.numLcmBlocks) ∧ p.boundGroup id = none
  unbound : ∀ id, p.boundGroup id = none → p.lcmBlocks id = {}
  bound_mem : ∀ id g, p.boundGroup id = some g → 1 ≤ id ∧ id ≤ p.numLcmBlocks
  bound_group : ∀ id g, p.boundGroup id = some g → g < p.numGroups ∧ 0 < p.bucketCount g
  bound_ok : ∀ id g, p.boundGroup id = some g →
    ParentOk (p.groups g).packing (p.bucketCount g) (p.lcmBlocks id) ∧ 0 < (p.lcmBlocks id).occupiedCount
  holes : ∀ g < p.numGroups, ∀ b < p.bucketCount g, (p.groups g).freeSlotsByBucket.getD b 0 =
    ∑ id ∈ Finset.Icc 1 p.numLcmBlocks, p.freeSlotsOf g b id
  index : ∀ g < p.numGroups, ∀ b < p.bucketCount g, ∀ x,
    x ∈ (p.groups g).parentsByBucket.getD b ∅ ↔ ∃ id, p.Partial g b id ∧ x = (p.lcmBlocks id).order id

/-- One slot for each entry of `buckets`, free in a parent of the group or in an empty one. -/
structure Places (p : BlockPool) (g : Nat) (buckets : List Nat) (blocks : List CacheBlockLocation) : Prop where
  buckets : blocks.map (fun l => l.slotIndex % p.bucketCount g) = buckets
  nodup : blocks.Nodup
  free : ∀ l ∈ blocks, l.slotIndex < (p.groups g).packing ∧ p.isOccupied l = false
  parents : ∀ l ∈ blocks, p.boundGroup l.lcmBlockId = some g ∨ l.lcmBlockId ∈ p.freeParentIds

def BlockPool.holes (p : BlockPool) (g b : Nat) : Nat := (p.groups g).freeSlotsByBucket.getD b 0

/-- `ParentsNeededForBuckets` over the group's buckets and holes. -/
def BlockPool.parentsToOpen (p : BlockPool) (g : Nat) (need : Nat → Nat) (dense : Nat) : Nat :=
  parentsNeededForBuckets (p.bucketCount g) need (p.holes g) dense (p.groups g).packing

/-! ## Runs -/

inductive Op where
  | register (g packing shardCount : Nat)
  | acquire (g : Nat) (num : Int) (bucketLoads : List Int)
  | acquireUpTo (g : Nat) (maxNum : Int)
  | acquireInBuckets (g : Nat) (buckets : List Int)
  | release (l : CacheBlockLocation)

structure PoolState where
  pool : BlockPool
  live : List CacheBlockLocation := []

def call (p : BlockPool) : Op → Result (List CacheBlockLocation × BlockPool)
  | .register g packing shardCount => do
    let p ← p.registerGroup g packing shardCount
    pure ([], p)
  | .acquire g num bucketLoads => p.acquireBlocks g num bucketLoads
  | .acquireUpTo g maxNum => p.acquireUpToBlocks g maxNum
  | .acquireInBuckets g buckets => p.acquireBlocksInBuckets g buckets
  | .release l => do
    let p ← p.release l
    pure ([], p)

def calls : List Op → BlockPool → Result (List (List CacheBlockLocation) × BlockPool)
  | [], p => pure ([], p)
  | op :: ops, p => do
    let (blocks, p) ← call p op
    let (rest, p) ← calls ops p
    pure (blocks :: rest, p)

/-- The pool after a call that threw: `AcquireBlocksInBuckets` registers its group before it looks at
the buckets, every other check comes first. -/
def thrown (p : BlockPool) : Op → BlockPool
  | .acquireInBuckets g buckets =>
    if buckets.isEmpty then p
    else match p.prepareAvailability g (p.groups g).packing with
      | .ok p' => p'
      | .error _ => p
  | _ => p

def liveAfter (op : Op) (blocks live : List CacheBlockLocation) : List CacheBlockLocation :=
  match op with
  | .release l => live.erase l
  | _ => live ++ blocks

/-- One call. A failed assertion is an exception to the caller; a fatal check ends the process. -/
def step (s : PoolState) (op : Op) : Result PoolState :=
  match call s.pool op with
  | .ok out => .ok { pool := out.2, live := liveAfter op out.1 s.live }
  | .error (.assertion _) => .ok { s with pool := thrown s.pool op }
  | .error (.fatal message) => .error (.fatal message)

def Allowed (s : PoolState) : Op → Prop
  | .register g _ _ | .acquire g _ _ | .acquireUpTo g _ | .acquireInBuckets g _ => g < s.pool.numGroups
  | .release l => l ∈ s.live

instance (s : PoolState) : DecidablePred (Allowed s)
  | .register g _ _ | .acquire g _ _ | .acquireUpTo g _ | .acquireInBuckets g _ =>
    inferInstanceAs (Decidable (g < s.pool.numGroups))
  | .release l => inferInstanceAs (Decidable (l ∈ s.live))

inductive Reachable (p : BlockPool) : PoolState → Prop
  | init : Reachable p { pool := p }
  | step {s s' : PoolState} (op : Op) (h : Reachable p s) (allowed : Allowed s op)
      (next : Indexed.step s op = .ok s') : Reachable p s'

end TokenSpeed.Indexed

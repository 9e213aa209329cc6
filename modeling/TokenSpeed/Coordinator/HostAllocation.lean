import TokenSpeed.Coordinator.Eviction

/-!
# Host allocation

`AcquireHostBlocks` of `cache/coordinator/cache_coordinator.cpp`: blocks of given buckets, from free
capacity and then by evicting Host entries nothing else holds, a child or a whole parent at a time. The
heap of victim parents is the sorted list it pops; the statistics are left out.
-/

namespace TokenSpeed.CacheCoordinator

open Function

abbrev HostRequest := Nat × Nat

abbrev VictimParent := Nat ×ₗ Nat ×ₗ Nat

variable (c : CacheCoordinator)

def acquireHostInBucket (r : HostRequest) : Result (Option CacheBlockLocation × CacheCoordinator) :=
  match c.hostPool with
  | none => .error (.assertion "AcquireHostBlocks requires a host pool")
  | some hostPool => do
    let (blocks, hostPool) ← hostPool.acquireBlocksInBuckets r.1 [r.2]
    pure (blocks.head?, { c with hostPool := some hostPool })

def acquireFreeHostBlocks : List HostRequest → CacheCoordinator →
    Result (List (Option CacheBlockLocation) × CacheCoordinator)
  | [], c => pure ([], c)
  | r :: rest, c => do
    assert (r.1 < c.groups.length) "Host block group id out of range"
    assert (r.2 < (c.spec r.1).shardCount) "Host block bucket is outside the group's shard count"
    let (block, c) ← c.acquireHostInBucket r
    let (blocks, c) ← acquireFreeHostBlocks rest c
    pure (block :: blocks, c)

variable (hostPool : BlockPool) (requests : List HostRequest) (blocks : List (Option CacheBlockLocation))

/-- `EvictableCandidates` of the Host. -/
def evictableHostEntries (i : Nat) : List CacheEntry :=
  (c.hostEntries i).filter fun e => hostPool.unique e.block

def needsReplacement (i : Nat) : Bool :=
  (requests.zip blocks).any fun x => x.1.1 == i && x.2.isNone

def hostChildren (i b : Nat) : List CacheEntry :=
  ((c.evictableHostEntries hostPool i).filter fun e => hostPool.bucketOf i e.block == b).insertionSort
    fun a b => toLex (a.lastAccessEpoch, toLex (a.block.lcmBlockId, a.block.slotIndex)) ≤
      toLex (b.lastAccessEpoch, toLex (b.block.lcmBlockId, b.block.slotIndex))

def hostVictimParents : List VictimParent :=
  let needs := needsReplacement requests blocks
  let replacing := ((List.range c.groups.length).filter needs).length
  let entries := ((List.range c.groups.length).filter fun i => decide (1 < replacing) || !needs i).flatMap
    (c.evictableHostEntries hostPool)
  let touched := (entries.map fun e => e.block.lcmBlockId).dedup
  let eligible := touched.filter fun id =>
    (entries.filter fun e => e.block.lcmBlockId == id).length == hostPool.occupants id
  (eligible.filterMap fun id => (hostPool.boundGroup id).map fun g =>
    toLex (((entries.filter fun e => e.block.lcmBlockId == id).map fun e => e.lastAccessEpoch).foldr max 0,
      toLex (g, id))).insertionSort (· ≤ ·)

structure HostRefill where
  coord : CacheCoordinator
  children : Nat → Nat → List CacheEntry
  parents : List VictimParent
  allocated : List Nat := []

def skipGone (es : CacheEntries) : List CacheEntry → List CacheEntry
  | [] => []
  | e :: rest => if es.containsBlock e.block then e :: rest else skipGone es rest

def skipRebound (hostPool : BlockPool) (allocated : List Nat) : List VictimParent → List VictimParent
  | [] => []
  | v :: rest =>
    let id := (ofLex (ofLex v).2).2
    let g := (ofLex (ofLex v).2).1
    if id ∉ allocated ∧ 0 < hostPool.occupants id ∧ hostPool.boundGroup id = some g then v :: rest
    else skipRebound hostPool allocated rest

def evictHostParent (c : CacheCoordinator) (g id : Nat) : List Nat → Result CacheCoordinator
  | [] => pure c
  | slot :: slots =>
    match c.hostPool with
    | none => .error (.assertion "AcquireHostBlocks requires a host pool")
    | some hostPool =>
      if hostPool.isOccupied ⟨id, slot⟩ then do
        let (evicted, c) ← c.evictHostCachedBlock hostPool g ⟨id, slot⟩
        assert evicted "selected Host parent changed before eviction"
        evictHostParent c g id slots
      else evictHostParent c g id slots

/-- The reclamation `child` or `parent` stands for, whichever was accessed longer ago; a tie takes the
one child. -/
def takesChild (child : Option CacheEntry) (parent : Option VictimParent) : Bool :=
  match child, parent with
  | some _, none => true
  | some e, some v => decide (e.lastAccessEpoch ≤ (ofLex v).1)
  | none, _ => false

def evictHostVictim (s : HostRefill) (hostPool : BlockPool) (r : HostRequest) : Result HostRefill :=
  let child := (s.children r.1 r.2).head?
  let parent := s.parents.head?
  if takesChild child parent then
    match child with
    | none => pure s
    | some e => do
      let (evicted, c) ← s.coord.evictHostCachedBlock hostPool r.1 e.block
      assert evicted "selected Host child is not evictable"
      pure
        { s with
          coord := c
          children := update s.children r.1
            (update (s.children r.1) r.2 (s.children r.1 r.2).tail) }
  else
    match parent with
    | none => pure s
    | some v => do
      let g := (ofLex (ofLex v).2).1
      let id := (ofLex (ofLex v).2).2
      assert (hostPool.boundGroup id == some g) "selected Host parent changed groups"
      let c ← evictHostParent s.coord g id (List.range (s.coord.spec g).cacheBlocksPerLcmBlock)
      pure { s with coord := c, parents := s.parents.tail }

def markAllocated (s : HostRefill) (block : CacheBlockLocation) : HostRefill :=
  if s.parents.isEmpty then s else { s with allocated := block.lcmBlockId :: s.allocated }

def pruneVictims (s : HostRefill) (hostPool : BlockPool) (r : HostRequest) : HostRefill :=
  { s with
    children := update s.children r.1
      (update (s.children r.1) r.2 (skipGone (s.coord.hostEntries r.1) (s.children r.1 r.2)))
    parents := skipRebound hostPool s.allocated s.parents }

def replaceHostBlock (s : HostRefill) (r : HostRequest) : Result (Option CacheBlockLocation × HostRefill) :=
  match s.coord.hostPool with
  | none => .error (.assertion "AcquireHostBlocks requires a host pool")
  | some hostPool =>
    let s := pruneVictims s hostPool r
    if (s.children r.1 r.2).isEmpty && s.parents.isEmpty then pure (none, s)
    else do
      let s ← evictHostVictim s hostPool r
      let (block, c) ← s.coord.acquireHostInBucket r
      assert block.isSome "evicting a Host victim did not free a placement"
      pure (block, { s with coord := c })

def refillHostBlock (s : HostRefill) (r : HostRequest) : Result (Option CacheBlockLocation × HostRefill) := do
  let (block, c) ← s.coord.acquireHostInBucket r
  match block with
  | some l => pure (some l, markAllocated { s with coord := c } l)
  | none => do
    let (block, s) ← replaceHostBlock { s with coord := c } r
    match block with
    | some l => pure (some l, markAllocated s l)
    | none => pure (none, s)

def refillHostBlocks : List (HostRequest × Option CacheBlockLocation) → HostRefill →
    Result (List (Option CacheBlockLocation) × HostRefill)
  | [], s => pure ([], s)
  | (_, some l) :: rest, s => do
    let (blocks, s) ← refillHostBlocks rest s
    pure (some l :: blocks, s)
  | (r, none) :: rest, s => do
    let (block, s) ← refillHostBlock s r
    let (blocks, s) ← refillHostBlocks rest s
    pure (block :: blocks, s)

/-- `AcquireHostBlocks`: one block per request, none where neither a hole nor a victim was left. -/
def acquireHostBlocks : Result (List (Option CacheBlockLocation) × CacheCoordinator) := do
  let (blocks, c) ← acquireFreeHostBlocks requests c
  match c.hostPool with
  | none => .error (.assertion "AcquireHostBlocks requires a host pool")
  | some hostPool =>
    if blocks.all (·.isSome) then pure (blocks, c)
    else do
      let needs := needsReplacement requests blocks
      let (blocks, s) ← refillHostBlocks (requests.zip blocks)
        { coord := c
          children := fun i b => if needs i then c.hostChildren hostPool i b else []
          parents := c.hostVictimParents hostPool requests blocks }
      pure (blocks, s.coord)

end TokenSpeed.CacheCoordinator

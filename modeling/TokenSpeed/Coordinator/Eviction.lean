import TokenSpeed.Coordinator.State

/-!
# Eviction and the tail table

The eviction paths of `cache/coordinator/cache_coordinator.cpp`. Evicting one block of a tail evicts
the tail; evicting a history block of a page takes the page's State checkpoints with it.
-/

namespace TokenSpeed.CacheCoordinator

variable (c : CacheCoordinator) (hostPool : BlockPool) (i : Nat) (l : CacheBlockLocation) (hash : ContentHash)

def allTailKeys (tailTokens : Nat) : Result (List CacheKey) := do
  assert (0 < tailTokens && tailTokens < c.prefixGranularity)
    "a tail lies strictly inside a prefix page"
  pure ((List.range c.groups.length).flatMap fun i => c.tailKeysForGroup i hash tailTokens)

def setDeviceEntries (es : CacheEntries) : CacheCoordinator :=
  { c with deviceEntries := Function.update c.deviceEntries i es }

def report (key : CacheKey) (m : CacheMutation) : CacheCoordinator :=
  { c with mutations := c.mutations ++ [(key, m)] }

def pruneTailIfUnreferenced : Result CacheCoordinator :=
  match c.tails.tailTokensOf hash with
  | none => pure c
  | some tailTokens => do
    let keys ← c.allTailKeys hash tailTokens
    if keys.any fun key => c.contains .device key || (c.hostPool.isSome && c.contains .host key) then
      pure c
    else pure { c with tails := c.tails.remove hash }

/-- `Index().Evict` on the Device with the report to the sink; `none` when the block stays. -/
def evictEntry : Result (Option (CacheKey × CacheCoordinator)) := do
  match ← (c.deviceEntries i).evict c.pool l with
  | none => return none
  | some (key, es, pool) =>
    return some (key, ({ c with pool := pool }.setDeviceEntries i es).report key .removed)

def evictCachedBlockAlone : Result CacheCoordinator := do
  match ← c.evictEntry i l with
  | none => return c
  | some (key, c) => c.pruneTailIfUnreferenced key.contentHash

def evictKeyAlone (key : CacheKey) : Result CacheCoordinator :=
  match (c.deviceEntries key.groupId).findKey key with
  | none => pure c
  | some e => c.evictCachedBlockAlone key.groupId e.block

def evictTailEntries (tailTokens : Nat) : Result CacheCoordinator := do
  let keys ← c.allTailKeys hash tailTokens
  keys.foldlM evictKeyAlone c

def stateKeys : List CacheKey :=
  ((List.range c.groups.length).filter fun i => c.groupIsState i).map fun i =>
    { groupId := i, contentHash := hash, pageOffset := 0 }

/-- What leaves with an entry of group `i`: the rest of its tail, or the State checkpoints of its
page. -/
def evictDependents : Result CacheCoordinator :=
  match c.tails.tailTokensOf hash with
  | some tailTokens => c.evictTailEntries hash tailTokens
  | none => if c.groupIsState i then pure c else (c.stateKeys hash).foldlM evictKeyAlone c

/-- `evictCachedBlock`: whether the block left, and what its leaving took along. -/
def evictCachedBlock : Result (Bool × CacheCoordinator) := do
  match ← c.evictEntry i l with
  | none => return (false, c)
  | some (key, c) =>
    let c ← c.evictDependents i key.contentHash
    let c ← c.pruneTailIfUnreferenced key.contentHash
    return (true, c)

def evictHostCachedBlock : Result (Bool × CacheCoordinator) := do
  match ← (c.hostEntries i).evict hostPool l with
  | none => return (false, c)
  | some (key, es, pool) =>
    let c := { c with
      hostPool := some pool
      hostEntries := Function.update c.hostEntries i es }
    let c ← c.pruneTailIfUnreferenced key.contentHash
    return (true, c)

/-- `recordTail`: the tail the cap drops leaves with its entries. -/
def recordTail (prior : ContentHash) (tailTokens : Nat) (hash : ContentHash) : Result CacheCoordinator := do
  assert (0 < tailTokens) "a tail boundary lies strictly inside a prefix page"
  assert (!hash.isEmpty) "a tail is published under a content hash"
  let (dropped, tails) := c.tails.add prior tailTokens hash
  let c := { c with tails := tails }
  match dropped with
  | none => pure c
  | some r => c.evictTailEntries r.hash r.tailTokens

end TokenSpeed.CacheCoordinator

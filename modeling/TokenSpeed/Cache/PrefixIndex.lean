import TokenSpeed.Cache.BlockPool

/-!
# The prefix index and the tail table

`cache/prefix/prefix_index.h` and `cache/prefix/tail_table.h`. The entries of one group on one tier
are a list in insertion order; the source's maps by key, location and age are lookups into it.
-/

namespace TokenSpeed

structure CacheEntry where
  key : CacheKey
  block : CacheBlockLocation
  lastAccessEpoch : Nat
  logicalBlockIndex : Int := -1
  boundaryKind : CacheBoundaryKind := .chunk
  wasAcquired : Bool := false
  deriving DecidableEq, Repr

/-- A republication keeps the higher boundary kind and moves the entry to `epoch`. -/
def CacheEntry.republished (kind : CacheBoundaryKind) (epoch : Nat) (e : CacheEntry) : CacheEntry :=
  { e with
    boundaryKind := if kind = .endpoint then .endpoint else e.boundaryKind
    lastAccessEpoch := epoch }

/-- A hit marks the entry acquired and moves it to `epoch`. -/
def CacheEntry.acquired (epoch : Nat) (e : CacheEntry) : CacheEntry :=
  { e with wasAcquired := true, lastAccessEpoch := epoch }

/-- The entries of one group on one tier (`CacheEntries`). -/
abbrev CacheEntries := List CacheEntry

namespace CacheEntries

variable (es : CacheEntries) (key : CacheKey) (p : BlockPool) (l : CacheBlockLocation)

def findKey : Option CacheEntry := es.find? (·.key == key)

def findLocation : Option CacheEntry :=
  es.find? (·.block == l)

def containsKey : Bool := (es.findKey key).isSome

/-- `Contains` of a live block: its location is indexed. -/
def containsBlock : Bool := (es.findLocation l).isSome

def touch (f : CacheEntry → CacheEntry) : CacheEntries :=
  es.map fun e => if e.key == key then f e else e

/-- `Register`: the block is indexed already, or the key's canonical block replaces it, or it becomes the
key's entry. Returns the pool, the entries, the block the caller now holds and whether an entry was inserted. -/
def register (groupId : Nat) (block : CacheBlockLocation) (key : CacheKey) (epoch : Nat) (logicalBlockIndex : Int)
    (kind : CacheBoundaryKind) : Result (CacheEntries × BlockPool × CacheBlockLocation × Bool) := do
  assert (p.boundGroup block.lcmBlockId == some groupId)
    "cache block must belong to the prefix index group"
  assert (key.groupId == groupId) "cache key group does not match index"
  assert (!key.contentHash.isEmpty) "cache key content hash must not be empty"
  match es.findLocation block with
  | some existing =>
    assert (existing.key == key) "one cache block location cannot change cache key"
    pure (es.touch key (CacheEntry.republished kind epoch), p, block, false)
  | none =>
    match es.findKey key with
    | some canonical =>
      let p ← p.retain canonical.block
      let p ← p.drop block
      pure (es.touch key (CacheEntry.republished kind epoch), p, canonical.block, false)
    | none =>
      let p ← p.retain block
      let entry : CacheEntry :=
        { key := key
          block := block
          lastAccessEpoch := epoch
          logicalBlockIndex := logicalBlockIndex
          boundaryKind := kind }
      pure (es ++ [entry], p, block, true)

/-- `Evict`: only an entry that is its block's one owner leaves. -/
def evict : Result (Option (CacheKey × CacheEntries × BlockPool)) :=
  match es.findLocation l with
  | none => .ok none
  | some e =>
    if p.unique l then do
      let p ← p.drop l
      pure (some (e.key, es.filter (fun e => !(e.block == l)), p))
    else .ok none

/-- `AcquireMatched`: the block of each hit, retained for the caller; a hole stays empty. -/
def acquireMatched (epoch : Nat) :
    List (CacheKey × Bool) → CacheEntries → BlockPool →
      Result (List (Option CacheBlockLocation) × CacheEntries × BlockPool)
  | [], es, p => .ok ([], es, p)
  | (_, false) :: rest, es, p => do
    let (blocks, es, p) ← acquireMatched epoch rest es p
    pure (none :: blocks, es, p)
  | (key, true) :: rest, es, p =>
    match es.findKey key with
    | none => .error (.assertion "cached block disappeared between match probe and acquisition")
    | some e => do
      let p ← p.retain e.block
      let (blocks, es, p) ← acquireMatched epoch rest
        (es.touch key (CacheEntry.acquired epoch)) p
      pure (some e.block :: blocks, es, p)

def matchedLocations (es : CacheEntries) : List (CacheKey × Bool) → Result (List CacheBlockLocation)
  | [] => .ok []
  | (_, false) :: rest => matchedLocations es rest
  | (key, true) :: rest =>
    match es.findKey key with
    | none => .error (.assertion "cached block disappeared between match probes")
    | some e => do
      let rest ← matchedLocations es rest
      pure (e.block :: rest)

end CacheEntries

/-! ## Tails -/

/-- `TailTable::Tail` with the prior it is recorded under. -/
structure RecordedTail where
  prior : ContentHash
  tailTokens : Nat
  hash : ContentHash
  deriving DecidableEq, Repr

/-- `TailTable`: the per-prior vectors laid end to end; within one prior the least recently used
tail stands first. -/
structure TailTable where
  recorded : List RecordedTail := []

namespace TailTable

def maxTailsPerPrior : Nat := 8

variable (t : TailTable) (hash : ContentHash)

def tails (prior : ContentHash) : List RecordedTail :=
  t.recorded.filter (·.prior == prior)

def contains : Bool := t.recorded.any (·.hash == hash)

def tailTokensOf : Option Nat :=
  (t.recorded.find? (·.hash == hash)).map (·.tailTokens)

/-- `Touch`: a recorded tail becomes the most recently used of its prior. -/
def touch : TailTable :=
  ⟨t.recorded.filter (fun r => !(r.hash == hash)) ++ t.recorded.filter (·.hash == hash)⟩

def remove : TailTable :=
  ⟨t.recorded.filter fun r => !(r.hash == hash)⟩

/-- `Add`: the tail the per-prior cap drops, if any. -/
def add (prior : ContentHash) (tailTokens : Nat) (hash : ContentHash) : Option RecordedTail × TailTable :=
  if t.contains hash then (none, t.touch hash)
  else
    let appended : TailTable := ⟨t.recorded ++ [{ prior, tailTokens, hash }]⟩
    if (appended.tails prior).length ≤ maxTailsPerPrior then (none, appended)
    else
      match appended.tails prior with
      | [] => (none, appended)
      | dropped :: _ => (some dropped, appended.remove dropped.hash)

end TailTable

end TokenSpeed

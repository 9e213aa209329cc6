import Mathlib.Algebra.Order.Ring.Int

/-!
# Cache types

The vocabulary of `cache/core/cache_types.h`, `cache/core/cache_config.h` and
`cache/prefix/prefix_hasher.h`. A content hash is the string of hex digits `DigestToHex` writes,
kept as the list of its digit values; SHA-256 itself is a parameter of the hasher.
-/

namespace TokenSpeed

/-- A token id: the `int32_t` of the source as its bit pattern. -/
abbrev Token := BitVec 32

/-- `ContentHash`: hex digits, most significant digit of each byte first. -/
abbrev ContentHash := List Nat

/-! ## Prefix hashing -/

/-- `HexToBytes`: a trailing odd digit is dropped, as in the source loop. -/
def hexToBytes : ContentHash → List Nat
  | hi :: lo :: rest => (hi * 16 + lo) :: hexToBytes rest
  | _ => []

def digestToHex (digest : List Nat) : ContentHash :=
  digest.flatMap fun byte => [byte / 16, byte % 16]

def int32Max : Nat := 2147483647

/-- The four little-endian bytes `Sha256UpdateU32LE` absorbs. -/
def u32LE (v : Nat) : List Nat :=
  [v % 256, v / 256 % 256, v / 65536 % 256, v / 16777216 % 256]

/-- The framed byte stream of one page: `[prior_len][prior][token_count][tokens]`. The scheduler's callers
pass no extra keys, and an empty list of them writes nothing. -/
def prefixPageBytes (tokens : List Token) (prior : ContentHash) : List Nat :=
  u32LE (hexToBytes prior).length ++ hexToBytes prior ++
    u32LE tokens.length ++ tokens.flatMap fun t => u32LE t.toNat

/-- `HashPrefixPage`, over a digest that stands for SHA-256. -/
def hashPrefixPage (sha256 : List Nat → List Nat) (tokens : List Token) (prior : ContentHash) : ContentHash :=
  digestToHex (sha256 (prefixPageBytes tokens prior))

/-- `ComputePrefixHashes`: the chain of page hashes, each the prior of the next. -/
def computePrefixHashes (sha256 : List Nat → List Nat) : List (List Token) → ContentHash → List ContentHash
  | [], _ => []
  | page :: pages, prior =>
    let h := hashPrefixPage sha256 page prior
    h :: computePrefixHashes sha256 pages h

/-! ## Groups and keys -/

inductive AttnKind where
  | full
  | slidingWindow
  | state
  deriving DecidableEq, Repr

inductive CacheTier where
  | device
  | host
  deriving DecidableEq, Repr

/-- `CacheBoundaryKind`, in the order that ranks the kinds. -/
inductive CacheBoundaryKind where
  | chunk
  | endpoint
  deriving DecidableEq, Repr

structure CacheGroupSpec where
  attnKind : AttnKind := .full
  slidingWindow : Nat := 0
  replayable : Bool := false
  cacheBlocksPerLcmBlock : Nat := 1
  blockGranularity : Nat := 0
  shardCount : Nat := 1
  deriving DecidableEq, Repr

structure CacheKey where
  namespaceId : Nat := 0
  groupId : Nat := 0
  contentHash : ContentHash := []
  pageOffset : Nat := 0
  deriving DecidableEq, Repr

/-- `CacheBlockLocation`: a child slot of an LCM parent; parent ids start at 1. -/
structure CacheBlockLocation where
  lcmBlockId : Nat := 0
  slotIndex : Nat := 0
  deriving DecidableEq, Repr

end TokenSpeed

import TokenSpeed.Cache.Types
import TokenSpeed.Logic.Fault

/-!
# Prefix hashing with extra keys

`HashPrefixPage`, `ComputePrefixHashes` and `AdvancePrefixHashes` of `cache/prefix/prefix_hasher.h` with the extra keys
of a page, each a string of bytes.
-/

namespace TokenSpeed

abbrev ExtraKey := List Nat

variable (sha256 : List Nat → List Nat) (tokens : List Token) (prior : ContentHash) (keys : List ExtraKey)

/-- The terminal section of a page's stream; no keys write nothing. -/
def extraKeyBytes : List Nat :=
  if keys.isEmpty then [] else u32LE keys.length ++ keys.flatMap fun key => u32LE key.length ++ key

def keyedPageBytes : List Nat :=
  prefixPageBytes tokens prior ++ extraKeyBytes keys

def hashKeyedPage :
    ContentHash :=
  digestToHex (sha256 (keyedPageBytes tokens prior keys))

/-- `ComputePrefixHashes`; pages past the end of `extra_keys_per_page` have none. -/
def computeKeyedHashes (sha256 : List Nat → List Nat) :
    List (List Token) → ContentHash → List (List ExtraKey) → List ContentHash
  | [], _, _ => []
  | page :: pages, prior, extra =>
    let h := hashKeyedPage sha256 page prior (extra.headD [])
    h :: computeKeyedHashes sha256 pages h extra.tail

def advancePrefixHashes (prefixPages : List (List Token)) (firstPage : Int)
    (prior : ContentHash) (pastEndPage : Int) : Result (List ContentHash) := do
  assert (0 ≤ firstPage) "first_page must be >= 0"
  assert (firstPage < pastEndPage) "hash range must be non-empty"
  assert (pastEndPage ≤ prefixPages.length) "hash range exceeds the available full pages"
  pure (computePrefixHashes sha256 ((prefixPages.drop firstPage.toNat).take (pastEndPage - firstPage).toNat) prior)

/-- The streams a chain of pages feeds to the digest. -/
def chainStreams (sha256 : List Nat → List Nat) : List (List Token) → ContentHash → List (List ExtraKey) →
    List (List Nat)
  | [], _, _ => []
  | page :: pages, prior, extra => keyedPageBytes page prior (extra.headD []) ::
    chainStreams sha256 pages (hashKeyedPage sha256 page prior (extra.headD [])) extra.tail

/-- No prior, or the 64 digits of a digest. -/
def IsPrior : Prop := prior = [] ∨ prior.length = 64 ∧ ∀ d ∈ prior, d < 16

/-- The sections of a page's stream are shorter than `2 ^ 32`. -/
structure Framable (page : List Token) (extra : List ExtraKey) : Prop where
  tokens : page.length < 2 ^ 32
  keys : extra.length < 2 ^ 32
  key : ∀ key ∈ extra, key.length < 2 ^ 32

structure FramableChain (pages : List (List Token)) (extra : List (List ExtraKey)) : Prop where
  page : ∀ page ∈ pages, page.length < 2 ^ 32
  keys : ∀ keys ∈ extra, Framable [] keys

/-- What SHA-256 writes: 32 bytes. -/
structure Digests (sha256 : List Nat → List Nat) : Prop where
  length : ∀ m, (sha256 m).length = 32
  byte : ∀ m, ∀ b ∈ sha256 m, b < 256

end TokenSpeed

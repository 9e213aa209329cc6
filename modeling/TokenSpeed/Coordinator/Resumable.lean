import TokenSpeed.Coordinator.Probe

/-!
# Resumable boundaries

What a prefix hit is for, without the walk that finds it: a request may resume at `T` when every group
it matches still holds what a query at `T` reads. Blocks that end at or below `floor` are taken as
present (a lower tier holds them). `held` says which keys the tier has.
-/

namespace TokenSpeed.CacheCoordinator

variable (c : CacheCoordinator) (held : CacheKey → Bool) (prompt : PromptPrefix)

/-- The hash that names boundary `T`: the chain hash of its last page when `T` is page-aligned, the hash of
the partial page otherwise. -/
def boundaryHash (T : Nat) : ContentHash :=
  if T % c.prefixGranularity = 0 then prompt.prefixHashes.getD (T / c.prefixGranularity - 1) []
  else
    c.hashPage
      ((prompt.tokens.drop (T / c.prefixGranularity * c.prefixGranularity)).take (T % c.prefixGranularity))
      (priorHash prompt.prefixHashes (T / c.prefixGranularity))

/-- The key of block `j` of history group `i` for a request resuming at `T`. -/
def resumeKey (i T j : Nat) : CacheKey :=
  let perPage := c.prefixGranularity / c.granularity i
  let fullBlocks := T / c.prefixGranularity * perPage
  if j < fullBlocks then
    { groupId := i, contentHash := prompt.prefixHashes.getD (j / perPage) [], pageOffset := j % perPage }
  else { groupId := i, contentHash := c.boundaryHash prompt T, pageOffset := j - fullBlocks }

/-- Block `j` of history group `i` is there for a request resuming at `T`. -/
def BlockHeld (floor i T j : Nat) : Prop :=
  (j + 1) * c.granularity i ≤ floor ∨ held (c.resumeKey prompt i T j) = true

/-- Group `i` accepts `T`: a full group holds every block of `[0, T)`, a sliding group every block
that meets `[T - W + 1, T)`, a State group the state published at `T`. -/
def GroupAccepts (floor i T : Nat) : Prop :=
  match (c.spec i).attnKind with
  | .full => ∀ j, j * c.granularity i < T → c.BlockHeld held prompt floor i T j
  | .slidingWindow =>
    ∀ j row, j * c.granularity i ≤ row → row < (j + 1) * c.granularity i →
      T < row + (c.spec i).slidingWindow → row < T → c.BlockHeld held prompt floor i T j
  | .state =>
    held { groupId := i, contentHash := c.boundaryHash prompt T, pageOffset := 0 } = true

/-- `T` lies strictly inside a page, at a tail recorded under its prior or at the prompt's explicit tail, and
the tail's hash is the prompt's own. -/
def IsPromptTail (T : Nat) : Prop :=
  prompt.tokens ≠ [] ∧ T % c.prefixGranularity ≠ 0 ∧
    ((∃ r ∈ c.tails.tails (priorHash prompt.prefixHashes (T / c.prefixGranularity)),
        r.tailTokens = T % c.prefixGranularity ∧ r.hash = c.boundaryHash prompt T) ∨
      ∃ t, prompt.tail = some t ∧ T = prompt.maxTokens ∧ t.hash = c.boundaryHash prompt T)

def IsCandidate (T : Nat) : Prop :=
  T ≤ prompt.maxTokens ∧ (c.prefixGranularity ∣ T ∨ c.IsPromptTail prompt T)

/-- `T` is the floor itself, or a candidate above it that every group of `order` accepts. -/
def Resumable (floor : Nat) (order : List Nat) (T : Nat) : Prop :=
  T = floor ∨
    floor < T ∧ c.IsCandidate prompt T ∧ ∀ i ∈ order, c.GroupAccepts held prompt floor i T

def spannedGroups (order : List Nat) : List Nat := order.filter fun i => !c.groupIsState i

/-- What a probe of one tier is to find: the longest boundary all groups of `order` resume at, and the longest
one its token-spanned groups resume at, else the floor. -/
structure LongestHit (floor : Nat) (order : List Nat) (common kv : Nat) : Prop where
  common_greatest : IsGreatest {T | c.Resumable held prompt floor order T} common
  kv_greatest : c.spannedGroups order ≠ [] →
    IsGreatest {T | c.Resumable held prompt floor (c.spannedGroups order) T} kv
  kv_floor : c.spannedGroups order = [] → kv = floor

/-- What the probe asserts about its prompt, and that the chain hashes cover the full pages below
the bound, as every caller builds them. -/
structure PromptOk : Prop where
  hashes_bounded : prompt.prefixHashes.length ≤ int32Max / c.prefixGranularity
  tokens_cover : prompt.tokens = [] ∨ prompt.maxTokens ≤ prompt.tokens.length
  tail_at_bound : ∀ t, prompt.tail = some t →
    prompt.tokens ≠ [] ∧ 0 < t.tailTokens ∧ t.tailTokens = prompt.maxTokens % c.prefixGranularity
  hashes_cover : prompt.maxTokens / c.prefixGranularity ≤ prompt.prefixHashes.length

def TailsOk : Prop :=
  ∀ r ∈ c.tails.recorded, 0 < r.tailTokens ∧ r.tailTokens < c.prefixGranularity

end TokenSpeed.CacheCoordinator

import TokenSpeed.Coordinator.Publication

/-!
# The prefix probe

`ProbePromptPrefix` and `ProbeDecodeDevicePrefix` of `cache/coordinator/cache_coordinator.cpp`: the
aligned walk over the closed groups, the descending scan of candidate boundaries, and the two tiers
put together. Vectors indexed by group are functions of the group.
-/

namespace TokenSpeed

structure PromptPrefix where
  prefixHashes : List ContentHash := []
  tokens : List Token := []
  maxTokens : Nat := 0
  tail : Option TailPublication := none

structure TailHit where
  tailTokens : Nat
  hash : ContentHash
  groupKeys : Nat → List CacheKey := fun _ => []
  perGroup : Nat → List Bool := fun _ => []

/-- `PrefixProbe::Tier`. -/
structure ProbeTier where
  numCommonTokens : Nat := 0
  fullPageTokens : Nat := 0
  kvTokens : Nat := 0
  perGroup : Nat → List Bool := fun _ => []
  tail : Option TailHit := none

structure PrefixProbe where
  groupKeys : Nat → List CacheKey := fun _ => []
  stateAtPromptEnd : Option TailHit := none
  device : ProbeTier := {}
  host : ProbeTier := {}

/-- A boundary `forEachCandidateBoundary` visits: the page below it, the tokens past that page, and
the hash a tail was published under. -/
structure CandidateBoundary where
  pageTokens : Nat
  tailTokens : Nat
  hash : ContentHash := []
  deriving DecidableEq, Repr

def CandidateBoundary.tokens (b : CandidateBoundary) : Nat := b.pageTokens + b.tailTokens

namespace CacheCoordinator

variable (c : CacheCoordinator)

/-- The chain hash of the last page before page `page`; empty for page 0. -/
def priorHash (prefixHashes : List ContentHash) (page : Nat) : ContentHash :=
  if page = 0 then [] else prefixHashes.getD (page - 1) []

variable (tier : CacheTier) (hit : CacheKey → Bool) (prompt : PromptPrefix) (promptEndTokens : Nat)
  (matchOrder : List Nat)

/-- `PrefixKeyIsHit`: the tier's index holds the key, or the storage index is known to. -/
def keyIsHit (extraHits : CacheKey → Bool) (key : CacheKey) : Bool :=
  c.contains tier key || extraHits key

/-! ## The aligned phase -/

/-- `FullAttnMatcher::Probe`: a run of hits up to the first miss. -/
def fullAttnProbe (keys : List CacheKey) (beginBlocks maxBlocks : Nat) : List Bool :=
  (((keys.take maxBlocks).drop beginBlocks).takeWhile hit).map fun _ => true

/-- `SweepThenConverge` over closed groups, which are matched once: the bound after each group and
the hits it was matched with. -/
def sweep (hit : CacheKey → Bool) (groupKeys : Nat → List CacheKey) (floorTokens : Nat) :
    List Nat → Nat → (Nat → List Bool) → Nat × (Nat → List Bool)
  | [], bound, hits => (bound, hits)
  | i :: order, bound, hits =>
    let probe := fullAttnProbe hit (groupKeys i) (floorTokens / c.granularity i)
      (bound / c.granularity i)
    let extent := floorTokens + probe.length * c.granularity i
    let aligned := extent - extent % c.prefixGranularity
    sweep hit groupKeys floorTokens order (min bound aligned) (Function.update hits i probe)

variable (floorTokens : Nat) (claimPartial : Bool) (contentHashes : List ContentHash) (groupKeys : Nat → List CacheKey)

/-- `probeTierWithKeys`, over the closed groups `probeTier` passes it. -/
def probeTierWithKeys
    (closedOrder : List Nat) (numPrefixPages floorTokens : Nat) : ProbeTier :=
  if closedOrder.isEmpty then
    { numCommonTokens := floorTokens, fullPageTokens := floorTokens, kvTokens := floorTokens }
  else
    let (common, hits) := c.sweep hit groupKeys floorTokens closedOrder
      (numPrefixPages * c.prefixGranularity) (fun _ => [])
    { numCommonTokens := common
      fullPageTokens := common
      kvTokens := common
      perGroup := fun i => (hits i).take ((common - floorTokens) / c.granularity i) }

/-! ## Candidate boundaries -/

/-- The test of one block of a sliding group's window: a tail block by its tail key, a page block above the
floor by its page's key. -/
def windowBlockHit (i : Nat) (prefixHashes : List ContentHash)
    (floorTokens fullTokens : Nat) (tailKeys : List CacheKey) (block : Nat) : Bool :=
  let perPage := c.prefixGranularity / c.granularity i
  let fullBlocks := fullTokens / c.granularity i
  if fullBlocks ≤ block then hit (tailKeys.getD (block - fullBlocks) {})
  else if block < floorTokens / c.granularity i then true
  else hit { groupId := i
             contentHash := prefixHashes.getD (block / perPage) []
             pageOffset := block % perPage }

/-- `groupAcceptsBoundary`: on acceptance, the hits over the tail's keys and over the group's
full-page keys above the floor. -/
def groupAcceptsBoundary (i : Nat) (prefixHashes : List ContentHash) (floorTokens fullTokens tailTokens : Nat)
    (tailKeys : List CacheKey) : Option (List Bool × List Bool) :=
  match (c.spec i).attnKind with
  | .state =>
    if 0 < tailTokens then
      if tailKeys.all hit then some (tailKeys.map fun _ => true, []) else none
    else
      let page := fullTokens / c.prefixGranularity - 1
      if hit { groupId := i, contentHash := prefixHashes.getD page [], pageOffset := 0 } then
        some ([], List.replicate (page - floorTokens / c.prefixGranularity) false ++ [true])
      else none
  | .full =>
    if tailKeys.all hit then some (tailKeys.map fun _ => true, []) else none
  | .slidingWindow =>
    let floorBlocks := floorTokens / c.granularity i
    let fullBlocks := fullTokens / c.granularity i
    let window := c.slidingWindowBlocks i (fullTokens + tailTokens)
    if (List.range' window.first (window.pastEnd - window.first)).all
        (c.windowBlockHit hit i prefixHashes floorTokens fullTokens tailKeys) then
      some ((List.range tailKeys.length).map fun j => decide (window.first ≤ fullBlocks + j),
        (List.range (fullBlocks - floorBlocks)).map fun j =>
          decide (window.first ≤ floorBlocks + j))
    else none

/-- The tails `forEachCandidateBoundary` considers inside page `page`: those under its prior and the prompt's
own hint, longest first. -/
def pageTails (page : Nat) : List CandidateBoundary :=
  let pageTokens := page * c.prefixGranularity
  let published : List CandidateBoundary :=
    (c.tails.tails (priorHash prompt.prefixHashes page)).map fun r =>
      ⟨pageTokens, r.tailTokens, r.hash⟩
  let candidates : List CandidateBoundary := match prompt.tail with
    | none => published
    | some t =>
      if page = prompt.maxTokens / c.prefixGranularity &&
          published.all (fun b => !(b.tailTokens == t.tailTokens && b.hash == t.hash)) then
        published ++ [⟨pageTokens, t.tailTokens, t.hash⟩]
      else published
  candidates.insertionSort fun a b => b.tailTokens ≤ a.tailTokens

def pageCandidates (fromTokens page : Nat) : List CandidateBoundary :=
  let pageTokens := page * c.prefixGranularity
  let tails :=
    if page ≤ prompt.prefixHashes.length && !prompt.tokens.isEmpty then
      (c.pageTails prompt page).filter fun b =>
        b.tokens ≤ fromTokens && b.tokens ≤ prompt.maxTokens && floorTokens < b.tokens &&
          b.tokens ≤ prompt.tokens.length
    else []
  tails ++ if floorTokens < pageTokens ∧ pageTokens ≤ fromTokens then [⟨pageTokens, 0, []⟩] else []

/-- `forEachCandidateBoundary`: the boundaries from page `page` down to the floor. -/
def candidateBoundaries (prompt : PromptPrefix) (floorTokens fromTokens : Nat) : Nat → List CandidateBoundary
  | 0 => if floorTokens = 0 then c.pageCandidates prompt floorTokens fromTokens 0 else []
  | page + 1 =>
    if floorTokens ≤ (page + 1) * c.prefixGranularity then
      c.pageCandidates prompt floorTokens fromTokens (page + 1) ++
        candidateBoundaries prompt floorTokens fromTokens page
    else []

/-- The last tail hash `visit` computed, with the boundary it is of. -/
structure HashMemo where
  pageTokens : Nat
  tailTokens : Nat
  hash : ContentHash

def tailHash (memo : Option HashMemo) (b : CandidateBoundary) : HashMemo :=
  let fresh : HashMemo :=
    { pageTokens := b.pageTokens
      tailTokens := b.tailTokens
      hash := c.hashPage ((prompt.tokens.drop b.pageTokens).take b.tailTokens)
        (priorHash prompt.prefixHashes (b.pageTokens / c.prefixGranularity)) }
  match memo with
  | none => fresh
  | some m => if m.pageTokens = b.pageTokens ∧ m.tailTokens = b.tailTokens then m else fresh

structure ProbeWalk where
  out : ProbeTier
  kvSettled : Bool
  memo : Option HashMemo := none

def settle (b : CandidateBoundary) (hash : ContentHash)
    (tailKeys : Nat → List CacheKey) (hits : Nat → List Bool × List Bool) (out : ProbeTier) : ProbeTier :=
  let perGroup (i : Nat) : List Bool :=
    if i ∉ matchOrder then out.perGroup i
    else if c.groupIsState i then (if 0 < b.tailTokens then [] else (hits i).2)
    else if c.groupIsClosed i then
      (out.perGroup i).take ((b.pageTokens - floorTokens) / c.granularity i)
    else (hits i).2
  let tailHits (i : Nat) : List Bool :=
    if i ∉ matchOrder then []
    else if !claimPartial && !c.groupIsState i && b.tailTokens % c.granularity i != 0 then
      (hits i).1.dropLast ++ List.replicate (min (hits i).1.length 1) false
    else (hits i).1
  { out with
    numCommonTokens := b.tokens
    fullPageTokens := b.pageTokens
    perGroup := perGroup
    tail := if 0 < b.tailTokens then
        some { tailTokens := b.tailTokens
               hash := hash
               groupKeys := fun i => if i ∈ matchOrder then tailKeys i else []
               perGroup := tailHits }
      else out.tail }

/-- The candidate phase of `probeTier`: the walk stops at the first boundary every group accepts. -/
def visitCandidates (hit : CacheKey → Bool) (prompt : PromptPrefix) (matchOrder : List Nat) (floorTokens : Nat)
    (claimPartial : Bool) : List CandidateBoundary → ProbeWalk → ProbeTier
  | [], w => w.out
  | b :: rest, w =>
    let memo := if 0 < b.tailTokens then some (c.tailHash prompt w.memo b) else w.memo
    let hash := if 0 < b.tailTokens then (c.tailHash prompt w.memo b).hash else []
    if 0 < b.tailTokens ∧ hash ≠ b.hash then
      -- Published by a prompt whose tokens diverge inside the page.
      visitCandidates hit prompt matchOrder floorTokens claimPartial rest { w with memo := memo }
    else
      let tailKeys (i : Nat) : List CacheKey :=
        if 0 < b.tailTokens then c.tailKeysForGroup i hash b.tailTokens else []
      let accepts (i : Nat) := c.groupAcceptsBoundary hit i prompt.prefixHashes floorTokens
        b.pageTokens b.tailTokens (tailKeys i)
      let kvAccepts := (matchOrder.filter fun i => !c.groupIsState i).all fun i =>
        (accepts i).isSome
      let stateAccepts := (matchOrder.filter fun i => c.groupIsState i).all fun i =>
        (accepts i).isSome
      let out := if kvAccepts && !w.kvSettled then
        { w.out with kvTokens := b.tokens } else w.out
      if kvAccepts && stateAccepts then
        c.settle matchOrder floorTokens claimPartial b hash tailKeys
          (fun i => (accepts i).getD ([], [])) out
      else
        visitCandidates hit prompt matchOrder floorTokens claimPartial rest
          { out := out, kvSettled := w.kvSettled || kvAccepts, memo := memo }

def probeTier (matchOrder : List Nat) (floorTokens : Nat) (claimPartial : Bool)
    (extraHits : CacheKey → Bool) : ProbeTier :=
  let hit := c.keyIsHit tier extraHits
  let numPrefixPages := min prompt.prefixHashes.length (prompt.maxTokens / c.prefixGranularity)
  let closedOrder := matchOrder.filter fun i => c.groupIsClosed i
  let aligned := c.probeTierWithKeys hit groupKeys closedOrder numPrefixPages floorTokens
  let start : ProbeTier :=
    { aligned with
      numCommonTokens := floorTokens, fullPageTokens := floorTokens, kvTokens := floorTokens }
  let fromTokens :=
    if closedOrder.isEmpty then prompt.maxTokens
    else min (aligned.numCommonTokens + c.prefixGranularity - 1) prompt.maxTokens
  let out := c.visitCandidates hit prompt matchOrder floorTokens claimPartial
    (c.candidateBoundaries prompt floorTokens fromTokens (fromTokens / c.prefixGranularity))
    { out := start, kvSettled := matchOrder.all fun i => c.groupIsState i }
  if out.numCommonTokens = floorTokens then
    -- Nothing beyond the floor: no group claims anything on this tier.
    { out with perGroup := fun _ => [], tail := none }
  else out

/-! ## The two tiers -/

def buildGroupKeys (i : Nat) : List CacheKey :=
  if i < c.groups.length then c.keysForGroup contentHashes i else []

/-- `probePrefixWithOrder` after its assertions. -/
def probeTiers : PrefixProbe :=
  let groupKeys := c.buildGroupKeys prompt.prefixHashes
  let device := c.probeTier .device prompt groupKeys matchOrder 0 claimPartial fun _ => false
  match c.hostPool with
  | none => { groupKeys := groupKeys, device := device }
  | some _ =>
    let host := c.probeTier .host prompt groupKeys matchOrder device.fullPageTokens claimPartial
      fun _ => false
    if device.numCommonTokens < host.numCommonTokens then
      -- The Device keeps its full pages; its tail and its state hit give way to the Host's.
      { groupKeys := groupKeys
        device :=
          { device with
            numCommonTokens := device.fullPageTokens
            perGroup := fun i => if c.groupIsState i then [] else device.perGroup i
            tail := none }
        host := host }
    else
      { groupKeys := groupKeys
        device := device
        host :=
          { numCommonTokens := device.numCommonTokens
            fullPageTokens := device.fullPageTokens
            kvTokens := device.kvTokens } }

def probePrefixWithOrder : Result PrefixProbe := do
  assert (prompt.prefixHashes.length ≤ int32Max / c.prefixGranularity)
    "prefix length exceeds int32 token range"
  assert (prompt.tokens.isEmpty || prompt.maxTokens ≤ prompt.tokens.length)
    "the probe bound lies inside the supplied tokens"
  match prompt.tail with
  | none => pure ()
  | some t =>
    assert (!prompt.tokens.isEmpty && 0 < t.tailTokens && t.tailTokens == prompt.maxTokens % c.prefixGranularity)
      "an explicit tail describes the probe bound inside its last page"
  pure (c.probeTiers prompt matchOrder claimPartial)

def probePromptPrefix : Result PrefixProbe :=
  c.probePrefixWithOrder prompt c.matchOrder true

/-- `ProbePrefix`: whole pages alone. -/
def probePrefix : Result PrefixProbe :=
  c.probePromptPrefix
    { prefixHashes := contentHashes, maxTokens := contentHashes.length * c.prefixGranularity }

def promptEndHash : Option ContentHash :=
  let tailTokens := promptEndTokens % c.prefixGranularity
  let pageTokens := promptEndTokens - tailTokens
  let pages := pageTokens / c.prefixGranularity
  let prior := priorHash prompt.prefixHashes pages
  if prompt.tokens.isEmpty || prompt.prefixHashes.length < pages then none
  else if 0 < tailTokens then
    some (c.hashPage ((prompt.tokens.drop pageTokens).take tailTokens) prior)
  else if pages = 0 then none
  else some prior

def stateHitAt : Option TailHit :=
  match c.promptEndHash prompt promptEndTokens with
  | none => none
  | some hash =>
    let stateGroups := (List.range c.groups.length).filter fun i => c.groupIsState i
    let key (i : Nat) : CacheKey := { groupId := i, contentHash := hash, pageOffset := 0 }
    if !stateGroups.isEmpty && stateGroups.all (fun i => c.contains .device (key i)) then
      some
        { tailTokens := promptEndTokens % c.prefixGranularity
          hash := hash
          groupKeys := fun i => if i ∈ stateGroups then [key i] else []
          perGroup := fun i => if i ∈ stateGroups then [true] else [] }
    else none

/-- `ProbeDecodeDevicePrefix`: the history groups on the Device alone, a tail's partial block left a hole,
and the State checkpoint at exactly the prompt's end. -/
def probeDecodeDevicePrefix : Result PrefixProbe := do
  assert (prompt.tokens.isEmpty || promptEndTokens ≤ prompt.tokens.length)
    "the prompt end lies inside the supplied tokens"
  let groupKeys := c.buildGroupKeys prompt.prefixHashes
  pure
    { groupKeys := groupKeys
      stateAtPromptEnd := c.stateHitAt prompt promptEndTokens
      device := c.probeTier .device prompt groupKeys (c.matchOrder.filter fun i => !c.groupIsState i) 0
        false fun _ => false }

end CacheCoordinator

end TokenSpeed

import TokenSpeed.Coordinator.Lemmas.Availability
import TokenSpeed.Coordinator.Lemmas.Host
import TokenSpeed.Coordinator.Lemmas.Tier

/-!
# What a probe returns

The Device tier stops at the longest boundary the Device can resume at, and the Host tier at the
longest one above the Device's full pages. When the Host reaches further, the Device keeps its full
pages alone; when it does not, the Host repeats the Device.
-/

namespace TokenSpeed.CacheCoordinator

open List

variable {c : CacheCoordinator} {prompt : PromptPrefix}

theorem lt_length_of_mem_matchOrder {i} (hi : i ∈ c.matchOrder) : i < c.groups.length := by
  simp only [matchOrder, mem_append, mem_filter, mem_range] at hi
  rcases hi with hi | hi <;> exact hi.1

theorem keyIsHit_none (tier) : c.keyIsHit tier (fun _ => false) = c.contains tier := by
  funext key; simp [keyIsHit]

/-- The probe's own assertions hold of the prompts it is entitled to. -/
theorem PromptOk.probePrefixWithOrder_ok (h : c.PromptOk prompt) (od) (cp) :
    c.probePrefixWithOrder prompt od cp = .ok (c.probeTiers prompt od cp) := by
  have hc : (prompt.tokens.isEmpty || decide (prompt.maxTokens ≤ prompt.tokens.length)) = true := by
    rcases h.tokens_cover with hn | hl
    · simp [hn]
    · simp [hl]
  have hbo : decide (prompt.prefixHashes.length ≤ int32Max / c.prefixGranularity) = true :=
    decide_eq_true h.hashes_bounded
  unfold probePrefixWithOrder
  cases ht : prompt.tail with
  | none => simp only [assert, hbo, hc, if_true]; rfl
  | some t =>
    obtain ⟨hne, hp, hq⟩ := h.tail_at_bound t ht
    have hb : (!prompt.tokens.isEmpty && decide (0 < t.tailTokens) &&
        t.tailTokens == prompt.maxTokens % c.prefixGranularity) = true := by
      simp [hne, ← hq, hp]
    simp only [assert, hbo, hc, hb, if_true]
    rfl

/-- The longest hit on the Device, the longest hit on the Host above the Device's full pages, and
which of the two tiers the result reports. -/
theorem probePromptPrefix_longest (hconfig : c.ConfigOk) (htails : c.TailsOk)
    (hprompt : c.PromptOk prompt) :
    ∃ probe D Dkv, c.probePromptPrefix prompt = .ok probe ∧
      c.LongestHit (c.contains .device) prompt 0 c.matchOrder D Dkv ∧
      probe.device.kvTokens = Dkv ∧
      probe.device.fullPageTokens = D / c.prefixGranularity * c.prefixGranularity ∧
      (c.hostPool = none → probe.device.numCommonTokens = D) ∧
      (c.hostPool ≠ none → ∃ H Hkv,
        c.LongestHit (c.contains .host) prompt (D / c.prefixGranularity * c.prefixGranularity)
          c.matchOrder H Hkv ∧
        (H ≤ D → probe.device.numCommonTokens = D ∧ probe.host.numCommonTokens = D ∧
          probe.host.kvTokens = Dkv) ∧
        (D < H → probe.device.numCommonTokens = D / c.prefixGranularity * c.prefixGranularity ∧
          probe.host.numCommonTokens = H ∧ probe.host.kvTokens = Hkv)) := by
  have hd : c.TierOk prompt c.matchOrder 0 :=
    { config := hconfig
      tails := htails
      prompt_ok := hprompt
      order_lt := fun _ hi => lt_length_of_mem_matchOrder hi
      floor_dvd := Nat.dvd_zero _
      floor_le := Nat.zero_le _ }
  have hD := hd.longestHit_probeTier .device true fun _ => false
  have hp := hd.fullPageTokens_probeTier .device true fun _ => false
  rw [keyIsHit_none] at hD
  refine ⟨_, _, _, hprompt.probePrefixWithOrder_ok c.matchOrder true, hD, ?_, ?_, ?_, ?_⟩
  · unfold probeTiers
    cases c.hostPool with
    | none => rfl
    | some _ => dsimp only; split <;> rfl
  · rw [← hp]
    unfold probeTiers
    cases c.hostPool with
    | none => rfl
    | some _ => dsimp only; split <;> rfl
  · intro hn
    simp [probeTiers, hn]
  · intro hs
    obtain ⟨pool, hpo⟩ := Option.ne_none_iff_exists'.mp hs
    have hDle : (c.probeTier .device prompt (c.buildGroupKeys prompt.prefixHashes) c.matchOrder 0 true
        fun _ => false).numCommonTokens ≤ prompt.maxTokens := by
      rcases hD.common_greatest.1 with hz | ⟨-, hc, -⟩
      · rw [hz]; exact Nat.zero_le _
      · exact hc.1
    have hh : c.TierOk prompt c.matchOrder _ :=
      { hd with
        floor_dvd := dvd_mul_left _ _
        floor_le := (Nat.div_mul_le_self _ _).trans hDle }
    have hH := hh.longestHit_probeTier .host true fun _ => false
    rw [keyIsHit_none, ← hp] at hH
    refine ⟨_, _, hp ▸ hH, ?_, ?_⟩
    · intro hle
      rw [← hp] at hle
      simp [probeTiers, hpo, not_lt.mpr hle]
    · intro hlt
      rw [← hp] at hlt ⊢
      simp [probeTiers, hpo, hlt]

/-! ## Where a tier's result is not its longest boundary -/

/-- The prompt of the examples, bounded at `maxTokens`. -/
def pagePrompt (maxTokens : Nat) : PromptPrefix where
  prefixHashes := [hashPrefixPage id [7, 8] []]
  tokens := [7, 8]
  maxTokens := maxTokens

/-- A full group with a published tail at one token on the Device and the page of two tokens on the
Host. -/
def tailBelowHostPage : CacheCoordinator :=
  let base := make [{ blockGranularity := 2 }] 2 id 2 (some 2) none false false
  let block : CacheBlockLocation := ⟨1, 0⟩
  { base with
    pool := base.pool.setOccupied 0 block
    hostPool := base.hostPool.map fun p => p.setOccupied 0 block
    deviceEntries := fun _ => [⟨⟨0, 0, hashPrefixPage id [7] [], 0⟩, block, 0, 0, .chunk, false⟩]
    hostEntries := fun _ => [⟨⟨0, 0, hashPrefixPage id [7, 8] [], 0⟩, block, 0, 0, .chunk, false⟩]
    tails := ⟨[⟨[], 1, hashPrefixPage id [7] []⟩]⟩ }

/-- A State group alone, with the state at two tokens on the Device. -/
def stateAtPage : CacheCoordinator :=
  let base := make [{ attnKind := .state }] 2 id 2 none none false false
  let block : CacheBlockLocation := ⟨1, 0⟩
  { base with
    pool := base.pool.setOccupied 0 block
    deviceEntries := fun _ => [⟨⟨0, 0, hashPrefixPage id [7, 8] [], 0⟩, block, 0, 0, .chunk, false⟩] }

theorem tailBelowHostPage_config : tailBelowHostPage.ConfigOk where
  granularity_pos := by decide
  group_ok := by
    intro i hi
    obtain rfl : i = 0 := by simpa [tailBelowHostPage, make] using hi
    constructor <;> decide

theorem tailBelowHostPage_tails : tailBelowHostPage.TailsOk := by
  unfold TailsOk; decide

theorem pagePrompt_ok {c : CacheCoordinator} (hP : c.prefixGranularity = 2) {mt}
    (hm : mt ≤ 2) : c.PromptOk (pagePrompt mt) where
  hashes_bounded := by rw [hP]; show 1 ≤ int32Max / 2; decide
  tokens_cover := .inr hm
  tail_at_bound := by simp [pagePrompt]
  hashes_cover := by
    rw [hP]
    exact Nat.div_le_of_le_mul hm

/-- The Device can resume at one token and the Host at two. -/
theorem tailBelowHostPage_longest :
    ∃ probe D Dkv, tailBelowHostPage.probePromptPrefix (pagePrompt 2) = .ok probe ∧
      tailBelowHostPage.LongestHit (tailBelowHostPage.contains .device) (pagePrompt 2) 0
        tailBelowHostPage.matchOrder D Dkv ∧ probe.device.kvTokens = Dkv := by
  obtain ⟨probe, D, Dkv, hp, hD, hkv, -⟩ := probePromptPrefix_longest tailBelowHostPage_config
    tailBelowHostPage_tails (pagePrompt_ok rfl (le_refl 2))
  exact ⟨probe, D, Dkv, hp, hD, hkv⟩

theorem tailBelowHostPage_resumes_at_one :
    tailBelowHostPage.Resumable (tailBelowHostPage.contains .device) (pagePrompt 2) 0
      tailBelowHostPage.matchOrder 1 := by
  refine .inr ⟨by decide, ⟨by decide, .inr ⟨by simp [pagePrompt], by decide, .inl ?_⟩⟩, ?_⟩
  · exact ⟨⟨[], 1, hashPrefixPage id [7] []⟩, by decide, by decide, by rfl⟩
  · intro i hi
    obtain rfl : i = 0 := by
      have : tailBelowHostPage.matchOrder = [0] := by decide
      simpa [this] using hi
    intro j hj
    have : tailBelowHostPage.granularity 0 = 2 := by decide
    obtain rfl : j = 0 := by rw [this] at hj; omega
    right; decide

/-- A tier's reported boundary need not be its own longest one: a Device tail gives way to a longer
Host hit, a Host that reaches no further repeats the Device, and without token-spanned groups the KV
boundary stays at the floor although nothing rules out the whole prompt. -/
theorem probePromptPrefix_tiers_combined :
    (∃ probe, tailBelowHostPage.probePromptPrefix (pagePrompt 2) = .ok probe ∧
      ¬ IsGreatest {T | tailBelowHostPage.Resumable (tailBelowHostPage.contains .device)
          (pagePrompt 2) 0 tailBelowHostPage.matchOrder T} probe.device.numCommonTokens) ∧
    (∃ probe, tailBelowHostPage.probePromptPrefix (pagePrompt 1) = .ok probe ∧
      probe.device.fullPageTokens = 0 ∧
      ¬ IsGreatest {T | tailBelowHostPage.Resumable (tailBelowHostPage.contains .host)
          (pagePrompt 1) 0 tailBelowHostPage.matchOrder T} probe.host.numCommonTokens) ∧
    ∃ probe, stateAtPage.probePromptPrefix (pagePrompt 2) = .ok probe ∧
      ¬ IsGreatest {T | stateAtPage.Resumable (stateAtPage.contains .device) (pagePrompt 2) 0
          (stateAtPage.spannedGroups stateAtPage.matchOrder) T} probe.device.kvTokens := by
  refine ⟨⟨_, rfl, ?_⟩, ⟨_, rfl, by decide, ?_⟩, ⟨_, rfl, ?_⟩⟩
  · intro hg
    have hle := hg.2 tailBelowHostPage_resumes_at_one
    revert hle; decide
  · intro hg
    rcases hg.1 with hz | ⟨-, -, hac⟩
    · revert hz; decide
    · rcases hac 0 (by decide) 0 (by decide) with hf | hh
      · revert hf; decide
      · revert hh; decide
  · intro hg
    have hal : stateAtPage.spannedGroups stateAtPage.matchOrder = [] := by decide
    have hw : stateAtPage.Resumable (stateAtPage.contains .device) (pagePrompt 2) 0
        (stateAtPage.spannedGroups stateAtPage.matchOrder) 2 :=
      .inr ⟨by decide, ⟨le_rfl, .inl (by decide)⟩, by simp [hal]⟩
    have hle := hg.2 hw
    revert hle; decide

/-! ## What a release frees -/

/-- Freeing a request's tables makes as many parents available as the estimate says, unless a parent holds, beside
blocks that only the request and the index own, an entry of the index that the request does not own. -/
theorem newlyReleasable_exact_iff {tables : Nat → BlockTable} {others : CacheBlockLocation → Nat}
    (h : c.Owns tables others) :
    ∃ holding c', c.freeTables { tables := tables } = .ok (holding, c') ∧
      (c'.numAvailableLcmBlocks - c.numAvailableLcmBlocks = (c.numNewlyReleasableLcmBlocks tables : Int) ↔
        ¬∃ id, c.SharedWithIndex tables others id) := by
  classical
  obtain ⟨holding, p, hf, hshrinks, hac⟩ := h.freeTables
  refine ⟨holding, _, hf, ?_⟩
  have hsu := h.available_add hshrinks hac
  have hz : (range' 1 c.pool.numLcmBlocks).countP (fun id => decide (c.SharedWithIndex tables others id)) = 0 ↔
      ¬∃ id, c.SharedWithIndex tables others id := by
    rw [countP_eq_zero]
    refine ⟨fun hn ⟨id, hid⟩ => ?_, fun hn id _ => by simpa using fun hid => hn ⟨id, hid⟩⟩
    obtain ⟨slot, hs⟩ := hid.referenced
    obtain ⟨g, hg, -⟩ := h.accounts.ok.occupied_bound _ (h.live (Nat.add_pos_right _ hs))
    have := Finset.mem_Icc.mp (h.accounts.ok.bound_mem id g hg)
    exact hn id (mem_range'_1.mpr (by omega)) (decide_eq_true hid)
  rw [← hz]
  omega

/-- One group of two blocks to a parent, in a pool of one parent. -/
def onePair : CacheCoordinator :=
  .make [{ blockGranularity := 2, cacheBlocksPerLcmBlock := 2 }] 2 id 1 none none false false

def pairTable (slots : List Nat) : Nat → BlockTable := fun _ => { blocks := slots.map fun slot => some ⟨1, slot⟩ }

/-- A request that holds both blocks of the parent frees it. -/
theorem newlyReleasable_exact_pair : ∃ p, onePair.pool.acquireBlocksInBuckets 0 [0, 0] = .ok ([⟨1, 0⟩, ⟨1, 1⟩], p) ∧
    ∃ holding c', ({ onePair with pool := p } : CacheCoordinator).freeTables { tables := pairTable [0, 1] } =
      .ok (holding, c') ∧
      c'.numAvailableLcmBlocks - ({ onePair with pool := p } : CacheCoordinator).numAvailableLcmBlocks =
        (({ onePair with pool := p } : CacheCoordinator).numNewlyReleasableLcmBlocks (pairTable [0, 1]) : Int) := by
  have hm : Accounts onePair.pool 1 (fun _ => []) fun _ => 0 := by
    refine Accounts.make 1 1 (fun g => ?_) (fun g => ?_) fun g => ?_
    all_goals cases g <;> simp
  obtain ⟨p, hac⟩ : ∃ p, onePair.pool.acquireBlocksInBuckets 0 [0, 0] = .ok ([⟨1, 0⟩, ⟨1, 1⟩], p) := ⟨_, rfl⟩
  obtain ⟨hok, hacquires, -⟩ := (hm.ok.acquireBlocksInBuckets_safe 0 [0, 0]).of_ok hac
  have hr : ∀ l, p.useCount l = ({ onePair with pool := p } : CacheCoordinator).tableRefs (pairTable [0, 1]) l :=
    fun l => (hacquires.use_eq l).trans (zero_add _)
  have hme : ∀ l, p.isOccupied l = true → l ∈ [(⟨1, 0⟩ : CacheBlockLocation), ⟨1, 1⟩] := fun l hl => by
    have := (hok.use_pos l).mpr hl
    rw [hr] at this
    exact count_pos_iff.mp this
  have how : ({ onePair with pool := p } : CacheCoordinator).Owns (pairTable [0, 1]) fun _ => 0 := by
    refine ⟨⟨hok, fun l => ?_, nofun, nofun, fun _ _ => nodup_nil, fun _ _ => nodup_nil⟩, fun id g hg => ?_,
      fun i hi l hl => ?_⟩
    · exact (hr l).trans (by simp [indexRefs, onePair, make, CacheEntries.refs])
    · obtain ⟨slot, -, hon⟩ := hok.bound_occupied id g hg
      have := (hacquires.bound _ (hme ⟨id, slot⟩ hon)).1
      obtain rfl := Option.mem_unique hg this
      exact zero_lt_one
    · obtain rfl : i = 0 := Nat.lt_one_iff.mp hi
      exact (hacquires.bound l hl).1
  obtain ⟨holding, c', hf, hiff⟩ := newlyReleasable_exact_iff how
  refine ⟨p, hac, holding, c', hf, hiff.mpr ?_⟩
  rintro ⟨id, hid⟩
  obtain ⟨slot, hon, hz⟩ := hid.cached
  have := (hok.use_pos ⟨id, slot⟩).mpr hon
  rw [hr, hz] at this
  exact lt_irrefl 0 this

/-- The blocks of a first request, published and let go, leave an entry in the parent a second one takes its
block from. -/
def besideEntry : Result (Nat × Nat × Nat) := do
  let (_, pool) ← onePair.pool.acquireBlocks 0 1 none
  let (holding, c) ← ({ onePair with pool := pool } : CacheCoordinator).cacheFullBlocks
    { tables := pairTable [0] } [[7]] 1 0 .chunk
  let (_, c) ← c.freeTables holding
  let (_, pool) ← c.pool.acquireBlocks 0 1 none
  let c := { c with pool := pool }
  let (_, c') ← c.freeTables { tables := pairTable [1] }
  pure (c.numNewlyReleasableLcmBlocks (pairTable [1]), c.numAvailableLcmBlocks, c'.numAvailableLcmBlocks)

/-- The estimate is 0, yet the parent becomes available. -/
theorem besideEntry_underestimated : besideEntry = .ok (0, 0, 1) := by decide +kernel

end TokenSpeed.CacheCoordinator

import TokenSpeed.Cache.Lemmas.ExactPlacement
import TokenSpeed.Cache.Lemmas.PrefixHash

/-!
# The block pool and the prefix hashes

The representation invariant in every state of a pool's user, and what its bucket-exact calls return there; what a
prefix hash tells of its pages.
-/

namespace TokenSpeed.Indexed

/-- In every state reached by calls on a pool's own groups and releases of live locations the
representation invariant holds, the occupied slots are the live locations, no such call reaches a
fatal check, and none hands out a live location. -/
theorem reachable_repOk {numLcmBlocks : Nat} {slotsPerGroup : List Nat} {p : BlockPool} {s : PoolState}
    (hmake : BlockPool.make numLcmBlocks slotsPerGroup = .ok p) (hreach : Reachable p s) :
    RepOk s.pool ∧ s.live.Nodup ∧ (∀ l, s.pool.isOccupied l = true ↔ l ∈ s.live) ∧ ∀ op, Allowed s op →
        (∀ message, step s op ≠ .error (.fatal message)) ∧
        ∀ blocks p', call s.pool op = .ok (blocks, p') → blocks.Nodup ∧ ∀ l ∈ blocks, l ∉ s.live := by
  have hok := hreach.stateOk hmake
  refine ⟨hok.rep, hok.nodup, hok.live, fun op hal => ⟨fun message => ?_, fun blocks p' hc => ?_⟩⟩
  · exact (hok.step_safe hal).not_fatal
  · exact ((hok.call_safe hal).of_ok hc).1

/-- Two groups, the first of two slots to a parent in two buckets: a block of bucket 1 is out and
back, and its parent is last in the FIFO. -/
theorem reachable_repOk_released : ∃ p s, BlockPool.make 2 [2, 1] = .ok p ∧ Reachable p s ∧
    s.live = [] ∧ s.pool.freeParentIds = [2, 1] ∧ RepOk s.pool := by
  obtain ⟨p, hm⟩ : ∃ p, BlockPool.make 2 [2, 1] = .ok p := ⟨_, rfl⟩
  obtain ⟨s, hr, hl, hf⟩ : ∃ s, Reachable p s ∧ s.live = [] ∧ s.pool.freeParentIds = [2, 1] := by
    cases hm
    exact ⟨_, .step (.release ⟨1, 1⟩) (.step (.acquireInBuckets 0 [1]) (.step (.register 0 2 2) .init (by decide) rfl)
      (by decide) rfl) (by decide) rfl, rfl, rfl⟩
  exact ⟨p, s, hm, hr, hl, hf, (reachable_repOk hm hr).1⟩

/-- A group of packing 1 keeps no lowest free slots: its bound parent's list is empty. -/
theorem firstFreeSlots_packing_one : ∃ p s, BlockPool.make 1 [1] = .ok p ∧ Reachable p s ∧
    s.pool.boundGroup 1 = some 0 ∧ s.pool.bucketCount 0 = 1 ∧ (s.pool.groups 0).packing = 1 ∧
    ¬ ∃ v, (s.pool.lcmBlocks 1).firstFreeSlots[0]? = some v ∧ LowestFree (s.pool.lcmBlocks 1).occupancy 1 0 v := by
  refine ⟨_, _, rfl, .step (.acquire 0 1 []) .init (by decide) rfl, rfl, rfl, rfl, ?_⟩
  rintro ⟨v, hv, -⟩
  cases hv

/-! ## Bucket-exact placement -/

/-- `AcquireBlocksInBuckets` on buckets of the group places the whole list, in order, or nothing, and
nothing only when the list has no placement. A group not registered yet is registered with one bucket
first. Exact calls and then dense ones open the parents the closed form counts for their totals. -/
theorem acquireBlocksInBuckets_places {numLcmBlocks : Nat} {slotsPerGroup : List Nat} {p : BlockPool} {s : PoolState}
    (hmake : BlockPool.make numLcmBlocks slotsPerGroup = .ok p) (hreach : Reachable p s) {g : Nat}
    (hg : g < s.pool.numGroups) :
    (∃ q, s.pool.prepareAvailability g (s.pool.groups g).packing = .ok q ∧ (0 < s.pool.bucketCount g → q = s.pool) ∧
      (s.pool.bucketCount g = 0 → q.bucketCount g = 1) ∧
      ∀ buckets : List Nat, (∀ b ∈ buckets, b < q.bucketCount g) →
        ∃ blocks p', s.pool.acquireBlocksInBuckets g (buckets.map Nat.cast) = .ok (blocks, p') ∧
          (Places q g buckets blocks ∧ (∀ l, p'.isOccupied l = true ↔ s.pool.isOccupied l = true ∨ l ∈ blocks) ∨
            blocks = [] ∧ p' = q ∧ ¬∃ blocks', Places q g buckets blocks')) ∧
      (0 < s.pool.bucketCount g → ∀ (exact : List (List Nat)) (dense : List (Int × List Int)),
        (∀ b ∈ exact.flatten, b < s.pool.bucketCount g) →
        (∀ c ∈ dense, BlockPool.checkLoads (s.pool.groups g) c.2 = .ok ()) →
        s.pool.parentsToOpen g (fun b => exact.flatten.count b) (dense.map fun c => c.1.toNat).sum ≤
          s.pool.freeParentIds.length → ∃ outs p₁ outs' p₂,
          calls (exact.map fun buckets => .acquireInBuckets g (buckets.map Nat.cast)) s.pool = .ok (outs, p₁) ∧
          calls (dense.map fun c => .acquire g c.1 c.2) p₁ = .ok (outs', p₂) ∧
          outs.map List.length = exact.map List.length ∧ outs'.map List.length = dense.map (fun c => c.1.toNat) ∧
          p₂.freeParentIds.length +
              s.pool.parentsToOpen g (fun b => exact.flatten.count b) (dense.map fun c => c.1.toNat).sum =
            s.pool.freeParentIds.length) := by
  have h := (hreach.stateOk hmake).rep
  refine ⟨?_, fun hB exact dense hlt hl hf => ?_⟩
  · obtain ⟨q, hq, hreg, hB, hs, hon⟩ := (h.prepareAvailability_returns hg).exists
    exact ⟨q, hq, hs, hon, fun buckets hlt => hreg.acquireBlocksInBuckets_exact hg hq hB hlt⟩
  · obtain ⟨⟨outs, p₁⟩, hexc, hle, hop⟩ :=
      (exactCalls_returns exact s.pool _ h hg hB hlt (fun _ => le_rfl) hf).exists
    simp only [Nat.sub_self] at hop
    have hos := hop.opens
    have hb : (p₁.groups g).buckets = (s.pool.groups g).buckets := hop.same.buckets g
    have hl' : ∀ c ∈ dense, BlockPool.checkLoads (p₁.groups g) c.2 = .ok () := fun c hc => by
      unfold BlockPool.checkLoads
      rw [hb]
      exact hl c hc
    have hg₁ : g < p₁.numGroups := hop.same.groups ▸ hg
    have hB₁ : 0 < p₁.bucketCount g := hop.same.buckets g ▸ hB
    obtain ⟨⟨outs', p₂⟩, hd, hle', hop'⟩ :=
      (denseCalls_returns dense p₁ hop.rep hg₁ hB₁ hl' (by omega)).exists
    refine ⟨outs, p₁, outs', p₂, hexc, hd, hle, hle', ?_⟩
    have hos' := hop'.opens
    have hn := hop'.rep.parentsToOpen_none (hop'.same.groups ▸ hg₁) (hop'.same.buckets g ▸ hB₁)
    dsimp only at hos' hn
    omega

/-- Three blocks of bucket 0 in two calls, then three in any bucket, take two parents of four slots in
two buckets. -/
theorem acquireBlocksInBuckets_places_shared : ∃ p s outs p₁ outs' p₂, BlockPool.make 3 [4] = .ok p ∧ Reachable p s ∧
    calls [.acquireInBuckets 0 [0], .acquireInBuckets 0 [0, 0]] s.pool = .ok (outs, p₁) ∧
    calls [.acquire 0 3 []] p₁ = .ok (outs', p₂) ∧ p₂.freeParentIds.length + 2 = 3 := by
  obtain ⟨p, hm⟩ : ∃ p, BlockPool.make 3 [4] = .ok p := ⟨_, rfl⟩
  obtain ⟨s, hr, hp⟩ : ∃ s, Reachable p s ∧ ∃ q, p.registerGroup 0 4 2 = .ok q ∧ s.pool = q := by
    cases hm
    exact ⟨_, .step (.register 0 4 2) .init (by decide) rfl, _, rfl, rfl⟩
  have hpo := hm
  cases hpo
  obtain ⟨q, hq, hs⟩ := hp
  cases hq
  obtain ⟨outs, p₁, outs', p₂, hexc, hd, -, -, hop⟩ :=
    (acquireBlocksInBuckets_places hm hr (g := 0) (by rw [hs]; decide)).2 (by rw [hs]; decide)
      [[0], [0, 0]] [(3, [])] (by rw [hs]; decide) (by rw [hs]; decide) (by rw [hs]; decide)
  refine ⟨_, s, outs, p₁, outs', p₂, rfl, hr, hexc, hd, ?_⟩
  rw [hs] at hop
  exact hop

/-- A call that finds no placement for a group nobody registered has registered it. -/
theorem acquireBlocksInBuckets_registers : ∃ p p', BlockPool.make 0 [1] = .ok p ∧ Reachable p { pool := p } ∧
    p.acquireBlocksInBuckets 0 [0] = .ok ([], p') ∧ p.bucketCount 0 = 0 ∧ p'.bucketCount 0 = 1 :=
  ⟨_, _, rfl, .init, rfl, rfl, rfl⟩

end TokenSpeed.Indexed

namespace TokenSpeed

/-! ## Prefix hashes -/

/-- A page's stream determines the page. So without a collision of the digest two chains agree at a page iff they agree
up to it, and a tail's hash is no full page's; and a chain is continued from any of its hashes, by a call that takes no
extra keys. -/
theorem prefix_hashes_framed :
    (∀ {tokens tokens' : List Token} {prior prior' : ContentHash} {keys keys' : List ExtraKey},
      IsPrior prior → IsPrior prior' → Framable tokens keys → Framable tokens' keys' →
        keyedPageBytes tokens prior keys = keyedPageBytes tokens' prior' keys' →
      prior = prior' ∧ tokens = tokens' ∧ keys = keys') ∧
    (∀ {sha256 : List Nat → List Nat} {streams : Set (List Nat)}, Digests sha256 → Set.InjOn sha256 streams →
      (∀ {pages pages' : List (List Token)} {prior prior' : ContentHash} {extra extra' : List (List ExtraKey)}
        {i : Nat}, IsPrior prior → IsPrior prior' → FramableChain pages extra → FramableChain pages' extra' →
        (∀ m ∈ chainStreams sha256 pages prior extra, m ∈ streams) →
        (∀ m ∈ chainStreams sha256 pages' prior' extra', m ∈ streams) →
        i < pages.length → i < pages'.length →
        ((computeKeyedHashes sha256 pages prior extra)[i]? = (computeKeyedHashes sha256 pages' prior' extra')[i]? ↔
          prior = prior' ∧ ∀ j < i + 1, pages[j]? = pages'[j]? ∧ extra.getD j [] = extra'.getD j [])) ∧
      ∀ {tail page : List Token} {prior prior' : ContentHash} {keys keys' : List ExtraKey},
        IsPrior prior → IsPrior prior' → Framable tail keys → Framable page keys' →
          keyedPageBytes tail prior keys ∈ streams →
        keyedPageBytes page prior' keys' ∈ streams → tail.length < page.length →
        hashKeyedPage sha256 tail prior keys ≠ hashKeyedPage sha256 page prior' keys') ∧
    ∀ (sha256 : List Nat → List Nat) (pages : List (List Token)) (prior : ContentHash) (extra : List (List ExtraKey))
      (first pastEnd : Nat),
      extra.length ≤ first → first < pastEnd → pastEnd ≤ pages.length →
      advancePrefixHashes sha256 pages first
          ((prior :: computeKeyedHashes sha256 pages prior extra).getD first []) pastEnd =
        .ok (((computeKeyedHashes sha256 pages prior extra).drop first).take (pastEnd - first)) := by
  refine ⟨keyedPageBytes_injective, fun hd hfr => ⟨computeKeyedHashes_eq_iff hd hfr _, ?_⟩, ?_⟩
  · intro tail page prior prior' keys keys' hp hp' hf hf' hm hm' hle heq
    obtain ⟨-, rfl, -⟩ := (hashKeyedPage_eq_iff hd hfr hp hp' hf hf' hm hm').mp heq
    exact lt_irrefl _ hle
  · intro sha256 pages prior extra first pastEnd hea hfi hl
    have hfi' : (first : Int) < pastEnd := by exact_mod_cast hfi
    have hl' : (pastEnd : Int) ≤ pages.length := by exact_mod_cast hl
    rw [computeKeyedHashes_drop first pages prior extra hea, ← computePrefixHashes_take]
    simp [advancePrefixHashes, assert, hfi', hl', ← Nat.cast_sub hfi.le]
    rfl

/-- A digest that tells short streams apart by what they add up to. -/
def sumDigest (m : List Nat) : List Nat := List.replicate 31 0 ++ [m.sum % 256]

/-- Two prompts that part at their second page. -/
theorem prefix_hashes_part :
    (computeKeyedHashes sumDigest [[7], [8]] [] [])[1]? ≠ (computeKeyedHashes sumDigest [[7], [9]] [] [])[1]? := by
  let streams := chainStreams sumDigest [[7], [8]] [] [] ++ chainStreams sumDigest [[7], [9]] [] []
  have hd : Digests sumDigest := by
    refine ⟨fun m => by simp [sumDigest], fun m b hb => ?_⟩
    rcases List.mem_append.mp hb with hb | hb
    · rw [List.eq_of_mem_replicate hb]
      decide
    · rw [List.mem_singleton.mp hb]
      exact Nat.mod_lt _ (by decide)
  have hf : Set.InjOn sumDigest {m | m ∈ streams} :=
    fun a ha b hb => (by decide +kernel : ∀ a ∈ streams, ∀ b ∈ streams, sumDigest a = sumDigest b → a = b) a ha b hb
  have hc : ∀ token, FramableChain [[7], [token]] [] := fun token =>
    ⟨by simp, fun _ h => absurd h List.not_mem_nil⟩
  have hag := (prefix_hashes_framed.2.1 hd hf).1 (i := 1) (.inl rfl) (.inl rfl) (hc 8) (hc 9)
    (fun _ => List.mem_append_left _) (fun _ => List.mem_append_right _) (by decide) (by decide)
  exact fun heq => absurd ((hag.mp heq).2 1 (by decide)).1 (by decide)

end TokenSpeed

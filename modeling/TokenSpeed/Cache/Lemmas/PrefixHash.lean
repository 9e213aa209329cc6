import Mathlib.Data.Set.Function
import TokenSpeed.Cache.PrefixHash
import TokenSpeed.Logic.Framing

/-!
# The sections of a page's stream
-/

namespace TokenSpeed

open List

variable {sha256 : List Nat → List Nat} {prior prior' : ContentHash} {tokens tokens' : List Token}
  {keys keys' : List ExtraKey}

theorem u32LE_delimits : Delimits u32LE (· < 2 ^ 32) :=
  .of_length (n := 4) (fun _ => rfl) fun a b ha hb h => by
    simp only [u32LE, cons.injEq, and_true] at h
    omega

theorem byte_delimits : Delimits (fun b : Nat => [b]) fun _ => True :=
  .of_length (fun _ => rfl) fun _ _ _ _ h => head_eq_of_cons_eq h

theorem token_delimits : Delimits (fun t : Token => u32LE t.toNat) fun _ => True := by
  intro a b _ _ r r' h
  obtain ⟨h, hr⟩ := u32LE_delimits _ _ a.isLt b.isLt r r' h
  exact ⟨BitVec.eq_of_toNat_eq h, hr⟩

theorem framed_bytes (bytes : List Nat) : framed u32LE (fun b => [b]) bytes = u32LE bytes.length ++ bytes := by
  rw [framed, flatMap_singleton']

theorem key_delimits : Delimits (fun key : ExtraKey => u32LE key.length ++ key) (·.length < 2 ^ 32) := by
  intro a b ha hb r r' h
  simp only [← framed_bytes] at h
  exact u32LE_delimits.framed byte_delimits a b ⟨ha, fun _ _ => trivial⟩ ⟨hb, fun _ _ => trivial⟩ r r' h

theorem extraKeyBytes_injective (hk : keys.length < 2 ^ 32 ∧ ∀ key ∈ keys, key.length < 2 ^ 32)
    (hk' : keys'.length < 2 ^ 32 ∧ ∀ key ∈ keys', key.length < 2 ^ 32) (h : extraKeyBytes keys = extraKeyBytes keys') :
    keys = keys' := by
  -- Only the empty list writes no count.
  cases keys with
  | nil =>
    cases keys' with
    | nil => rfl
    | cons => simp [extraKeyBytes, u32LE] at h
  | cons =>
    cases keys' with
    | nil => simp [extraKeyBytes, u32LE] at h
    | cons => exact (u32LE_delimits.framed key_delimits _ _ hk hk' [] [] (by simpa [framed, extraKeyBytes] using h)).1

/-! ## Hex digits -/

theorem hexToBytes_injective : ∀ {p q}, p.length % 2 = 0 → q.length % 2 = 0 → (∀ d ∈ p, d < 16) → (∀ d ∈ q, d < 16) →
    hexToBytes p = hexToBytes q → p = q
  | [], [], _, _, _, _, _ => rfl
  | [], _ :: _ :: _, _, _, _, _, h => by cases h
  | _ :: _ :: _, [], _, _, _, _, h => by cases h
  | hi :: lo :: p, hi' :: lo' :: q, hp, hq, hpd, hqd, h => by
    simp only [hexToBytes, cons.injEq] at h
    simp only [forall_mem_cons] at hpd hqd
    rw [hexToBytes_injective (by simp at hp; omega) (by simp at hq; omega) hpd.2.2 hqd.2.2 h.2,
      show hi = hi' by omega, show lo = lo' by omega]
  | [_], _, hp, _, _, _, _ => by simp at hp
  | _, [_], _, hq, _, _, _ => by simp at hq

theorem length_hexToBytes_le : ∀ p, (hexToBytes p).length ≤ p.length
  | [] | [_] => Nat.zero_le _
  | _ :: _ :: p => by
    have := length_hexToBytes_le p
    simp only [hexToBytes, length_cons]
    omega

theorem IsPrior.digits (h : IsPrior prior) : prior.length % 2 = 0 ∧ (∀ d ∈ prior, d < 16) ∧
    (hexToBytes prior).length < 2 ^ 32 := by
  have hle := length_hexToBytes_le prior
  rcases h with rfl | ⟨hl, ht⟩
  · exact ⟨rfl, forall_mem_nil _, by decide⟩
  · exact ⟨by omega, ht, by omega⟩

theorem keyedPageBytes_injective (hp : IsPrior prior) (hp' : IsPrior prior') (hf : Framable tokens keys)
    (hf' : Framable tokens' keys')
    (h : keyedPageBytes tokens prior keys = keyedPageBytes tokens' prior' keys') : prior = prior' ∧ tokens = tokens' ∧
    keys = keys' := by
  obtain ⟨hn, ht, hl⟩ := hp.digits
  obtain ⟨hn', ht', hl'⟩ := hp'.digits
  simp only [keyedPageBytes, prefixPageBytes, append_assoc] at h
  simp only [← append_assoc (u32LE _) (hexToBytes _), ← framed_bytes] at h
  obtain ⟨hb, h⟩ := u32LE_delimits.framed byte_delimits _ _ ⟨hl, fun _ _ => trivial⟩ ⟨hl', fun _ _ => trivial⟩ _ _ h
  rw [← append_assoc, ← append_assoc (u32LE tokens'.length)] at h
  obtain ⟨hs, h⟩ := u32LE_delimits.framed token_delimits _ _ ⟨hf.tokens, fun _ _ => trivial⟩
    ⟨hf'.tokens, fun _ _ => trivial⟩ _ _ h
  exact ⟨hexToBytes_injective hn hn' ht ht' hb, hs, extraKeyBytes_injective ⟨hf.keys, hf.key⟩ ⟨hf'.keys, hf'.key⟩ h⟩

/-! ## Digests -/

theorem hexDigits_delimit : Delimits (fun bt : Nat => [bt / 16, bt % 16]) fun _ => True :=
  .of_length (n := 2) (fun _ => rfl) fun a b _ _ h => by
    simp only [cons.injEq, and_true] at h
    omega

section Digest

variable (hd : Digests sha256)
include hd

theorem Digests.isPrior (m) : IsPrior (digestToHex (sha256 m)) := by
  refine .inr ⟨?_, fun d ht => ?_⟩
  · simp [digestToHex, length_flatMap, hd.length]
  · obtain ⟨b, hb, ht⟩ := mem_flatMap.mp ht
    have := hd.byte m b hb
    simp only [mem_cons, not_mem_nil, or_false] at ht
    omega

variable {streams : Set (List Nat)}

theorem Digests.injOn {m m'} (hf : Set.InjOn sha256 streams) (hm : m ∈ streams)
    (hm' : m' ∈ streams) (h : digestToHex (sha256 m) = digestToHex (sha256 m')) : m = m' := by
  refine hf hm hm' ?_
  have hl : (sha256 m).length = (sha256 m').length := (hd.length m).trans (hd.length m').symm
  exact (@Delimits.flatMap _ _ _ _ hexDigits_delimit _ _ [] [] hl (fun _ _ => trivial) (fun _ _ => trivial)
    (by simpa [digestToHex] using h)).1

/-- Without a collision, equal hashes are hashes of equal pages. -/
theorem hashKeyedPage_eq_iff (hr : Set.InjOn sha256 streams) (hp : IsPrior prior) (hp' : IsPrior prior')
    (hf : Framable tokens keys) (hf' : Framable tokens' keys') (hm : keyedPageBytes tokens prior keys ∈ streams)
    (hm' : keyedPageBytes tokens' prior' keys' ∈ streams) :
    hashKeyedPage sha256 tokens prior keys = hashKeyedPage sha256 tokens' prior' keys' ↔
      prior = prior' ∧ tokens = tokens' ∧ keys = keys' := by
  refine ⟨fun h => keyedPageBytes_injective hp hp' hf hf' (hd.injOn hr hm hm' h), ?_⟩
  rintro ⟨rfl, rfl, rfl⟩
  rfl

/-! ## Chains -/

omit hd in
theorem FramableChain.head {page pages} {extra : List (List ExtraKey)}
    (h : FramableChain (page :: pages) extra) : Framable page (extra.headD []) := by
  cases extra with
  | nil => exact ⟨h.page page mem_cons_self, by decide, forall_mem_nil _⟩
  | cons keys =>
    have := h.keys keys mem_cons_self
    exact ⟨h.page page mem_cons_self, this.keys, this.key⟩

omit hd in
theorem FramableChain.tail {page pages} {extra : List (List ExtraKey)}
    (h : FramableChain (page :: pages) extra) : FramableChain pages extra.tail :=
  ⟨fun x hx => h.page x (mem_cons_of_mem _ hx), fun x hx => h.keys x (mem_of_mem_tail hx)⟩

omit hd in
theorem headD_eq_getD_zero (extra : List (List ExtraKey)) : extra.headD [] = extra.getD 0 [] := by
  cases extra <;> rfl

omit hd in
theorem tail_getD (extra : List (List ExtraKey)) (j) : extra.tail.getD j [] = extra.getD (j + 1) [] := by
  cases extra <;> simp

/-- Two chains agree at a page iff they start alike and agree in every page up to it. -/
theorem computeKeyedHashes_eq_iff (hr : Set.InjOn sha256 streams) : ∀ (i : Nat) {pages pages' : List (List Token)}
    {prior prior'} {extra extra' : List (List ExtraKey)},
    IsPrior prior → IsPrior prior' → FramableChain pages extra → FramableChain pages' extra' →
    (∀ m ∈ chainStreams sha256 pages prior extra, m ∈ streams) →
    (∀ m ∈ chainStreams sha256 pages' prior' extra', m ∈ streams) →
    i < pages.length → i < pages'.length →
    ((computeKeyedHashes sha256 pages prior extra)[i]? = (computeKeyedHashes sha256 pages' prior' extra')[i]? ↔
      prior = prior' ∧ ∀ j < i + 1, pages[j]? = pages'[j]? ∧ extra.getD j [] = extra'.getD j []) := by
  intro i
  induction i with
  | zero =>
    intro pages pages' prior prior' extra extra' hp hp' hf hf' hm hm' hi hi'
    obtain ⟨page, pages, rfl⟩ := exists_cons_of_length_pos hi
    obtain ⟨page', pages', rfl⟩ := exists_cons_of_length_pos hi'
    rw [Nat.forall_lt_succ_left, computeKeyedHashes, computeKeyedHashes, getElem?_cons_zero, getElem?_cons_zero,
      Option.some.injEq, hashKeyedPage_eq_iff hd hr hp hp' hf.head hf'.head (hm _ mem_cons_self) (hm' _ mem_cons_self)]
    simp only [getElem?_cons_zero, Option.some.injEq, headD_eq_getD_zero]
    simp
  | succ i ih =>
    intro pages pages' prior prior' extra extra' hp hp' hf hf' hm hm' hi hi'
    obtain ⟨page, pages, rfl⟩ := exists_cons_of_length_pos (Nat.zero_lt_of_lt hi)
    obtain ⟨page', pages', rfl⟩ := exists_cons_of_length_pos (Nat.zero_lt_of_lt hi')
    have ht := hashKeyedPage_eq_iff hd hr hp hp' hf.head hf'.head (hm _ mem_cons_self) (hm' _ mem_cons_self)
    rw [computeKeyedHashes, computeKeyedHashes, getElem?_cons_succ, getElem?_cons_succ,
      @ih pages pages' (hashKeyedPage ..) (hashKeyedPage ..) extra.tail extra'.tail (hd.isPrior _) (hd.isPrior _)
        hf.tail hf'.tail
        (fun m h => hm m (mem_cons_of_mem _ h)) (fun m h => hm' m (mem_cons_of_mem _ h)) (Nat.lt_of_succ_lt_succ hi)
        (Nat.lt_of_succ_lt_succ hi'), ht, Nat.forall_lt_succ_left (n := i + 1)]
    simp only [getElem?_cons_zero, getElem?_cons_succ, Option.some.injEq, headD_eq_getD_zero, tail_getD, and_assoc]

end Digest

theorem computeKeyedHashes_nil : ∀ pages prior,
    computeKeyedHashes sha256 pages prior [] = computePrefixHashes sha256 pages prior
  | [], _ => rfl
  | page :: pages, prior => by
    have hp : hashKeyedPage sha256 page prior [] = hashPrefixPage sha256 page prior := by
      simp [hashKeyedPage, hashPrefixPage, keyedPageBytes, extraKeyBytes]
    simp [computeKeyedHashes, computePrefixHashes, hp, computeKeyedHashes_nil pages]

theorem computePrefixHashes_take : ∀ k pages prior,
    computePrefixHashes sha256 (pages.take k) prior = (computePrefixHashes sha256 pages prior).take k
  | 0, _, _ => by simp [computePrefixHashes]
  | _ + 1, [], _ => by simp [computePrefixHashes]
  | k + 1, _ :: pages, _ => by simp [computePrefixHashes, computePrefixHashes_take k pages]

/-- A chain goes on from the hash before a page as one that starts there, if no page from it on has extra keys. -/
theorem computeKeyedHashes_drop : ∀ first pages prior extra,
    extra.length ≤ first → (computeKeyedHashes sha256 pages prior extra).drop first =
      computePrefixHashes sha256 (pages.drop first)
        ((prior :: computeKeyedHashes sha256 pages prior extra).getD first [])
  | 0, pages, prior, extra, h => by
    rw [length_eq_zero_iff.mp (Nat.le_zero.mp h), computeKeyedHashes_nil]
    rfl
  | _ + 1, [], _, _, _ => by simp [computeKeyedHashes, computePrefixHashes]
  | first + 1, page :: pages, prior, extra, h => by
    have hr : extra.tail.length ≤ first := by rw [length_tail]; omega
    simpa [computeKeyedHashes] using
      computeKeyedHashes_drop first pages (hashKeyedPage sha256 page prior (extra.headD [])) extra.tail hr

end TokenSpeed

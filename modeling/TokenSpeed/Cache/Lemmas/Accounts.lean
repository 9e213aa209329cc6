import TokenSpeed.Cache.Lemmas.Index
import TokenSpeed.Logic.Updates

/-!
# Reference accounting

`Accounts`: the use counts of a pool add up to the index entries and the holders outside the index, and the
entries of a group are blocks of it under distinct keys; each operation on the index keeps it.
-/

namespace TokenSpeed

open Function List

open BlockPool CacheEntries

variable {p p' : BlockPool} {n i : Nat} {es : Nat → CacheEntries} {refs refs' : CacheBlockLocation → Nat}
  {l : CacheBlockLocation}

def indexRefs (n : Nat) (es : Nat → CacheEntries) (l : CacheBlockLocation) : Nat :=
  ∑ i ∈ Finset.range n, (es i).refs l

structure Accounts (p : BlockPool) (n : Nat) (es : Nat → CacheEntries)
    (refs : CacheBlockLocation → Nat) : Prop where
  ok : p.Ok
  use_eq : ∀ l, p.useCount l = indexRefs n es l + refs l
  key_group : ∀ i < n, ∀ x ∈ (es i).pairs, x.1.groupId = i
  bound : ∀ i < n, ∀ x ∈ (es i).pairs, p.boundGroup x.2.lcmBlockId = some i
  keys_nodup : ∀ i < n, ((es i).pairs.map Prod.fst).Nodup
  blocks_nodup : ∀ i < n, ((es i).pairs.map Prod.snd).Nodup

theorem CacheEntries.mem_pairs {es : CacheEntries} {e : CacheEntry} (he : e ∈ es) :
    (e.key, e.block) ∈ es.pairs := mem_map.mpr ⟨e, he, rfl⟩

variable {x : CacheKey × CacheBlockLocation}

theorem CacheEntries.refs_pos_of_pairs {es : CacheEntries} (hx : x ∈ es.pairs) : 0 < es.refs x.2 := by
  obtain ⟨e, he, rfl⟩ := mem_map.mp hx
  exact refs_pos he

theorem CacheEntries.pairs_unique {es : CacheEntries} (h : es.refs l ≤ 1) {y} (hx : x ∈ es.pairs) (hy : y ∈ es.pairs)
    (hxl : x.2 = l) (hyl : y.2 = l) : x = y := by
  have hn : (es.pairs.filter fun z => z.2 == l).length ≤ 1 := by
    rw [← countP_eq_length_filter, pairs, countP_map]
    exact h
  have hm : ∀ z ∈ es.pairs, z.2 = l → z ∈ es.pairs.filter fun z => z.2 == l :=
    fun z hz hl => mem_filter.mpr ⟨hz, by simpa using hl⟩
  have hx' := hm x hx hxl
  have hy' := hm y hy hyl
  rcases hf : es.pairs.filter fun z => z.2 == l with _ | ⟨a, _ | ⟨b, rest⟩⟩
  · rw [hf] at hx'; cases hx'
  · rw [hf, mem_singleton] at hx' hy'
    rw [hx', hy']
  · rw [hf] at hn; simp at hn

theorem CacheEntries.blockOf_of_mem {es : CacheEntries}
    (hn : (es.pairs.map Prod.fst).Nodup) (hx : x ∈ es.pairs) : es.blockOf x.1 = some x.2 := by
  rw [blockOf_eq_lookup]
  generalize es.pairs = ps at hn hx
  induction ps with
  | nil => cases hx
  | cons y ps ih =>
    rw [map_cons, nodup_cons] at hn
    rcases mem_cons.mp hx with rfl | hx
    · simp
    · have hne : y.1 ≠ x.1 := fun hq =>
        hn.1 (hq ▸ mem_map.mpr ⟨x, hx, rfl⟩)
      simp only [find?_cons, beq_eq_false_iff_ne.mpr hne]
      exact ih hn.2 hx

theorem CacheEntries.mem_of_blockOf {es : CacheEntries} {key} (h : es.blockOf key = some l) : (key, l) ∈ es.pairs := by
  obtain ⟨e, he, rfl⟩ := Option.map_eq_some_iff.mp h
  obtain ⟨hm, rfl⟩ := findKey_some he
  exact mem_pairs hm

theorem indexRefs_update (hi : i < n) (es : Nat → CacheEntries) (es' : CacheEntries) (l) : indexRefs n (update es i es')
    l + (es i).refs l = indexRefs n es l + es'.refs l := by
  have := sum_change (f := fun j => (es j).refs l)
    (k := fun j => (update es i es' j).refs l) (Finset.mem_range.mpr hi)
    fun j hj => by rw [update_of_ne hj]
  simpa [indexRefs] using this

theorem refs_le_indexRefs (hi : i < n) (es : Nat → CacheEntries) (l) :
    (es i).refs l ≤ indexRefs n es l := le_sum_of_lt (f := fun j => (es j).refs l) hi

namespace Accounts

theorem make (nlb n) {pc sc : Nat → Nat} (hp : ∀ g, 0 < pc g)
    (hs : ∀ g, 0 < sc g) (hd : ∀ g, sc g ∣ pc g) :
    Accounts (.make nlb pc sc) n (fun _ => []) fun _ => 0 where
  ok :=
    { packing_pos := hp
      shard_pos := hs
      shard_dvd := hd
      free_nodup := nodup_range'
      mem_free := fun id => by
        show id ∈ range' 1 nlb ↔ id ∈ Finset.Icc 1 nlb ∧ (none : Option Nat) = none
        rw [mem_range'_1, Finset.mem_Icc]
        simp only [and_true]
        omega
      bound_mem := nofun
      bound_occupied := nofun
      occupied_bound := nofun
      use_pos := fun l => ⟨fun h => absurd h (lt_irrefl 0), nofun⟩ }
  use_eq := fun l => by
    have hz : indexRefs n (fun _ => []) l = 0 := Finset.sum_eq_zero fun _ _ => rfl
    rw [hz]
    rfl
  key_group := nofun
  bound := nofun
  keys_nodup := fun _ _ => nodup_nil
  blocks_nodup := fun _ _ => nodup_nil

section

variable (h : Accounts p n es refs)
include h

theorem live (hl : 0 < refs l) : 0 < p.useCount l := by
  rw [h.use_eq]; omega

theorem entry_live (hi : i < n) {x} (hx : x ∈ (es i).pairs) : 0 < p.useCount x.2 := by
  have := refs_le_indexRefs hi es x.2
  have := refs_pos_of_pairs hx
  rw [h.use_eq]
  omega

theorem congr (hr : ∀ l, refs' l = refs l) : Accounts p n es refs' :=
  { h with use_eq := fun l => by rw [hr]; exact h.use_eq l }

variable {es' : Nat → CacheEntries}

theorem shrink (hs : p.Shrinks p') (hk : p'.Ok) (hb : ∀ i, (es' i).pairs.Sublist (es i).pairs)
    (hu : ∀ l, p'.useCount l = indexRefs n es' l + refs' l) : Accounts p' n es' refs' where
  ok := hk
  use_eq := hu
  key_group := fun i hi x hx => h.key_group i hi x ((hb i).subset hx)
  bound := by
    intro i hi x hx
    have hl : 0 < p'.useCount x.2 := by
      have := refs_le_indexRefs hi es' x.2
      have := refs_pos_of_pairs hx
      rw [hu]
      omega
    obtain ⟨g, hg, -⟩ := hk.occupied_bound x.2 ((hk.use_pos x.2).mp hl)
    have hbo := hs.bound_of _ _ hg
    rw [h.bound i hi x ((hb i).subset hx)] at hbo
    rw [hg, hbo]
  keys_nodup := fun i hi => (h.keys_nodup i hi).sublist ((hb i).map _)
  blocks_nodup := fun i hi => (h.blocks_nodup i hi).sublist ((hb i).map _)

theorem retain (hl : 0 < p.useCount l) : Safe (p.retain l) fun p' => p.SamePlacement p' ∧
      Accounts p' n es fun x => refs x + if x = l then 1 else 0 := by
  obtain ⟨hr, hk⟩ := h.ok.retain_spec hl
  refine .of_eq hr ⟨⟨rfl, rfl, rfl, rfl⟩, ?_⟩
  refine h.shrink (setUse_shrinks p l _) hk (fun _ => Sublist.refl _) fun x => ?_
  have := h.use_eq x
  by_cases hx : x = l
  · subst hx; simp only [setUse, update_self, if_true]; omega
  · simp only [setUse, update_of_ne hx, if_neg hx]; omega

theorem drop (hl : 0 < refs l) : Safe (p.drop l) fun p' => p.Shrinks p' ∧
      Accounts p' n es fun x => refs x - if x = l then 1 else 0 := by
  obtain ⟨p', hd, hk, hs, hu⟩ := h.ok.drop_spec (h.live hl)
  refine .of_eq hd ⟨hs, h.shrink hs hk (fun _ => Sublist.refl _) fun x => ?_⟩
  rw [hu, h.use_eq]
  by_cases hx : x = l
  · subst hx; simp only [if_true]; omega
  · simp only [if_neg hx]; omega

theorem touched (hp : ∀ i, (es' i).pairs = (es i).pairs) : Accounts p n es' refs := by
  refine h.shrink (.refl p) h.ok (fun i => by rw [hp]) fun l => ?_
  have : indexRefs n es' l = indexRefs n es l :=
    Finset.sum_congr rfl fun i _ => refs_of_pairs (hp i)
  rw [this]
  exact h.use_eq l

theorem touched_at {es' : CacheEntries} (hp : es'.pairs = (es i).pairs) : Accounts p n (update es i es') refs := by
  refine h.touched fun j => ?_
  by_cases hj : j = i
  · subst hj; rwa [update_self]
  · rw [update_of_ne hj]

end

/-- What an eviction at `l` leaves: the one entry of a block nothing else holds is gone. -/
structure Evicted (p : BlockPool) (n : Nat) (es : Nat → CacheEntries)
    (refs : CacheBlockLocation → Nat) (i : Nat) (l : CacheBlockLocation) (key : CacheKey)
    (es' : CacheEntries) (p' : BlockPool) : Prop where
  entry : (key, l) ∈ (es i).pairs
  unique : p.useCount l = 1
  unheld : refs l = 0
  shrinks : p.Shrinks p'
  accounts : Accounts p' n (update es i es') refs
  freed : p'.useCount l = 0
  sublist : es'.Sublist (es i)
  kept : ∀ e ∈ es i, (e.key, e.block) ≠ (key, l) → e ∈ es'

theorem evict (h : Accounts p n es refs) (hi : i < n) (l) :
    ((es i).evict p l = .ok none ∧ ((es i).containsBlock l = false ∨ p.useCount l ≠ 1)) ∨
      ∃ key es' p', (es i).evict p l = .ok (some (key, es', p')) ∧ Evicted p n es refs i l key es' p' := by
  unfold CacheEntries.evict
  cases hf : (es i).findLocation l with
  | none => exact .inl ⟨rfl, .inl (by rw [containsBlock, hf]; rfl)⟩
  | some e =>
    obtain ⟨hm, rfl⟩ := findLocation_some hf
    cases hu : p.unique e.block with
    | false => exact .inl ⟨rfl, .inr (by simpa [unique] using hu)⟩
    | true =>
      have hn : p.useCount e.block = 1 := by simpa [unique] using hu
      have ht := refs_pos hm
      have hle := refs_le_indexRefs hi es e.block
      have hus := h.use_eq e.block
      have hh : refs e.block = 0 := by omega
      obtain ⟨p', hd, hk, hs, hus'⟩ := h.ok.drop_spec (by omega : 0 < p.useCount e.block)
      refine .inr ⟨e.key, (es i).without e.block, p', ?_, ?_⟩
      · dsimp only
        rw [if_pos rfl, hd]
        rfl
      · refine ⟨mem_pairs hm, hn, hh, hs, ?_, ?_, filter_sublist, ?_⟩
        · refine h.shrink hs hk (fun j => ?_) fun x => ?_
          · by_cases hj : j = i
            · subst hj
              rw [update_self]
              exact filter_sublist.map _
            · rw [update_of_ne hj]
          · have hp := indexRefs_update hi es ((es i).without e.block) x
            have hx := h.use_eq x
            have hl := refs_le_indexRefs hi es x
            rw [refs_without] at hp
            rw [hus']
            by_cases hxe : x = e.block
            · subst hxe
              simp only [if_true] at hp ⊢
              omega
            · simp only [if_neg hxe] at hp ⊢
              omega
        · rw [hus', if_pos rfl]; omega
        · intro e' he' hne
          refine mem_filter.mpr ⟨he', ?_⟩
          simp only [Bool.not_eq_true', beq_eq_false_iff_ne]
          refine fun hb => hne ?_
          exact pairs_unique (by omega) (mem_pairs he') (mem_pairs hm) hb rfl

/-! ## Registration -/

/-- The references once a holder of `block` holds `block'` instead. -/
def swapRefs (refs : CacheBlockLocation → Nat) (block block' x : CacheBlockLocation) : Nat :=
  refs x - (if x = block then 1 else 0) + if x = block' then 1 else 0

theorem swapRefs_self (hl : 0 < refs l) (x) : swapRefs refs l l x = refs x := by
  unfold swapRefs
  split
  · rename_i hx; subst hx; omega
  · omega

variable {block : CacheBlockLocation}

theorem refs_eq_countP (e : CacheEntries) (x) : e.refs x = e.pairs.countP fun y => y.2 == x := by
  rw [pairs, countP_map]; rfl

theorem nodup_map_snoc {α β : Type} {f : α → β} {l : List α} {a} (hn : (l.map f).Nodup) (ha : ∀ x ∈ l, f x ≠ f a) :
    ((l ++ [a]).map f).Nodup := by
  rw [map_append, nodup_append]
  refine ⟨hn, nodup_singleton _, fun b hb c hc hq => ?_⟩
  obtain ⟨x, hx, rfl⟩ := mem_map.mp hb
  exact ha x hx (hq.trans (mem_singleton.mp hc))

section

variable {es' : CacheEntries} {key : CacheKey} (hp : es'.pairs = (es i).pairs ++ [(key, block)])
include hp

theorem mem_inserted {j x} (hx : x ∈ (update es i es' j).pairs) : x ∈ (es j).pairs ∨ j = i ∧ x = (key, block) := by
  rcases of_update (P := fun e : CacheEntries => x ∈ e.pairs) hx with ⟨rfl, hu⟩ | ⟨-, hx⟩
  · rw [hp, mem_append, mem_singleton] at hu
    exact hu.imp_right fun hu => ⟨rfl, hu⟩
  · exact .inl hx

theorem insert (h : Accounts p n es fun x => refs x + if x = block then 1 else 0) (hi : i < n)
    (hn : (es i).blockOf key = none) (hb : (es i).refs block = 0) (hg : key.groupId = i)
    (hbo : p.boundGroup block.lcmBlockId = some i) : Accounts p n (update es i es') refs where
  ok := h.ok
  use_eq := by
    intro x
    have hu := indexRefs_update hi es es' x
    have hr : es'.refs x = (es i).refs x + if x = block then 1 else 0 := by
      rw [refs_eq_countP, hp, countP_append, refs_eq_countP]
      by_cases hx : x = block
      · subst hx; simp
      · simp [hx, Ne.symm hx]
    have := h.use_eq x
    omega
  key_group := by
    intro j hj x hx
    rcases mem_inserted hp hx with hx | ⟨rfl, rfl⟩
    · exact h.key_group j hj x hx
    · exact hg
  bound := by
    intro j hj x hx
    rcases mem_inserted hp hx with hx | ⟨rfl, rfl⟩
    · exact h.bound j hj x hx
    · exact hbo
  keys_nodup := by
    intro j hj
    by_cases hji : j = i
    · subst hji
      rw [update_self, hp]
      refine nodup_map_snoc (h.keys_nodup j hj) fun x hx hq => ?_
      have hy : x.1 = key := hq
      rw [← hy, blockOf_of_mem (h.keys_nodup j hj) hx] at hn
      cases hn
    · rw [update_of_ne hji]
      exact h.keys_nodup j hj
  blocks_nodup := by
    intro j hj
    by_cases hji : j = i
    · subst hji
      rw [update_self, hp]
      refine nodup_map_snoc (h.blocks_nodup j hj) fun x hx hq => ?_
      have hxl : x.2 = block := hq
      have hs := refs_pos_of_pairs hx
      rw [hxl, hb] at hs
      exact absurd hs (lt_irrefl 0)
    · rw [update_of_ne hji]
      exact h.blocks_nodup j hj

end

structure Registered (p : BlockPool) (n : Nat) (es : Nat → CacheEntries)
    (refs : CacheBlockLocation → Nat) (i : Nat) (block : CacheBlockLocation) (key : CacheKey)
    (es' : CacheEntries) (p' : BlockPool) (block' : CacheBlockLocation) (inserted : Bool) : Prop where
  accounts : Accounts p' n (update es i es') (swapRefs refs block block')
  shrinks : p.Shrinks p'
  group : key.groupId = i
  hash_ne : key.contentHash ≠ []
  canonical : es'.blockOf key = some block'
  entries : inserted = false ∧ es'.pairs = (es i).pairs ∨
    inserted = true ∧ block' = block ∧ (es i).blockOf key = none ∧
      es'.pairs = (es i).pairs ++ [(key, block)]

theorem register (h : Accounts p n es refs) (hi : i < n)
    (hh : 0 < refs block) (key) (epoch) (logical) (kind) :
    Safe ((es i).register p i block key epoch logical kind) fun out =>
      Registered p n es refs i block key out.1 out.2.1 out.2.2.1 out.2.2.2 := by
  refine .assert fun hb => .assert fun hg => .assert fun hha => ?_
  have hg : key.groupId = i := beq_iff_eq.mp hg
  have hb : p.boundGroup block.lcmBlockId = some i := beq_iff_eq.mp hb
  have hha : key.contentHash ≠ [] := by simpa using hha
  have ht : ((es i).touch key (CacheEntry.republished kind epoch)).pairs = (es i).pairs :=
    pairs_touch fun _ => ⟨rfl, rfl⟩
  cases hl : (es i).findLocation block with
  | some existing =>
    refine .assert fun hk => .pure ?_
    obtain ⟨hm, rfl⟩ := findLocation_some hl
    obtain rfl := beq_iff_eq.mp hk
    refine ⟨?_, .refl p, hg, hha, ?_, .inl ⟨rfl, ht⟩⟩
    · exact (h.touched_at ht).congr (swapRefs_self hh)
    · rw [blockOf_of_pairs ht]
      exact blockOf_of_mem (h.keys_nodup i hi) (mem_pairs hm)
  | none =>
    cases hk : (es i).findKey key with
    | some canonical =>
      obtain ⟨hm, rfl⟩ := findKey_some hk
      -- the key is cached already: the holder moves over to its block
      refine (h.retain (h.entry_live hi (mem_pairs hm))).bind fun p₁ hp₁ => ?_
      refine (hp₁.2.drop (by omega)).bind fun p₂ hp₂ => .pure ?_
      refine ⟨?_, hp₁.1.shrinks.trans hp₂.1, hg, hha, ?_, .inl ⟨rfl, ht⟩⟩
      · refine (hp₂.2.touched_at ht).congr fun x => ?_
        unfold swapRefs
        dsimp only
        split
        · rename_i hx; subst hx; split <;> omega
        · omega
      · rw [blockOf_of_pairs ht]
        exact blockOf_of_mem (h.keys_nodup i hi) (mem_pairs hm)
    | none =>
      have hn : (es i).blockOf key = none := by rw [blockOf, hk]; rfl
      refine (h.retain (h.live hh)).bind fun p₁ hp₁ => .pure ?_
      have hpa : ∀ e, e.key = key → e.block = block →
          pairs (es i ++ [e]) = (es i).pairs ++ [(key, block)] := by
        rintro e rfl rfl; simp [pairs]
      refine ⟨?_, hp₁.1.shrinks, hg, hha, ?_, .inr ⟨rfl, rfl, hn, hpa _ rfl rfl⟩⟩
      · exact (insert (hpa _ rfl rfl) hp₁.2 hi hn (findLocation_none hl) hg (by rwa [hp₁.1.boundGroup_eq])).congr
          fun x => by rw [swapRefs_self hh]
      · rw [blockOf_eq_lookup, hpa _ rfl rfl, find?_append]
        have : (es i).pairs.find? (fun x => x.1 == key) = none := by
          rw [blockOf_eq_lookup] at hn
          simpa using hn
        simp [this]

end Accounts

end TokenSpeed

import TokenSpeed.Cache.Lemmas.Accounts
import TokenSpeed.Coordinator.Eviction

/-!
# What an eviction takes

Evictions only let go: a block that has another holder stays, an entry under another content hash
stays, and the accounts stay in order.
-/

namespace TokenSpeed.CacheCoordinator

open BlockPool CacheEntries

variable {c c' c'' : CacheCoordinator} {refs : CacheBlockLocation → Nat} {i : Nat}
  {l : CacheBlockLocation}

structure SameConfig (c c' : CacheCoordinator) : Prop where
  groups_eq : c'.groups = c.groups
  granularity_eq : c'.prefixGranularity = c.prefixGranularity
  sha256_eq : c'.sha256 = c.sha256
  stream_eq : c'.streamDeviceCacheToHost = c.streamDeviceCacheToHost

theorem SameConfig.refl (c) : SameConfig c c := ⟨rfl, rfl, rfl, rfl⟩

theorem SameConfig.trans (h : SameConfig c c') (h' : SameConfig c' c'') : SameConfig c c'' :=
  ⟨h'.groups_eq.trans h.groups_eq, h'.granularity_eq.trans h.granularity_eq,
    h'.sha256_eq.trans h.sha256_eq, h'.stream_eq.trans h.stream_eq⟩

structure SameHost (c c' : CacheCoordinator) : Prop where
  pool_eq : c'.hostPool = c.hostPool
  snapshot_eq : c'.snapshotPool = c.snapshotPool
  entries_eq : c'.hostEntries = c.hostEntries

theorem SameHost.refl (c) : SameHost c c := ⟨rfl, rfl, rfl⟩

theorem SameHost.trans (h : SameHost c c') (h' : SameHost c' c'') : SameHost c c'' :=
  ⟨h'.pool_eq.trans h.pool_eq, h'.snapshot_eq.trans h.snapshot_eq, h'.entries_eq.trans h.entries_eq⟩

/-- The Device pool's accounts, with `refs` held outside the index. -/
def Accounted (c : CacheCoordinator) (refs : CacheBlockLocation → Nat) : Prop :=
  Accounts c.pool c.groups.length c.deviceEntries refs

/-- `c'` is `c` after evictions of entries under hashes in `hash` that nothing else holds. -/
structure Evicts (refs : CacheBlockLocation → Nat) (hash : ContentHash → Prop)
    (c c' : CacheCoordinator) : Prop where
  config : SameConfig c c'
  host : SameHost c c'
  accounted : c'.Accounted refs
  shrinks : c.pool.Shrinks c'.pool
  sublist : ∀ i, (c'.deviceEntries i).Sublist (c.deviceEntries i)
  kept : ∀ i < c.groups.length, ∀ e ∈ c.deviceEntries i,
    ¬ hash e.key.contentHash ∨ 0 < refs e.block → e ∈ c'.deviceEntries i

namespace Evicts

variable {hash hash' : ContentHash → Prop}

theorem refl (h : c.Accounted refs) : Evicts refs hash c c :=
  ⟨.refl c, .refl c, h, .refl _, fun _ => .refl _, fun _ _ _ he _ => he⟩

theorem trans (h : Evicts refs hash c c') (h' : Evicts refs hash c' c'') : Evicts refs hash c c'' where
  config := h.config.trans h'.config
  host := h.host.trans h'.host
  accounted := h'.accounted
  shrinks := h.shrinks.trans h'.shrinks
  sublist := fun i => (h'.sublist i).trans (h.sublist i)
  kept := fun i hi e he hk =>
    h'.kept i (by rwa [h.config.groups_eq]) e (h.kept i hi e he hk) hk

theorem mono (h : Evicts refs hash c c') (hp : ∀ x, hash x → hash' x) : Evicts refs hash' c c' :=
  { h with kept := fun i hi e he hk => h.kept i hi e he (hk.imp_left fun hn hx => hn (hp _ hx)) }

end Evicts

theorem Evicts.setTails {hash : ContentHash → Prop} (h : Evicts refs hash c c') (tails) :
    Evicts refs hash c { c' with tails := tails } :=
  { h with config := { h.config with }, host := { h.host with } }

section

variable (h : c.Accounted refs)
include h

theorem pruneTailIfUnreferenced_safe (hash) (P : ContentHash → Prop) :
    Safe (c.pruneTailIfUnreferenced hash) (Evicts refs P c) := by
  unfold pruneTailIfUnreferenced
  split
  · exact .pure (.refl h)
  · refine .bind (Q := fun _ => True) (.assert fun _ => trivial) fun ks _ => ?_
    split
    · exact .pure (.refl h)
    · exact safe_pure.mpr ((Evicts.refl h).setTails _)

/-- What `evictEntry` did: nothing, since the block has no entry or another holder, or the entry of a
block only the index held is gone. -/
theorem evictEntry_cases (hi : i < c.groups.length) (l) : (c.evictEntry i l = .ok none ∧
      ((c.deviceEntries i).containsBlock l = false ∨ c.pool.useCount l ≠ 1)) ∨
    ∃ key c', c.evictEntry i l = .ok (some (key, c')) ∧ (key, l) ∈ (c.deviceEntries i).pairs ∧
      c.pool.useCount l = 1 ∧ Evicts refs (· = key.contentHash) c c' ∧ c'.pool.useCount l = 0 := by
  unfold evictEntry
  rcases Accounts.evict h hi l with ⟨hq, hw⟩ | ⟨key, es', p', hq, hv⟩
  · rw [hq]
    exact .inl ⟨rfl, hw⟩
  · rw [hq]
    refine .inr ⟨key, _, rfl, hv.entry, hv.unique, ⟨⟨rfl, rfl, rfl, rfl⟩, ⟨rfl, rfl, rfl⟩,
      hv.accounts, hv.shrinks, fun j => ?_, fun j hj e he hk => ?_⟩, hv.freed⟩
    · by_cases hj : j = i
      · subst hj
        simpa [report, setDeviceEntries] using hv.sublist
      · simp [report, setDeviceEntries, Function.update_of_ne hj]
    · by_cases hji : j = i
      · subst hji
        have : e ∈ es' := by
          refine hv.kept e he fun hq => ?_
          rw [Prod.mk.injEq] at hq
          rcases hk with hk | hk
          · exact hk (by rw [hq.1])
          · rw [hq.2, hv.unheld] at hk
            exact absurd hk (lt_irrefl 0)
        simpa [report, setDeviceEntries] using this
      · simpa [report, setDeviceEntries, Function.update_of_ne hji] using he

theorem evictKeyAlone_safe {key : CacheKey} (hi : key.groupId < c.groups.length) :
    Safe (c.evictKeyAlone key) (Evicts refs (· = key.contentHash) c) := by
  unfold evictKeyAlone
  split
  · exact .pure (.refl h)
  · rename_i e he
    obtain ⟨hm, hk⟩ := findKey_some he
    unfold evictCachedBlockAlone
    rcases evictEntry_cases h hi e.block with ⟨hq, -⟩ | ⟨key', c', hq, ht, hn, hv, -⟩
    · rw [hq]; exact .refl h
    · rw [hq]
      -- The block has one entry, so the evicted key is the one looked up.
      have hr : (c.deviceEntries key.groupId).refs e.block ≤ 1 := by
        have := refs_le_indexRefs hi c.deviceEntries e.block
        have := Accounts.use_eq h e.block
        omega
      have hs := pairs_unique hr ht (mem_pairs hm) rfl rfl
      rw [Prod.mk.injEq, hk] at hs
      rw [hs.1] at hv ⊢
      exact (pruneTailIfUnreferenced_safe hv.accounted _ _).mono fun c'' hc'' => hv.trans hc''

theorem evictKeys_safe {hash} (ks : List CacheKey)
    (hke : ∀ key ∈ ks, key.groupId < c.groups.length ∧ key.contentHash = hash) :
    Safe (ks.foldlM evictKeyAlone c) (Evicts refs (· = hash) c) := by
  have hl := Safe.foldlM (f := evictKeyAlone) (I := fun rest s => Evicts refs (· = hash) c s ∧
    ∀ key ∈ rest, key.groupId < c.groups.length ∧ key.contentHash = hash) ks c ⟨.refl h, hke⟩ ?_
  · exact hl.mono fun c' hc' => hc'.1
  · rintro key rest s ⟨hs, hr⟩
    obtain ⟨hg, rfl⟩ := hr key List.mem_cons_self
    rw [← hs.config.groups_eq] at hg
    refine (evictKeyAlone_safe hs.accounted hg).mono fun s' hs' => ⟨hs.trans hs', ?_⟩
    exact fun k hk => hr k (List.mem_cons_of_mem _ hk)

theorem evictTailEntries_safe (hash tt) : Safe (c.evictTailEntries hash tt) (Evicts refs (· = hash) c) := by
  refine .bind (.assert fun _ => .pure ?_) fun ks hk => evictKeys_safe h ks hk
  intro key hy
  obtain ⟨i, hi, hy⟩ := List.mem_flatMap.mp hy
  obtain ⟨o, -, rfl⟩ := List.mem_map.mp hy
  exact ⟨List.mem_range.mp hi, rfl⟩

end

theorem recordTail_safe (h : c.Accounted refs) (pr) (tt) (hash) :
    Safe (c.recordTail pr tt hash) (Evicts refs (fun _ => True) c) := by
  refine .assert fun _ => .assert fun _ => ?_
  dsimp only
  have hs : Evicts refs (fun _ => True) c { c with tails := (c.tails.add pr tt hash).2 } :=
    (Evicts.refl h).setTails _
  split
  · exact .pure hs
  · exact (evictTailEntries_safe hs.accounted _ _).mono fun c' hc' =>
      hs.trans (hc'.mono fun _ _ => trivial)

end TokenSpeed.CacheCoordinator

import TokenSpeed.Coordinator.Lemmas.Host
import TokenSpeed.Coordinator.Storage

/-!
# What a reservation holds

A reservation takes Host blocks nobody held, as many as it has keys and no more than allowed; only a landed
block may join the index.
-/

namespace TokenSpeed.CacheCoordinator

open CacheEntries List

variable {c c' c'' : CacheCoordinator} {refs : CacheBlockLocation → Nat}

structure SameIndex (c c' : CacheCoordinator) : Prop where
  config : SameConfig c c'
  device : SameDevice c c'
  entries : c'.hostEntries = c.hostEntries
  shard : ∀ g, c'.hostShard g = c.hostShard g

theorem SameIndex.refl (c) : SameIndex c c := ⟨.refl c, ⟨rfl, rfl⟩, rfl, fun _ => rfl⟩

theorem SameIndex.trans (h : SameIndex c c') (h' : SameIndex c' c'') : SameIndex c c'' :=
  ⟨h.config.trans h'.config, h.device.trans h'.device,
    h'.entries.trans h.entries, fun g => (h'.shard g).trans (h.shard g)⟩

theorem SameDevice.accounted (h : SameDevice c c') (hg : SameConfig c c') {refs : CacheBlockLocation → Nat}
    (hc : c.Accounted refs) : c'.Accounted refs := by
  unfold Accounted at hc ⊢
  rw [h.pool_eq, h.entries_eq, hg.groups_eq]
  exact hc

theorem retainHost_safe {l} {p : BlockPool} (hp : c.hostPool = some p)
    (hc : Accounts p c.groups.length c.hostEntries refs) (hl : 0 < p.useCount l) :
    Safe (c.retainHost l) fun c' => SameIndex c c' ∧
      c'.HostAccounted fun x => refs x + if x = l then 1 else 0 := by
  unfold retainHost
  rw [hp]
  refine (hc.retain hl).bind fun p' hp' => .pure ⟨⟨⟨rfl, rfl, rfl, rfl⟩, ⟨rfl, rfl⟩, rfl, ?_⟩, p', rfl, hp'.2⟩
  exact hostShard_of_pool hp rfl hp'.1.shard_eq

theorem dropHost_safe {l} (h : c.HostAccounted refs) (hl : 0 < refs l) :
    Safe (c.dropHost l) fun c' => SameIndex c c' ∧
      c'.HostAccounted fun x => refs x - if x = l then 1 else 0 := by
  obtain ⟨p, hp, hc⟩ := h
  unfold dropHost
  rw [hp]
  refine (hc.drop hl).bind fun p' hp' => .pure ⟨⟨⟨rfl, rfl, rfl, rfl⟩, ⟨rfl, rfl⟩, rfl, ?_⟩, p', rfl, hp'.2⟩
  exact hostShard_of_pool hp rfl hp'.1.shard_eq

theorem dropAllHost_safe : ∀ (ls : List CacheBlockLocation) {c : CacheCoordinator},
    (c.HostAccounted fun l => refs l + ls.count l) →
    Safe (ls.foldlM dropHost c) fun c' => SameIndex c c' ∧ c'.HostAccounted refs
  | [], c, h => .pure ⟨.refl c, h⟩
  | l :: ls, c, h => by
    rw [foldlM_cons]
    refine (dropHost_safe h (by rw [count_cons_self]; omega)).bind ?_
    rintro c1 ⟨hs, hac⟩
    refine (dropAllHost_safe ls (hac.congr fun x => ?_)).mono fun c2 hc2 => ⟨hs.trans hc2.1, hc2.2⟩
    by_cases hx : x = l
    · rw [if_pos hx, hx, count_cons_self]
      omega
    · rw [if_neg hx, count_cons_of_ne (Ne.symm hx)]
      omega

theorem acquireHostCachedBlock_safe (h : c.HostAccounted refs) (key) :
    Safe (c.acquireHostCachedBlock key) fun out => SameIndex c out.2 ∧
      (out.2.HostAccounted fun l => refs l + out.1.toList.count l) ∧
      ∀ l, out.1 = some l → 0 < indexRefs c.groups.length c.hostEntries l := by
  obtain ⟨p, hp, hac⟩ := h
  unfold acquireHostCachedBlock
  rw [hp]
  refine .assert fun hg => ?_
  rw [decide_eq_true_iff] at hg
  split
  · exact .pure ⟨.refl c, ⟨p, hp, hac⟩, nofun⟩
  · rename_i e he
    have ht := (findKey_some he).1
    have hm := mem_pairs ht
    refine (retainHost_safe hp hac (hac.entry_live hg hm)).bind fun c1 hc1 =>
      .pure ⟨hc1.1, hc1.2.congr fun l => ?_, fun l hl => ?_⟩
    · show refs l + [e.block].count l = _
      by_cases hl : l = e.block
      · rw [if_pos hl, hl, count_cons_self]
        rfl
      · rw [if_neg hl, count_cons_of_ne (Ne.symm hl)]
        rfl
    · cases hl
      exact (refs_pos ht).trans_le (refs_le_indexRefs hg _ _)

namespace HostTakes

variable {tk : List CacheBlockLocation}

theorem letGo (h : HostTakes refs c tk c') (hs : SameIndex c' c'') (hc : c''.HostAccounted refs) :
    HostTakes refs c [] c'' :=
  ⟨h.config.trans hs.config, h.device.trans hs.device, hc,
    fun i => by rw [hs.entries]; exact h.sublist i, fun g => (hs.shard g).trans (h.shard g), nodup_nil, nofun⟩

theorem unpin {wr : List CacheBlockLocation} {c0} (hp : SameIndex c c0)
    (h : HostTakes (fun l => refs l + wr.count l) c0 tk c') (hs : SameIndex c' c'')
    (hc : c''.HostAccounted fun l => refs l + tk.count l) : HostTakes refs c tk c'' where
  config := (hp.config.trans h.config).trans hs.config
  device := (hp.device.trans h.device).trans hs.device
  accounted := hc
  sublist := fun i => by rw [hs.entries, ← hp.entries]; exact h.sublist i
  shard := fun g => ((hs.shard g).trans (h.shard g)).trans (hp.shard g)
  nodup := h.nodup
  fresh := by
    intro l hl
    obtain ⟨hz, hd⟩ := h.fresh l hl
    rw [hp.config.groups_eq] at hd
    rw [hs.entries]
    exact ⟨by omega, hd⟩

end HostTakes

/-! ## Reservation -/

structure Pinned (refs : CacheBlockLocation → Nat) (c : CacheCoordinator) (s : StoragePins) : Prop where
  same : SameIndex c s.coord
  accounted : s.coord.HostAccounted fun l => refs l + s.warm.count l
  length : s.keys.length = s.requests.length

theorem pinDependencies_safe (dependencies : List (CacheKey × Nat)) (h : c.HostAccounted refs) :
    Safe (dependencies.foldlM pinDependency { coord := c }) (Pinned refs c) := by
  refine .foldlM (fun _ s => Pinned refs c s) dependencies _ ⟨.refl c, h, rfl⟩ ?_
  intro dependency rest s hs
  refine (acquireHostCachedBlock_safe hs.accounted dependency.1).bind ?_
  rintro ⟨found, c₁⟩ ⟨hm, hc, -⟩
  cases found with
  | some l =>
    refine .pure ⟨hs.same.trans hm, hc.congr fun x => ?_, hs.length⟩
    show refs x + (s.warm ++ [l]).count x = refs x + s.warm.count x + [l].count x
    rw [count_append, Nat.add_assoc]
  | none =>
    refine .pure ⟨hs.same.trans hm, hc.congr fun x => rfl, ?_⟩
    rw [length_append, length_append, hs.length]
    rfl

theorem length_filterMap_id {α : Type} : ∀ {l : List (Option α)}, l.all (·.isSome) = true →
    (l.filterMap id).length = l.length
  | [], _ => rfl
  | none :: l, h => by simp at h
  | some a :: l, h => by
    rw [all_cons, Bool.and_eq_true] at h
    show ((l.filterMap id).length + 1) = l.length + 1
    rw [length_filterMap_id h.2]

theorem reserveBlocks_safe {s : StoragePins} (h : s.coord.HostAccounted refs) (hl : s.keys.length = s.requests.length)
    (maxBlocks : Nat) :
    Safe (reserveBlocks s maxBlocks) fun out => HostTakes refs s.coord (out.1.getD []) out.2 ∧
      ∀ bls, out.1 = some bls → bls.length = s.keys.length ∧ s.keys.length ≤ maxBlocks := by
  unfold reserveBlocks
  split
  · rename_i hf
    refine (acquireHostBlocks_safe h s.requests).bind ?_
    rintro ⟨bls, c1⟩ hal
    dsimp only
    split
    · rename_i hall
      refine .pure ⟨hal.takes, fun bls' hq => ?_⟩
      cases hq
      refine ⟨?_, by omega⟩
      rw [length_filterMap_id hall, ← hal.buckets.length_eq]
      exact hl.symm
    · refine (dropAllHost_safe _ hal.takes.accounted).bind fun c2 hc2 => .pure ⟨?_, nofun⟩
      exact hal.takes.letGo hc2.1 hc2.2
  · exact .pure ⟨.refl h, nofun⟩

structure Reserved (refs : CacheBlockLocation → Nat) (maxBlocks : Nat) (c : CacheCoordinator)
    (reservation : StorageReservation) (c' : CacheCoordinator) : Prop where
  takes : HostTakes refs c reservation.blocks c'
  rows : reservation.blocks.length = reservation.keys.length
  bound : reservation.blocks.length ≤ maxBlocks

theorem reserveLoop_safe (pr : PromptPrefix) (hits : List CacheKey)
    (mb dt ft : Nat) (gk : Nat → List CacheKey) :
    ∀ (rounds : Nat) {c : CacheCoordinator} (candidate : PromptPrefix), c.HostAccounted refs →
    Safe (reserveLoop pr hits mb dt ft gk rounds c candidate) fun out =>
      Reserved refs mb c out.1 out.2
  | 0, c, _, h => .pure ⟨.refl h, rfl, Nat.zero_le _⟩
  | rounds + 1, c, candidate, h => by
    unfold reserveLoop
    split
    · exact .pure ⟨.refl h, rfl, Nat.zero_le _⟩
    · dsimp only
      split
      · exact .pure ⟨.refl h, rfl, Nat.zero_le _⟩
      · refine (pinDependencies_safe _ h).bind fun s hs => ?_
        split
        · refine (dropAllHost_safe s.warm hs.accounted).bind fun c1 hc1 => .pure ⟨?_, rfl, Nat.zero_le _⟩
          exact (HostTakes.refl h).letGo (hs.same.trans hc1.1) hc1.2
        · refine (reserveBlocks_safe hs.accounted hs.length mb).bind ?_
          rintro ⟨bls, c1⟩ ⟨ht, hr⟩
          dsimp only at ht hr
          have hw : c1.HostAccounted fun l => (refs l + (bls.getD []).count l) + s.warm.count l :=
            ht.accounted.congr fun l => by omega
          refine (dropAllHost_safe s.warm hw).bind fun c2 hc2 => ?_
          have hl := HostTakes.unpin hs.same ht hc2.1 hc2.2
          cases bls with
          | some bls =>
            obtain ⟨hn, hle⟩ := hr bls rfl
            exact .pure ⟨hl, hn, by rw [hn]; exact hle⟩
          | none =>
            refine (reserveLoop_safe pr hits mb dt ft gk rounds _
              hl.accounted).mono fun out hou => ⟨hl.trans hou.takes, hou.rows, hou.bound⟩

theorem probePromptPrefix_safe (pr) : Safe (c.probePromptPrefix pr) fun _ => True := by
  refine .assert fun _ => .assert fun _ => ?_
  split
  · exact .pure trivial
  · exact .assert fun _ => .pure trivial

theorem reserveStoragePrefix_safe (h : c.HostAccounted refs) (pr) (hits) (mb) : Safe (c.reserveStoragePrefix pr hits mb)
    fun out => Reserved refs mb c out.1 out.2 := by
  exact (probePromptPrefix_safe pr).bind fun pb _ => reserveLoop_safe pr hits mb _ _ _ _ pr h

/-! ## Landing -/

structure HostCached (refs : CacheBlockLocation → Nat) (c : CacheCoordinator) (block : CacheBlockLocation)
    (block' : CacheBlockLocation) (c' : CacheCoordinator) : Prop where
  config : SameConfig c c'
  device : SameDevice c c'
  accounted : c'.HostAccounted (Accounts.swapRefs refs block block')
  indexed : ∀ l, 0 < indexRefs c.groups.length c'.hostEntries l →
    0 < indexRefs c.groups.length c.hostEntries l ∨ l = block
  canonical : block' = block ∨ 0 < indexRefs c.groups.length c.hostEntries block'

theorem indexRefs_pos_update {n i} {es : Nat → CacheEntries} {es' : CacheEntries} {l block}
    (key : CacheKey) (hi : i < n) (hp : es'.pairs = (es i).pairs ∨ es'.pairs = (es i).pairs ++ [(key, block)])
    (hpo : 0 < indexRefs n (Function.update es i es') l) : 0 < indexRefs n es l ∨ l = block := by
  by_cases hl : l = block
  · exact .inr hl
  · refine .inl ?_
    have hu := indexRefs_update hi es es' l
    have hr : es'.refs l = (es i).refs l := by
      rcases hp with hs | hap
      · exact refs_of_pairs hs
      · have hc : ∀ xs : CacheEntries, xs.refs l = xs.pairs.countP fun x => x.2 == l := by
          intro xs
          unfold refs pairs
          rw [countP_map]
          rfl
        rw [hc, hc, hap, countP_append]
        simp [Ne.symm hl]
    omega

theorem cacheHostBlock_safe (h : c.HostAccounted refs) {block} (hh : 0 < refs block)
    (key) : Safe (c.cacheHostBlock block key) fun out => HostCached refs c block out.1 out.2 := by
  obtain ⟨p, hp, hc⟩ := h
  unfold cacheHostBlock
  simp only [hp]
  refine .assert fun hg => ?_
  rw [decide_eq_true_iff] at hg
  refine (hc.register hg hh key _ _ _).bind ?_
  rintro ⟨es, p', block', i⟩ hr
  refine .pure ⟨⟨rfl, rfl, rfl, rfl⟩, ⟨rfl, rfl⟩, ⟨p', rfl, hr.accounts⟩, fun l hl => ?_, ?_⟩
  · refine indexRefs_pos_update key hg ?_ hl
    rcases hr.entries with ⟨-, hs⟩ | ⟨-, -, -, hap⟩
    · exact .inl hs
    · exact .inr hap
  · rcases hr.entries with ⟨-, hs⟩ | ⟨-, hq, -⟩
    · have hm := mem_of_blockOf hr.canonical
      rw [hs] at hm
      exact .inr ((refs_pos_of_pairs hm).trans_le (refs_le_indexRefs hg _ _))
    · exact .inl hq

theorem cacheHostTail_safe {dr : CacheBlockLocation → Nat} (h : c.Accounted dr) (pr)
    (tl) : Safe (c.cacheHostTail pr tl) (Evicts dr (fun _ => True) c) := by
  unfold cacheHostTail
  split
  · exact recordTail_safe h pr tl.tailTokens tl.hash
  · exact .pure (.refl h)

end TokenSpeed.CacheCoordinator

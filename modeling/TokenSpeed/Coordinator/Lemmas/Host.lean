import TokenSpeed.Cache.Lemmas.Acquire
import TokenSpeed.Coordinator.Lemmas.Eviction
import TokenSpeed.Coordinator.HostAllocation

/-!
# The Host accounts

Host allocation evicts entries nothing else holds and takes blocks nobody held, so every other holder's
references stay.
-/

namespace TokenSpeed

open Function List

namespace BlockPool

variable {p : BlockPool}

def Need.ofBuckets (g : Nat) (buckets : List Nat) : Need where
  shape := fun i b => if i = g then buckets.count b else 0
  dense := fun _ => 0

theorem parentsNeeded_zero {B w} {holes : Nat → Nat} (hB : 0 < B) (hw : 0 < w) :
    parentsNeededForBuckets B (fun _ => 0) holes 0 (B * w) = 0 := by
  rw [parentsNeeded_dense hB hw, Nat.zero_sub, Nat.zero_add]
  exact Nat.div_eq_of_lt (Nat.sub_lt (Nat.mul_pos hB hw) Nat.one_pos)

theorem Ok.acquireBlocksInBuckets_safe (h : p.Ok) (g) (bcs) :
    Safe (p.acquireBlocksInBuckets g bcs) fun out => out.2.Ok ∧ p.Acquires out.2 g out.1 ∧
      (out.1 = [] ∨ out.1.map (p.bucketOf g) = bcs) := by
  unfold acquireBlocksInBuckets
  split
  · exact .pure ⟨h, .nil p g, .inl rfl⟩
  · refine .assert fun hl => ?_
    split
    · exact .pure ⟨h, .nil p g, .inl rfl⟩
    · have ht : p.Fit (g + 1) (Need.ofBuckets g bcs) := by
        unfold Fit
        rw [Finset.sum_range_succ, Finset.sum_eq_zero, Nat.zero_add]
        · unfold parentsFor Need.ofBuckets
          simp only [if_true]
          omega
        · intro i hi
          rw [Finset.mem_range] at hi
          unfold parentsFor Need.ofBuckets
          simp only [show i ≠ g from ne_of_lt hi, if_false]
          rw [h.packing_eq i]
          exact parentsNeeded_zero (h.shard_pos i) (h.perBucket_pos i)
      obtain ⟨ls, p', heq, hq, hc⟩ := acquireInBuckets_spec (Nat.lt_succ_self g) bcs h ht
        (fun b hb => of_decide_eq_true (all_eq_true.mp hl b hb)) (fun b => by
          unfold Need.ofBuckets
          simp)
      exact .of_eq heq ⟨hq.ok, hq.acquires, .inr hc⟩

end BlockPool

namespace CacheCoordinator

variable {c c' c'' : CacheCoordinator} {refs : CacheBlockLocation → Nat}

def HostAccounted (c : CacheCoordinator) (refs : CacheBlockLocation → Nat) : Prop :=
  ∃ p, c.hostPool = some p ∧ Accounts p c.groups.length c.hostEntries refs

def hostShard (c : CacheCoordinator) (g : Nat) : Nat := (c.hostPool.map fun p => p.shardCount g).getD 0

structure SameDevice (c c' : CacheCoordinator) : Prop where
  pool_eq : c'.pool = c.pool
  entries_eq : c'.deviceEntries = c.deviceEntries

theorem SameDevice.trans (h : SameDevice c c') (h' : SameDevice c' c'') : SameDevice c c'' :=
  ⟨h'.pool_eq.trans h.pool_eq, h'.entries_eq.trans h.entries_eq⟩

theorem hostShard_of_pool {p p' : BlockPool} (hp : c.hostPool = some p) (hp' : c'.hostPool = some p')
    (hs : p'.shardCount = p.shardCount) (g) : c'.hostShard g = c.hostShard g := by
  unfold hostShard
  rw [hp, hp']
  exact congrFun hs g

/-- `c'` is `c` after evictions of Host entries nothing else holds and with the blocks of `taken`,
which nobody held, in new hands. -/
structure HostTakes (refs : CacheBlockLocation → Nat) (c : CacheCoordinator) (taken : List CacheBlockLocation)
    (c' : CacheCoordinator) : Prop where
  config : SameConfig c c'
  device : SameDevice c c'
  accounted : c'.HostAccounted fun l => refs l + taken.count l
  sublist : ∀ i, (c'.hostEntries i).Sublist (c.hostEntries i)
  shard : ∀ g, c'.hostShard g = c.hostShard g
  nodup : taken.Nodup
  fresh : ∀ l ∈ taken, refs l = 0 ∧ indexRefs c.groups.length c'.hostEntries l = 0

theorem HostAccounted.congr {refs' : CacheBlockLocation → Nat} (h : c.HostAccounted refs)
    (hr : ∀ l, refs' l = refs l) : c.HostAccounted refs' := by
  obtain ⟨p, hp, hc⟩ := h
  exact ⟨p, hp, hc.congr hr⟩

theorem indexRefs_sublist {n} {es es' : Nat → CacheEntries} (h : ∀ i, (es' i).Sublist (es i))
    (l) : indexRefs n es' l ≤ indexRefs n es l := by
  exact Finset.sum_le_sum fun i _ => (h i).countP_le

namespace HostTakes

variable {taken taken' : List CacheBlockLocation}

theorem refl (h : c.HostAccounted refs) : HostTakes refs c [] c :=
  ⟨.refl c, ⟨rfl, rfl⟩, h, fun _ => .refl _, fun _ => rfl, nodup_nil, nofun⟩

theorem trans (h : HostTakes refs c taken c') (h' : HostTakes (fun l => refs l + taken.count l) c' taken' c'') :
    HostTakes refs c (taken ++ taken') c'' where
  config := h.config.trans h'.config
  device := h.device.trans h'.device
  accounted := h'.accounted.congr fun l => by rw [count_append, add_assoc]
  sublist := fun i => (h'.sublist i).trans (h.sublist i)
  shard := fun g => (h'.shard g).trans (h.shard g)
  nodup := by
    refine nodup_append.mpr ⟨h.nodup, h'.nodup, fun l hl l' hl' hq => ?_⟩
    have hz := (h'.fresh l' hl').1
    have hp := count_pos_iff.mpr hl
    rw [hq] at hp
    omega
  fresh := by
    intro l hl
    rcases mem_append.mp hl with hm | hm
    · obtain ⟨hz, hd⟩ := h.fresh l hm
      refine ⟨hz, Nat.le_zero.mp (le_trans (indexRefs_sublist h'.sublist l) ?_)⟩
      rw [hd]
    · obtain ⟨hz, hd⟩ := h'.fresh l hm
      rw [h.config.groups_eq] at hd
      exact ⟨by omega, hd⟩

theorem perm (h : HostTakes refs c taken c') (hp : taken'.Perm taken) : HostTakes refs c taken' c' :=
  { h with
    accounted := h.accounted.congr fun l => by rw [hp.count_eq]
    nodup := hp.nodup_iff.mpr h.nodup
    fresh := fun l hl => h.fresh l (hp.mem_iff.mp hl) }

end HostTakes

theorem acquireHostInBucket_safe (h : c.HostAccounted refs) (r) :
    Safe (c.acquireHostInBucket r) fun out => HostTakes refs c out.1.toList out.2 ∧
      ∀ l, out.1 = some l → l.slotIndex % c.hostShard r.1 = r.2 := by
  obtain ⟨p, hp, hc⟩ := h
  unfold acquireHostInBucket
  rw [hp]
  refine (hc.ok.acquireBlocksInBuckets_safe r.1 [r.2]).bind ?_
  rintro ⟨blocks, p'⟩ ⟨hk, hq, hb⟩
  refine .pure ?_
  dsimp only at hk hq hb ⊢
  have hli : blocks = blocks.head?.toList := by
    rcases hb with hn | hm
    · rw [hn]; rfl
    · have hle : blocks.length = 1 := by rw [← length_map (p.bucketOf r.1), hm]; rfl
      obtain ⟨l, rfl⟩ := length_eq_one_iff.mp hle
      rfl
  rw [← hli]
  refine ⟨⟨⟨rfl, rfl, rfl, rfl⟩, ⟨rfl, rfl⟩, ⟨p', rfl, ?_⟩, fun _ => .refl _, hostShard_of_pool hp rfl hq.shard_eq,
    hq.nodup, fun l hl => ?_⟩, fun l hl => ?_⟩
  · refine { hc with ok := hk, use_eq := fun l => ?_, bound := fun i hi x hx => hq.bound_keep _ _ (hc.bound i hi x hx) }
    rw [hq.use_eq, hc.use_eq]
    exact add_assoc ..
  · have hu := hc.use_eq l
    rw [hq.fresh l hl] at hu
    show refs l = 0 ∧ indexRefs c.groups.length c.hostEntries l = 0
    omega
  · rw [hl] at hli
    have hm := hb.resolve_left (by rw [hli]; nofun)
    rw [hli] at hm
    unfold hostShard
    rw [hp]
    exact head_eq_of_cons_eq hm

theorem pruneTailIfUnreferenced_host (h : c.HostAccounted refs) (hash) :
    Safe (c.pruneTailIfUnreferenced hash) (HostTakes refs c []) := by
  unfold pruneTailIfUnreferenced
  split
  · exact .pure (.refl h)
  · unfold allTailKeys
    rw [bind_assoc]
    refine .assert fun _ => ?_
    rw [pure_bind]
    split
    · exact .pure (.refl h)
    · exact .pure ⟨⟨rfl, rfl, rfl, rfl⟩, ⟨rfl, rfl⟩, h, fun _ => .refl _, fun _ => rfl, nodup_nil, nofun⟩

variable {p : BlockPool}

theorem evictHostCachedBlock_safe (h : c.HostAccounted refs) (hp : c.hostPool = some p) {i} (hi : i < c.groups.length)
    (l) : Safe (c.evictHostCachedBlock p i l) fun out => HostTakes refs c [] out.2 := by
  obtain ⟨p', hp', hac⟩ := h
  rw [hp] at hp'
  cases hp'
  unfold evictHostCachedBlock
  rcases hac.evict hi l with ⟨hn, -⟩ | ⟨key, es', p', hs, hv⟩
  · rw [hn]
    exact .pure (.refl ⟨p, hp, hac⟩)
  · rw [hs]
    have ht : HostTakes refs c []
        { c with hostPool := some p', hostEntries := update c.hostEntries i es' } := by
      refine ⟨⟨rfl, rfl, rfl, rfl⟩, ⟨rfl, rfl⟩, ⟨p', rfl, hv.accounts⟩, fun j => ?_,
        hostShard_of_pool hp rfl hv.shrinks.shard_eq, nodup_nil, nofun⟩
      · by_cases hj : j = i
        · subst hj
          show (update c.hostEntries j es' j).Sublist _
          rw [update_self]
          exact hv.sublist
        · show (update c.hostEntries i es' j).Sublist _
          rw [update_of_ne hj]
    refine (pruneTailIfUnreferenced_host ht.accounted key.contentHash).bind fun c'' hc'' => .pure ?_
    exact ht.trans hc''

/-! ## Allocation -/

def InBucket (c : CacheCoordinator) (r : HostRequest) (block : Option CacheBlockLocation) : Prop :=
  ∀ l, block = some l → l.slotIndex % c.hostShard r.1 = r.2

variable {r : HostRequest}

theorem InBucket.congr (hs : ∀ g, c'.hostShard g = c.hostShard g)
    {block} (h : InBucket c' r block) : InBucket c r block := by
  intro l hl
  rw [← hs]
  exact h l hl

theorem acquireFreeHostBlocks_safe : ∀ (requests : List HostRequest) {c : CacheCoordinator}
    {refs : CacheBlockLocation → Nat}, c.HostAccounted refs →
    Safe (acquireFreeHostBlocks requests c) fun out => HostTakes refs c (out.1.filterMap id) out.2 ∧
      (∀ r ∈ requests, r.1 < c.groups.length) ∧ Forall₂ (InBucket c) requests out.1
  | [], c, refs, h => .pure ⟨.refl h, nofun, .nil⟩
  | r :: rs, c, refs, h => by
    refine .assert fun hg => .assert fun _ => ?_
    refine (acquireHostInBucket_safe h r).bind ?_
    rintro ⟨block, c1⟩ ⟨ht, hk⟩
    refine (acquireFreeHostBlocks_safe rs ht.accounted).bind ?_
    rintro ⟨blocks, c2⟩ ⟨hta, hr, hbu⟩
    refine .pure ⟨?_, fun x hx => ?_, .cons hk ?_⟩
    · have hc : (block :: blocks).filterMap id = block.toList ++ blocks.filterMap id := by
        cases block with
        | none => rfl
        | some l => rfl
      rw [hc]
      exact ht.trans hta
    · rcases mem_cons.mp hx with rfl | hm
      · exact of_decide_eq_true hg
      · rw [← ht.config.groups_eq]
        exact hr x hm
    · exact hbu.imp fun _ _ hb => InBucket.congr ht.shard hb

theorem evictHostParent_safe {g} (id) : ∀ sls {c},
    c.HostAccounted refs → g < c.groups.length →
    Safe (evictHostParent c g id sls) (HostTakes refs c [])
  | [], c, h, _ => .pure (.refl h)
  | slot :: sls, c, h, hg => by
    unfold evictHostParent
    obtain ⟨p, hp, hac⟩ := h
    simp only [hp]
    split
    · refine (evictHostCachedBlock_safe ⟨p, hp, hac⟩ hp hg ⟨id, slot⟩).bind ?_
      rintro ⟨ev, c1⟩ hv
      refine .assert fun _ => ?_
      refine (evictHostParent_safe id sls hv.accounted (by rw [hv.config.groups_eq]; exact hg)).mono fun c2 hc2 => ?_
      exact hv.trans hc2
    · exact evictHostParent_safe id sls ⟨p, hp, hac⟩ hg

def VictimsKnown (n : Nat) (parents : List VictimParent) : Prop :=
  ∀ v ∈ parents, (ofLex (ofLex v).2).1 < n

structure Refilled (refs : CacheBlockLocation → Nat) (s : HostRefill) (r : HostRequest)
    (block : Option CacheBlockLocation) (s' : HostRefill) : Prop where
  takes : HostTakes refs s.coord block.toList s'.coord
  bucket : InBucket s.coord r block
  known : VictimsKnown s.coord.groups.length s'.parents

theorem skipRebound_suffix (hostPool al) : ∀ prs, (skipRebound hostPool al prs).Sublist prs
  | [] => .slnil
  | v :: rs => by
    unfold skipRebound
    dsimp only
    split
    · exact .refl _
    · exact (skipRebound_suffix hostPool al rs).cons v

theorem markAllocated_coord (s : HostRefill) (l) :
    (markAllocated s l).coord = s.coord ∧ (markAllocated s l).parents = s.parents := by
  unfold markAllocated
  split
  · exact ⟨rfl, rfl⟩
  · exact ⟨rfl, rfl⟩

variable {s : HostRefill}

theorem evictHostVictim_safe (h : s.coord.HostAccounted refs)
    (hp : s.coord.hostPool = some p) (hr : r.1 < s.coord.groups.length)
    (hk : VictimsKnown s.coord.groups.length s.parents) :
    Safe (evictHostVictim s p r) fun s' => HostTakes refs s.coord [] s'.coord ∧
      VictimsKnown s.coord.groups.length s'.parents := by
  unfold evictHostVictim
  dsimp only
  split
  · split
    · exact .pure ⟨.refl h, hk⟩
    · refine (evictHostCachedBlock_safe h hp hr _).bind ?_
      rintro ⟨ev, c1⟩ hev
      exact .assert fun _ => .pure ⟨hev, hk⟩
  · split
    · exact .pure ⟨.refl h, hk⟩
    · rename_i v hv
      have hm : v ∈ s.parents := mem_of_mem_head? hv
      refine .assert fun _ => ?_
      refine (evictHostParent_safe _ _ h (hk v hm)).bind fun c1 hc1 => .pure ⟨hc1, ?_⟩
      exact fun x hx => hk x (mem_of_mem_tail hx)

theorem replaceHostBlock_safe (h : s.coord.HostAccounted refs)
    (hr : r.1 < s.coord.groups.length) (hk : VictimsKnown s.coord.groups.length s.parents) :
    Safe (replaceHostBlock s r) fun out => Refilled refs s r out.1 out.2 := by
  obtain ⟨p, hp, hc⟩ := h
  unfold replaceHostBlock
  simp only [hp]
  have hk' : VictimsKnown s.coord.groups.length (pruneVictims s p r).parents := fun v hv =>
    hk v ((skipRebound_suffix p s.allocated s.parents).subset hv)
  split
  · exact .pure ⟨.refl ⟨p, hp, hc⟩, nofun, hk'⟩
  · refine (evictHostVictim_safe (s := pruneVictims s p r) ⟨p, hp, hc⟩ hp hr hk').bind ?_
    rintro s1 ⟨hev, hk1⟩
    refine (acquireHostInBucket_safe hev.accounted r).bind ?_
    rintro ⟨block, c1⟩ ⟨ht, hb⟩
    refine .assert fun _ => .pure ⟨hev.trans ht, ?_, hk1⟩
    exact InBucket.congr hev.shard hb

theorem refillHostBlock_safe (h : s.coord.HostAccounted refs)
    (hr : r.1 < s.coord.groups.length) (hk : VictimsKnown s.coord.groups.length s.parents) :
    Safe (refillHostBlock s r) fun out => Refilled refs s r out.1 out.2 := by
  refine (acquireHostInBucket_safe h r).bind ?_
  rintro ⟨block, c1⟩ ⟨ht, hb⟩
  cases block with
  | some l =>
    refine .pure ⟨?_, hb, ?_⟩
    · rw [(markAllocated_coord _ l).1]
      exact ht
    · rw [(markAllocated_coord _ l).2]
      exact hk
  | none =>
    have hg := ht.config.groups_eq
    refine (replaceHostBlock_safe ht.accounted (by rw [hg]; exact hr)
      (by rw [hg]; exact hk)).bind ?_
    rintro ⟨block, s1⟩ hf
    have hl : Refilled refs s r block s1 := by
      refine ⟨ht.trans hf.takes, InBucket.congr ht.shard hf.bucket, ?_⟩
      have := hf.known
      rw [hg] at this
      exact this
    cases block with
    | none => exact .pure hl
    | some l =>
      refine .pure ⟨?_, hl.bucket, ?_⟩
      · rw [(markAllocated_coord _ l).1]
        exact hl.takes
      · rw [(markAllocated_coord _ l).2]
        exact hl.known

theorem refillHostBlocks_safe : ∀ (op' : List (HostRequest × Option CacheBlockLocation)) {s : HostRefill}
    {refs : CacheBlockLocation → Nat}, s.coord.HostAccounted refs →
    (∀ x ∈ op', x.1.1 < s.coord.groups.length ∧ InBucket s.coord x.1 x.2) →
    VictimsKnown s.coord.groups.length s.parents →
    Safe (refillHostBlocks op' s) fun out => ∃ taken, HostTakes refs s.coord taken out.2.coord ∧
      (out.1.filterMap id).Perm ((op'.map (·.2)).filterMap id ++ taken) ∧
      Forall₂ (InBucket s.coord) (op'.map (·.1)) out.1
  | [], s, refs, h, _, _ => .pure ⟨[], .refl h, .nil, .nil⟩
  | (r, some l) :: rest, s, refs, h, hop, hk => by
    refine (refillHostBlocks_safe rest h (fun x hx => hop x (mem_cons_of_mem _ hx)) hk).bind ?_
    rintro ⟨blocks, s1⟩ ⟨taken, ht, hp, hc⟩
    exact .pure ⟨taken, ht, hp.cons l, .cons (hop _ mem_cons_self).2 hc⟩
  | (r, none) :: rest, s, refs, h, hop, hk => by
    refine (refillHostBlock_safe h (hop _ mem_cons_self).1 hk).bind ?_
    rintro ⟨block, s1⟩ hr
    have hgr := hr.takes.config.groups_eq
    have hs := hr.takes.shard
    refine (refillHostBlocks_safe rest hr.takes.accounted (fun x hx => ?_)
      (by rw [hgr]; exact hr.known)).bind ?_
    · obtain ⟨hg, hb⟩ := hop x (mem_cons_of_mem _ hx)
      exact ⟨by rw [hgr]; exact hg, InBucket.congr (fun g => (hs g).symm) hb⟩
    · rintro ⟨blocks, s2⟩ ⟨taken, ht, hp, hc⟩
      refine .pure ⟨block.toList ++ taken, hr.takes.trans ht, ?_, .cons hr.bucket ?_⟩
      · cases block with
        | none => exact hp
        | some l =>
          refine (hp.cons l).trans ?_
          rw [map_cons]
          exact (@perm_middle _ _ ((rest.map (·.2)).filterMap id) _).symm
      · exact hc.imp fun _ _ hb => InBucket.congr hs hb

theorem hostVictimParents_known (hc : Accounts p c.groups.length c.hostEntries refs)
    (requests) (blocks) :
    VictimsKnown c.groups.length (c.hostVictimParents p requests blocks) := by
  intro v hv
  unfold hostVictimParents at hv
  rw [(perm_insertionSort _ _).mem_iff] at hv
  obtain ⟨id, hd, hv⟩ := mem_filterMap.mp hv
  obtain ⟨g, hg, rfl⟩ := Option.map_eq_some_iff.mp hv
  have ht := mem_dedup.mp (mem_of_mem_filter hd)
  obtain ⟨e, he, rfl⟩ := mem_map.mp ht
  obtain ⟨i, hi, he⟩ := mem_flatMap.mp he
  have hi' : i < c.groups.length := mem_range.mp (mem_of_mem_filter hi)
  have hb := hc.bound i hi' _ (CacheEntries.mem_pairs (mem_of_mem_filter he))
  rw [hg] at hb
  cases hb
  exact hi'

structure HostAllocated (refs : CacheBlockLocation → Nat) (c : CacheCoordinator) (requests : List HostRequest)
    (blocks : List (Option CacheBlockLocation)) (c' : CacheCoordinator) : Prop where
  takes : HostTakes refs c (blocks.filterMap id) c'
  buckets : List.Forall₂ (InBucket c) requests blocks

theorem acquireHostBlocks_safe (h : c.HostAccounted refs) (requests) :
    Safe (c.acquireHostBlocks requests) fun out => HostAllocated refs c requests out.1 out.2 := by
  refine (acquireFreeHostBlocks_safe requests h).bind ?_
  rintro ⟨blocks, c1⟩ ⟨ht, hg, hc⟩
  obtain ⟨p, hp, hac⟩ := ht.accounted
  dsimp only at hp hc ht ⊢
  rw [hp]
  dsimp only
  split
  · exact .pure ⟨ht, hc⟩
  · have hl : requests.length = blocks.length := hc.length_eq
    refine (refillHostBlocks_safe (requests.zip blocks) ⟨p, hp, hac⟩ (fun x hx => ?_)
      (hostVictimParents_known hac requests blocks)).bind ?_
    · have hb := forall₂_iff_zip.mp hc
      refine ⟨?_, InBucket.congr (fun g => (ht.shard g).symm) (hb.2 hx)⟩
      rw [ht.config.groups_eq]
      exact hg x.1 (of_mem_zip hx).1
    · rintro ⟨blocks', s⟩ ⟨taken, ht', hm, hc'⟩
      rw [map_snd_zip (by omega)] at hm
      rw [map_fst_zip (by omega)] at hc'
      exact .pure ⟨(ht.trans ht').perm hm, hc'.imp fun _ _ hb => InBucket.congr ht.shard hb⟩

end CacheCoordinator

end TokenSpeed

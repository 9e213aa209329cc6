import TokenSpeed.Coordinator.Image
import TokenSpeed.Logic.Ensures

/-!
# The groups of the caches never change

Every operation returns the groups as it found them, whatever state it was called in.
-/

namespace TokenSpeed.CacheCoordinator

open GroupAllocator

variable {gs : List CacheGroupSpec} {c c' : CacheCoordinator} {t : Txn}

/-- What every operation on a transaction keeps. -/
abbrev KeepsGroups (gs : List CacheGroupSpec) (t : Txn) : Prop := t.coord.groups = gs

theorem foldlM_txn_groups {α : Type} {f : Txn → α → Result Txn}
    (hf : ∀ a t, KeepsGroups gs t → Ensures (f t a) (KeepsGroups gs)) (l : List α)
    (h : KeepsGroups gs t) : Ensures (l.foldlM f t) (KeepsGroups gs) :=
  .foldlM_keep _ h fun a _ t h => hf a t h

/-! ## Eviction -/

theorem pruneTailIfUnreferenced_groups (hash) (h : c.groups = gs) :
    Ensures (c.pruneTailIfUnreferenced hash) fun c' => c'.groups = gs := by
  unfold pruneTailIfUnreferenced
  split
  · exact .pure h
  · exact .skip fun _ _ => .ite (fun _ => .pure h) fun _ => .pure h

theorem evictEntry_groups (i l) (h : c.groups = gs) :
    Ensures (c.evictEntry i l) fun x => ∀ y, x = some y → y.2.groups = gs := by
  refine .skip fun x _ => ?_
  cases x with
  | none => exact .pure nofun
  | some y =>
    refine .pure ?_
    rintro z ⟨⟩
    exact h

theorem evictKeyAlone_groups (key) (h : c.groups = gs) : Ensures (c.evictKeyAlone key) fun c' => c'.groups = gs := by
  unfold evictKeyAlone
  split
  · exact .pure h
  · refine (evictEntry_groups _ _ h).bind fun x hx => ?_
    cases x with
    | none => exact .pure h
    | some y => exact pruneTailIfUnreferenced_groups _ (hx y rfl)

theorem evictTailEntries_groups (hash tt) (h : c.groups = gs) :
    Ensures (c.evictTailEntries hash tt) fun c' => c'.groups = gs :=
  .skip fun _ _ => .foldlM_keep _ h fun key _ _ h => evictKeyAlone_groups key h

theorem evictDependents_groups (i hash) (h : c.groups = gs) :
    Ensures (c.evictDependents i hash) fun c' => c'.groups = gs := by
  unfold evictDependents
  split
  · exact evictTailEntries_groups hash _ h
  · refine .ite (fun _ => .pure h) fun _ => ?_
    exact .foldlM_keep _ h fun key _ _ h => evictKeyAlone_groups key h

theorem evictCachedBlock_groups (i l) (h : c.groups = gs) :
    Ensures (c.evictCachedBlock i l) fun x => x.2.groups = gs := by
  refine (evictEntry_groups i l h).bind fun x hx => ?_
  cases x with
  | none => exact .pure h
  | some y =>
    refine (evictDependents_groups i _ (hx y rfl)).bind fun c1 h1 => ?_
    exact (pruneTailIfUnreferenced_groups _ h1).bind fun _ h2 => .pure h2

/-! ## Publication -/

theorem registerBlock_groups (i block key epoch index kind streams) (h : c.groups = gs) :
    Ensures (c.registerBlock i block key epoch index kind streams) fun x => x.2.groups = gs := by
  refine .skip fun _ _ => .ite (fun _ => .pure ?_) fun _ => .pure h
  split <;> exact h

theorem cacheBlocksForGroup_groups (i kind epoch streams) :
    ∀ {c} logical written,
      c.groups = gs → Ensures (cacheBlocksForGroup i kind epoch streams c logical written) fun x => x.2.groups = gs
  | _, _, [], h => .pure h
  | c, logical, (none, _) :: rest, h => by
    exact (cacheBlocksForGroup_groups i kind epoch streams (logical + 1) rest h).bind fun _ h => .pure h
  | c, logical, (some block, key) :: rest, h => by
    refine (registerBlock_groups i block key epoch logical kind streams h).bind fun x hx => ?_
    exact (cacheBlocksForGroup_groups i kind epoch streams (logical + 1) rest hx).bind fun _ h => .pure h

theorem cacheFullBlocksForGroup_groups (i table range epoch streams) (h : c.groups = gs) :
    Ensures (c.cacheFullBlocksForGroup i table range epoch streams) fun x => x.2.groups = gs := by
  refine .ite (fun _ => .pure h) fun _ => .skip fun _ _ => ?_
  exact (cacheBlocksForGroup_groups i _ epoch _ _ _ h).bind fun _ h => .pure h

theorem cacheFullBlocks_groups (holding hashes epoch firstSlot kind) (h : c.groups = gs) :
    Ensures (c.cacheFullBlocks holding hashes epoch firstSlot kind) fun x => x.2.groups = gs := by
  refine .ite (fun _ => .pure h) fun _ => ?_
  refine .foldlM_keep (fun s : Holding × CacheCoordinator => s.2.groups = gs) h fun i _ s h => ?_
  refine .ite (fun _ => .pure h) fun _ => ?_
  exact (cacheFullBlocksForGroup_groups i _ _ epoch false h).bind fun _ h => .pure h

theorem cacheStateCheckpoint_groups (i completed checkpoint epoch) (h : c.groups = gs) :
    Ensures (c.cacheStateCheckpoint i completed checkpoint epoch) fun x => x.2.groups = gs := by
  unfold cacheStateCheckpoint
  split
  · refine .ite (fun _ => .skip fun _ _ => ?_) fun _ => .pure h
    exact (registerBlock_groups i _ _ epoch 1 _ _ h).bind fun _ h => .pure h
  · exact .pure h

theorem publishGroup_groups (completed epoch) {s} (i)
    (h : s.2.groups = gs) : Ensures (publishGroup completed epoch s i) fun s' => s'.2.groups = gs := by
  refine .bind ?_ fun _ h => .pure h
  refine .skip fun ranges _ => ?_
  refine (Ensures.foldlM_keep (fun s : BlockTable × CacheCoordinator => s.2.groups = gs) h
    fun range _ s h => cacheFullBlocksForGroup_groups i s.1 range epoch _ h).bind fun s h => ?_
  exact (cacheStateCheckpoint_groups i completed _ epoch h).bind fun _ h => ensures_pure.mpr h

theorem recordPublishedTail_groups (completed) (h : c.groups = gs) :
    Ensures (c.recordPublishedTail completed) fun c' => c'.groups = gs := by
  unfold recordPublishedTail
  split
  · exact .pure h
  · refine .skip fun _ _ => .skip fun _ _ => ?_
    dsimp only
    split
    · exact .pure h
    · exact evictTailEntries_groups _ _ h

/-! ## Opening the tables -/

theorem touchTail_groups (tr) : (touchTail tr c).groups = c.groups := by
  unfold touchTail
  split
  · rfl
  · split <;> rfl

theorem acquirePrefix_groups (probe epoch) (h : KeepsGroups gs t) :
    Ensures (acquirePrefix probe epoch t) (KeepsGroups gs) := by
  have hd : ∀ i t, KeepsGroups gs t →
      Ensures (acquireDeviceGroup probe epoch t i) (KeepsGroups gs) := fun _ _ h =>
    .skip fun _ _ => .pure h
  have hh : ∀ i t, KeepsGroups gs t →
      Ensures (acquireHostGroup probe epoch t i) (KeepsGroups gs) := by
    intro i t h
    unfold acquireHostGroup
    split
    · exact .pure h
    · exact .skip fun _ _ => .pure h
  have hn : ∀ {t}, KeepsGroups gs t →
      Ensures (acquirePromptEnd probe epoch t) (KeepsGroups gs) := by
    intro t h
    unfold acquirePromptEnd
    split
    · exact .pure h
    · refine foldlM_txn_groups (fun i t h => ?_) _ h
      exact .ite (fun _ => .pure h) fun _ => .skip fun _ _ => .pure h
  refine (foldlM_txn_groups hd _ ?_).bind fun _ h => (foldlM_txn_groups hh _ h).bind fun _ h =>
    (hn h).bind fun _ h => .pure h
  exact ((touchTail_groups _).trans (touchTail_groups _)).trans h

theorem openTables_groups (probe) (demands : Nat → GroupDemand) (epoch)
    (h : KeepsGroups gs t) : Ensures (openTables probe demands epoch t) (KeepsGroups gs) := by
  refine (acquirePrefix_groups probe epoch h).bind fun _ h => ?_
  refine (foldlM_txn_groups (t := reportHit probe epoch _) (fun i t h => ?_) _ h).bind fun _ h =>
    foldlM_txn_groups (fun i t h => ?_) _ h
  · exact .ite (fun _ => .pure h) fun _ => .skip fun _ _ => .pure h
  · refine .ite (fun _ => .pure h) fun _ => ?_
    split
    iterate 2 exact .skip fun _ _ => .skip fun _ _ => .pure h
    exact .pure h

/-! ## Making room -/

theorem evictVictims_groups : ∀ vcs {t}, KeepsGroups gs t → Ensures (evictVictims t vcs) fun x => x.2.coord.groups = gs
  | [], _, h => .pure h
  | v :: rs, t, h => by
    refine (evictCachedBlock_groups v.1 v.2 h).bind fun x hx => ?_
    exact (evictVictims_groups rs hx).bind fun _ h => .pure h

theorem evictProspective_groups (ms v) (h : KeepsGroups gs t) : Ensures (evictProspective ms t v) (KeepsGroups gs) := by
  refine (evictCachedBlock_groups v.1 v.2 h).bind fun x hx => ?_
  dsimp only
  split
  · exact .skip fun _ _ => .pure hx
  · exact .pure hx

section

variable (demands : Nat → GroupDemand) (pr : RequestProgress)

theorem releaseGroup_groups (i) (h : KeepsGroups gs t) : Ensures (releaseGroup demands pr t i) (KeepsGroups gs) := by
  unfold releaseGroup
  split
  · refine .ite (fun _ => .pure h) fun _ => ?_
    split
    · exact .ite (fun _ => .pure h) fun _ => .skip fun _ _ => .pure h
    · exact .skip fun _ _ => .pure h
    · exact .pure h
  · split
    · exact .pure h
    · exact .skip fun _ _ => .pure h

theorem settleGroup_groups (epoch i) (h : KeepsGroups gs t) :
    Ensures (settleGroup demands pr epoch t i) (KeepsGroups gs) := by
  refine .bind ?_ fun _ h => releaseGroup_groups demands pr i h
  unfold publishInto
  split
  · exact .pure h
  · exact (publishGroup_groups _ epoch i h).bind fun _ h => .pure h

theorem makeRoom_groups (vcs epoch) (h : KeepsGroups gs t) :
    Ensures (makeRoom demands pr vcs epoch t) (KeepsGroups gs) := by
  refine (evictVictims_groups vcs h).bind fun x h => ?_
  refine (foldlM_txn_groups (fun i _ => settleGroup_groups demands pr epoch i) _ h).bind fun t2 h => ?_
  refine .bind ?_ fun _ h =>
    foldlM_txn_groups (fun v _ => evictProspective_groups _ v) x.1 h
  unfold recordInto
  split
  · exact .pure h
  · exact (recordPublishedTail_groups _ h).bind fun _ h => .pure h

end

/-! ## Filling the tables -/

theorem privatizeSlot_groups (i avt sl) (h : KeepsGroups gs t) :
    Ensures (privatizeSlot i avt t sl) (KeepsGroups gs) := by
  refine .skip fun _ _ => .skip fun _ _ => ?_
  split
  · exact .pure h
  · exact .skip fun _ _ => .skip fun _ _ => .pure h

theorem copyIn_groups (pr i) (h : KeepsGroups gs t) : Ensures (copyIn pr t i) (KeepsGroups gs) := by
  unfold copyIn
  split
  · refine .ite (fun _ => .pure h) fun _ => foldlM_txn_groups (fun sl t h => ?_) _ h
    unfold privatizeCached
    split
    · exact .ite (fun _ => privatizeSlot_groups i _ sl h) fun _ => .pure h
    · exact .pure h
  · exact .pure h

theorem copyTail_groups (dtt i) (h : KeepsGroups gs t) : Ensures (copyTail dtt t i) (KeepsGroups gs) := by
  refine .ite (fun _ => .pure h) fun _ => .skip fun _ _ => ?_
  exact foldlM_txn_groups (fun sl _ => privatizeSlot_groups i _ sl) _ h

theorem loadStateInput_groups (i host) (h : KeepsGroups gs t) : Ensures (loadStateInput i t host) (KeepsGroups gs) := by
  refine .skip fun _ _ => .skip fun ⟨fr, pl⟩ _ => ?_
  dsimp only
  split
  · exact .skip fun _ _ => .skip fun _ _ => .pure h
  · exact ensures_error

theorem acquireZeroState_groups (i) (h : KeepsGroups gs t) : Ensures (acquireZeroState t i) (KeepsGroups gs) := by
  refine .skip fun x _ => ?_
  cases x with
  | none => exact ensures_error
  | some y => exact .skip fun _ _ => .pure h

theorem acquireLive_groups (kind i) (h : KeepsGroups gs t) : Ensures (acquireLive kind t i) (KeepsGroups gs) := by
  refine .skip fun x _ => ?_
  cases x with
  | none => exact ensures_error
  | some y =>
    refine .skip fun _ _ => .ite (fun _ => ?_) fun _ => .pure h
    split
    · exact ensures_error
    · exact .skip fun _ _ => .pure h

theorem acquireCheckpoint_groups (kind i) (h : KeepsGroups gs t) :
    Ensures (acquireCheckpoint kind t i) (KeepsGroups gs) := by
  refine .skip fun _ _ => .skip fun x _ => ?_
  cases x with
  | none => exact ensures_error
  | some y => exact .skip fun _ _ => .pure h

theorem acquireStateGroup_groups (kind checkpoint i)
    (h : KeepsGroups gs t) : Ensures (acquireStateGroup kind checkpoint t i) (KeepsGroups gs) := by
  refine .ite (fun _ => .pure h) fun _ => ?_
  refine (foldlM_txn_groups (fun host _ => loadStateInput_groups i host) _ h).bind fun t1 h1 => ?_
  refine .bind (Q := KeepsGroups gs) ?_ fun t2 h2 =>
    .bind (Q := KeepsGroups gs) ?_ fun t3 h3 => ?_
  · exact .ite (fun _ => acquireZeroState_groups i h1) fun _ => .pure h1
  · exact .ite (fun _ => acquireLive_groups kind i h2) fun _ => .pure h2
  · exact .ite (fun _ => acquireCheckpoint_groups kind i h3) fun _ => .pure h3

theorem extendFromHost_groups (hostTailTokens i) (h : KeepsGroups gs t) :
    Ensures (extendFromHost hostTailTokens t i) (KeepsGroups gs) := by
  exact .ite (fun _ => .pure h) fun _ => .skip fun _ _ => .pure h

theorem growGroup_groups (ms) (demands : Nat → GroupDemand) (i) (h : KeepsGroups gs t) :
    Ensures (growGroup ms demands t i) (KeepsGroups gs) := by
  refine .skip fun pl _ => .skip fun x _ => ?_
  cases x with
  | none => exact ensures_error
  | some y =>
    refine foldlM_txn_groups (fun l t h => ?_) _ h
    exact .skip fun _ _ => .pure h

theorem acquireGroup_groups (demands : Nat → GroupDemand) (pr)
    (dtt hostTailTokens i) (h : KeepsGroups gs t) :
    Ensures (acquireGroup demands pr dtt hostTailTokens t i) (KeepsGroups gs) := by
  refine (copyIn_groups pr i h).bind fun _ h => (copyTail_groups dtt i h).bind fun _ h => ?_
  split
  · exact acquireStateGroup_groups _ _ i h
  · exact (extendFromHost_groups hostTailTokens i h).bind fun _ h => growGroup_groups _ demands i h

theorem dropAcquired_groups (i) (h : KeepsGroups gs t) : Ensures (dropAcquired t i) (KeepsGroups gs) :=
  .skip fun _ _ => .skip fun _ _ => .pure h

theorem admit_groups (probe) (demands : Nat → GroupDemand) (holding)
    (pr) (re) :
    Ensures (c.admitProbe probe demands holding pr re) fun x =>
      ∀ t, x = some t → t.coord.groups = c.groups := by
  refine .skip fun _ _ => .skip fun _ _ => .skip fun _ _ => .skip fun pl _ => ?_
  cases pl with
  | none => exact .pure nofun
  | some pl =>
    have hp : Ensures (c.admissionEpoch re) fun x => x.2.groups = c.groups := by
      unfold admissionEpoch
      split
      · exact .skip fun _ _ => .pure rfl
      · exact .pure rfl
    refine hp.bind fun x hx => .bind (Q := fun t => t.coord.groups = c.groups) ?_ ?_
    · refine (openTables_groups _ _ _ hx).bind fun _ h => (makeRoom_groups _ _ _ _ h).bind fun _ h => ?_
      refine (foldlM_txn_groups (fun i _ => acquireGroup_groups _ _ _ _ i) _ h).bind fun _ h => ?_
      exact foldlM_txn_groups (fun i _ => dropAcquired_groups i) _ h
    · rintro t ht
      refine .pure ?_
      rintro t' ⟨⟩
      exact ht

end TokenSpeed.CacheCoordinator

import TokenSpeed.Logic.Updates
import TokenSpeed.Scheduler.Lemmas.Runs
import TokenSpeed.Tier.Lemmas.Storage

/-!
# Rows are conserved

No move of the life cycle makes or loses a request-pool row. A restore in flight owns the row its request
resumes in, and has an operation id of its own.
-/

namespace TokenSpeed

open List

/-! ## Transfers in flight -/

theorem perm_eraseOp {α : Type} {l : List (Nat × α)} {op t} (hn : (l.map (·.1)).Nodup) (hf : findOp l op = some t) :
    l.Perm ((op, t) :: eraseOp l op) := by
  obtain ⟨⟨op', _⟩, hx, rfl⟩ := Option.map_eq_some_iff.mp hf
  obtain rfl : op' = op := by simpa using find?_some hx
  exact (perm_cons_filter hn (mem_of_find?_eq_some hx)).1

namespace TierTransferManager

variable (m : TierTransferManager)

def rowsOut : List Nat := m.snapshotRestores.map (·.2.requestPoolIndex)

/-- The restores in flight have ids of their own, handed out already. -/
def OpsOk : Prop := (m.snapshotRestores.map (·.1)).Nodup ∧ ∀ op ∈ m.snapshotRestores.map (·.1), op < m.nextOpId

variable {m} {m' : TierTransferManager} (h : m.OpsOk)
include h

theorem OpsOk.sublist (hs : m'.snapshotRestores.Sublist m.snapshotRestores) (hn : m.nextOpId ≤ m'.nextOpId) :
    m'.OpsOk :=
  ⟨h.1.sublist (hs.map _), fun op ho => (h.2 op ((hs.map _).subset ho)).trans_le hn⟩

theorem OpsOk.restores {ticket} : (m.addSnapshotRestore ticket).OpsOk := by
  unfold OpsOk addSnapshotRestore
  rw [map_append]
  exact nodup_handed h.1 h.2

theorem OpsOk.landed {op t} (hf : findOp m.snapshotRestores op = some t)
    (hm : m' = { m with snapshotRestores := eraseOp m.snapshotRestores op }) :
    m'.OpsOk ∧ m.rowsOut.Perm (t.requestPoolIndex :: m'.rowsOut) := by
  subst hm
  exact ⟨h.sublist filter_sublist (Nat.le_refl _), (perm_eraseOp h.1 hf).map _⟩

end TierTransferManager

/-! ## The rows -/

namespace RequestState

variable {a b : RequestState}

theorem row?_waiting (h : a.admission?.isSome) : a.row? = none ∧ a.kind.owns = false := by
  cases a with
  | bootstrapping | submitted | prefetching => exact ⟨rfl, rfl⟩
  | _ => cases h

theorem row?_local (h : Local a b) : b.row? = a.row? ∧ b.kind.owns = a.kind.owns := by
  cases h with
  | refl => exact ⟨rfl, rfl⟩
  | waiting ha hb =>
    obtain ⟨hr, hk⟩ := row?_waiting hb
    exact ⟨hr.trans (row?_waiting ha).1.symm, hk.trans (row?_waiting ha).2.symm⟩
  | paged ha hb hr _ hk =>
    obtain ⟨hoa, hob⟩ := hk.owns
    exact ⟨by rw [row?_held ha, row?_held hb, hr], hob.trans hoa.symm⟩

end RequestState

namespace Core

variable (c : Core)

/-- The rows of the requests and of the restores in flight. -/
def rowHolders : List Nat := c.requests.filterMap (·.state.row?) ++ c.transfers.rowsOut

structure Kept : Prop where
  ids : c.IdsNodup
  ops : c.transfers.OpsOk
  owned : ∀ r ∈ c.requests, r.state.row?.isSome = r.state.kind.owns
  rows : (c.rows.freeSlots ++ c.rowHolders).Perm (range' 1 c.rows.size)

theorem returnRow_eq (row) : c.returnRow row = { c with rows.freeSlots := c.rows.freeSlots ++ row.toList } := by
  cases row <;> simp [returnRow, ReqPoolAllocator.deallocate]

variable {c} {free : List Nat} {blobs m} {r r' : Request} (h : c.Kept) (hf : c.find r.id = some r) (hd : r'.id = r.id)
include h hf hd

/-- One request changes, and with it the free rows and those of the restores. -/
theorem Kept.set (ho : m.OpsOk) (hu : r'.state.row?.isSome = r'.state.kind.owns)
    (hr : (free ++ m.rowsOut ++ r'.state.row?.toList).Perm
      (c.rows.freeSlots ++ c.transfers.rowsOut ++ r.state.row?.toList)) :
    (setRequest { c with rows.freeSlots := free, blobs := blobs, transfers := m } r').Kept := by
  obtain ⟨hp, hs⟩ := perm_cons_filter h.ids (mem_of_find?_eq_some hf)
  have hs := hs r'
  rw [← hd] at hp hs
  refine ⟨?_, ho, fun x hx => ?_, perm_iff_count.mpr fun x => ?_⟩
  · rw [IdsNodup, setRequest_ids]
    exact h.ids
  · rcases mem_cons.mp (hs.subset hx) with rfl | hx
    · exact hu
    · exact h.owned x (mem_of_mem_filter hx)
  · have := h.rows.count_eq x
    have := hr.count_eq x
    have := (hp.filterMap (·.state.row?)).count_eq x
    have := (hs.filterMap (·.state.row?)).count_eq x
    simp only [setRequest, rowHolders, count_append, filterMap_cons] at *
    generalize r.state.row? = o at *
    generalize r'.state.row? = o' at *
    cases o <;> cases o' <;> simp [count_cons] at * <;> omega

theorem Kept.stay (hg : r'.state.row? = r.state.row?) (hk : r'.state.kind.owns = r.state.kind.owns) :
    (c.setRequest r').Kept := by
  refine h.set hf hd h.ops ?_ (.of_eq (by rw [hg]))
  rw [hg, hk]
  exact h.owned r (mem_of_find?_eq_some hf)

end Core

section

variable {may : May} {c c' : Core} {out : List Forward}

/-- No two requests own one row. -/
theorem Core.Kept.eq_of_row (h : c.Kept) {r r' : Request} {row} (hr : r ∈ c.requests) (hr' : r' ∈ c.requests)
    (hw : r.state.row? = some row) (hw' : r'.state.row? = some row) : r = r' := by
  have hn : (c.requests.filterMap (·.state.row?)).Nodup :=
    ((h.rows.nodup_iff.mpr nodup_range').of_append_right).of_append_left
  have : Std.Symm fun r r' : Request =>
      ∀ row, r.state.row? = some row → ∀ row', r'.state.row? = some row' → row ≠ row' :=
    ⟨fun _ _ hd b hb b' hb' => (hd b' hb' b hb).symm⟩
  by_contra hne
  exact (pairwise_filterMap.mp hn).forall hr hr' hne row hw row hw' rfl

open TierTransferManager RequestState in
theorem Move.kept (h : Move may c out c') (hk : c.Kept) : c'.Kept := by
  have hi := h.idsNodup hk.ids
  cases h with
  | keep hf hd hs =>
    obtain ⟨hr, hq⟩ := row?_local hs
    exact hk.stay hf hd hr hq
  | track hf hh | report hf hh =>
    refine hk.stay hf rfl ?_ ?_
    · exact (row?_held (resources?_withResources _ hh)).trans (row?_held hh).symm
    · exact congrArg StateKind.owns (kind_withResources ..)
  | note hf hd hs hs' => exact hk.stay hf hd (by rw [hs, hs']; rfl) (by rw [hs, hs']; rfl)
  | @enter r r' held row rest hf hd hki hro hh how _ hk' =>
    have hr : r.state.row? = none := by
      cases hs : r.state <;> rw [hs] at hki <;> first | rfl | cases hki
    refine hk.set hf hd hk.ops ?_ ?_
    · rw [row?_held hh, how, StateKind.owns_of_entered hk']
      rfl
    rw [hr, row?_held hh, how, hro]
    simpa using perm_append_singleton row (rest ++ _)
  | @leave r r' hf hd hs _ =>
    have hr' : r'.state.row? = none := by rw [hs]; rfl
    rw [Core.returnRow_eq]
    cases r.state.blob?
    all_goals
      refine hk.set hf hd hk.ops (by rw [hr', hs]; rfl) ?_
      simpa [hr', Core.releaseBlob] using perm_append_comm.append_left _
  | @retract r r' held retracted b rest ds hf hd _ hh _ _ hs _ _ _ =>
    have hr' : r'.state.row? = none := by rw [hs]; rfl
    rw [Core.returnRow_eq]
    refine hk.set hf hd (hk.ops.sublist (.refl _) (Nat.le_succ _)) (by rw [hr', hs]; rfl) ?_
    simpa [hr', row?_held hh, rowsOut, addSnapshotStore] using perm_append_comm.append_left _
  | @restore r r' retracted restoring row rest ls ss hf hd hs _ hro hs' _ _ _ how _ =>
    have hr : r.state.row? = none := by rw [hs]; rfl
    have hr' : r'.state.row? = none := by rw [hs']; exact how
    refine hk.set hf hd hk.ops.restores (by rw [hr', hs']; rfl) ?_
    simpa [hr, hr', hro, rowsOut, addSnapshotRestore] using perm_append_singleton row (rest ++ _)
  | @resume r r' restoring t held hf hd hs hfo _ hh how _ hki =>
    obtain ⟨ho, hp⟩ := hk.ops.landed hfo rfl
    have hr : r.state.row? = none := by
      have := hk.owned r (mem_of_find?_eq_some hf)
      rw [hs] at this ⊢
      simpa [kind, StateKind.owns] using this
    refine hk.set hf hd ho ?_ ?_
    · rw [row?_held hh, how]
      rw [hs] at hki
      cases hsh : restoring.shape <;> simp [resumesAs?, hsh, ResumeShape.kind] at hki <;> rw [← hki] <;> rfl
    · rw [row?_held hh, how, hr]
      simpa [Core.releaseBlob] using ((perm_append_singleton ..).trans hp.symm).append_left _
  | spin => exact { hk with }
  | @abandon op t hfo _ =>
    obtain ⟨ho, hp⟩ := hk.ops.landed hfo rfl
    refine { hk with ops := ho, rows := .trans (perm_iff_count.mpr fun x => ?_) hk.rows }
    have := hp.count_eq x
    simp [Core.rowHolders, Core.returnRow, Core.releaseBlob, ReqPoolAllocator.deallocate, count_cons] at *
    omega
  | stored | writtenBack | loaded => exact { hk with ops := hk.ops.sublist (.refl _) (Nat.le_refl _) }
  | store | load => exact { hk with ops := hk.ops.sublist (.refl _) (Nat.le_succ _) }
  | submit _ _ hs =>
    obtain ⟨hr, hq⟩ := row?_waiting hs
    refine { hk with ids := hi, owned := forall_mem_append.mpr ⟨hk.owned, fun x hx => ?_⟩, rows := ?_ }
    · rw [mem_singleton.mp hx, hr, hq]
      rfl
    · simpa [Core.rowHolders, filterMap_append, hr] using hk.rows
  | erase =>
    refine { hk with ids := hi, owned := fun r hr => hk.owned r (mem_of_mem_filter hr), rows := ?_ }
    have hf : (c.requests.filter fun r => !r.is .finished).filterMap (·.state.row?) =
      c.requests.filterMap (·.state.row?) := by
      rw [filterMap_filter]
      refine filterMap_congr fun r _ => ?_
      cases hs : r.state <;> simp [Request.is, hs, kind, row?, resources?]
    simpa only [Core.rowHolders, hf] using hk.rows

theorem Moves.kept (h : Moves may c out c') (hk : c.Kept) : c'.Kept := by
  induction h with
  | refl => exact hk
  | tail _ hm ih => exact hm.kept ih

end

namespace Scheduler

theorem Reachable.kept {s : Scheduler} (h : Reachable s) : s.core.Kept := by
  obtain ⟨s₀, hr⟩ := h.reached
  obtain ⟨out, hm⟩ := hr.moved
  refine hm.kept ?_
  obtain ⟨config, sha256, tokens, rfl⟩ := hr.initial.made
  exact ⟨nodup_nil, by simp [TierTransferManager.OpsOk, core, ofConfig], by simp [core, ofConfig],
    .of_eq (append_nil _)⟩

end Scheduler

end TokenSpeed

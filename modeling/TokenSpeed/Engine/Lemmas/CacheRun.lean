import TokenSpeed.Engine.CacheRun

/-!
# What the acknowledgments of a run come to
-/

namespace TokenSpeed.Engine

open CacheOps List

namespace CacheOps

variable {ops held : CacheOps} {polled : List CacheEvent}

theorem mem_join (e : CacheEvent) : ∀ (polled pn : List CacheEvent),
    e ∈ polled.foldl (fun pn ev => if ev ∈ pn then pn else pn ++ [ev]) pn ↔
      e ∈ pn ∨ e ∈ polled
  | [], pn => by simp
  | first :: polled, pn => by
    simp only [foldl_cons, mem_join e polled, mem_cons]
    split
    · next hm =>
      constructor
      · rintro (h | h)
        · exact .inl h
        · exact .inr (.inr h)
      · rintro (h | rfl | h)
        · exact .inl h
        · exact .inl hm
        · exact .inr h
    · simp [or_assoc]

theorem nodup_join : ∀ (polled : List CacheEvent) {pn : List CacheEvent}, pn.Nodup →
    (polled.foldl (fun pn ev => if ev ∈ pn then pn else pn ++ [ev]) pn).Nodup
  | [], _, h => h
  | first :: polled, pn, h => by
    rw [foldl_cons]
    refine nodup_join polled ?_
    split
    · exact h
    · next hm =>
      refine nodup_append.mpr ⟨h, by simp, ?_⟩
      rintro a ha b hb rfl
      rw [mem_singleton.mp hb] at ha
      exact hm ha

theorem hold_isSome : (ops.hold polled).isSome = true ↔ polled.length ≤ ops.inFlight := by
  unfold hold
  split
  · simp; omega
  · simp; omega

theorem hold_ok (h : ops.hold polled = some held) : held.opened = ops.opened ∧
    held.inFlight = ops.inFlight - polled.length ∧ (ops.pending.Nodup → held.pending.Nodup) ∧
      ∀ e, e ∈ held.pending ↔ e ∈ ops.pending ∨ e ∈ polled := by
  unfold hold at h
  split at h
  · cases h
  · cases h
    exact ⟨rfl, rfl, nodup_join polled, fun e => mem_join e polled _⟩

/-- What the first member returns. -/
def agreed (n : Nat) (members : Fin (n + 1) → CacheOps) : List CacheEvent :=
  (settled n members ⟨0, n.succ_pos⟩).1

/-- It is what every member returns. -/
theorem settled_eq : ∀ (n : Nat) (members : Fin (n + 1) → CacheOps) (i),
    settled n members i = (agreed n members, (members i).acknowledge (agreed n members))
  | 0, members, i => by rw [Fin.fin_one_eq_zero i]; rfl
  | _ + 1, _, i => settleAll_eq i

theorem mem_agreed : ∀ (n : Nat) (members : Fin (n + 1) → CacheOps) (e : CacheEvent),
    e ∈ agreed n members ↔ ∀ i, e ∈ (members i).pending
  | 0, members, e => by simp [agreed, settled, Fin.forall_fin_one]
  | n + 1, members, e => by
    simp only [agreed, settled, settleAll, settle]
    split
    · simp only [common, mem_mergeSort, mem_filter, decide_eq_true_eq]
      exact ⟨fun h => h.2, fun h => ⟨h 0, h⟩⟩
    · next hn =>
      have hp : (members 0).pending = [] := by
        by_contra hp
        exact hn (decide_eq_true ⟨0, by simp [hasWork, hp]⟩)
      exact ⟨by simp, fun h => absurd (h 0) (by simp [hp])⟩

theorem nodup_agreed : ∀ (n : Nat) (members : Fin (n + 1) → CacheOps), (members 0).pending.Nodup →
    (agreed n members).Nodup
  | 0, _, h => h
  | n + 1, members, h => by
    simp only [agreed, settled, settleAll, settle]
    split
    · exact (mergeSort_perm _ _).nodup_iff.mpr (h.filter _)
    · exact nodup_nil

end CacheOps

namespace CacheRun

variable {n : Nat} {h h' : CacheRun n}

structure Kept (h : CacheRun n) : Prop where
  dispatched : h.dispatched.Nodup
  polled : ∀ i, (h.polled i).Nodup ∧ h.polled i ⊆ h.dispatched
  same : ∀ i, h.returned i = h.returned 0
  returned : (h.returned 0).Nodup
  agreed : ∀ e, e ∈ h.returned 0 ↔ ∀ i, e ∈ h.polled i
  opened : ∀ i, (h.members i).opened + (h.returned 0).length = h.dispatched.length
  inFlight : ∀ i, (h.members i).inFlight + (h.polled i).length = h.dispatched.length
  pending : ∀ i, (h.members i).pending.Nodup ∧ ∀ e, e ∈ (h.members i).pending ↔ e ∈ h.polled i ∧ e ∉ h.returned 0

theorem acknowledged_eq {polled held} : h.acknowledged polled held = (fun _ => CacheOps.agreed n held, { h with
    members := fun i => (held i).acknowledge (CacheOps.agreed n held)
    polled := fun i => h.polled i ++ polled i
    returned := fun i => h.returned i ++ CacheOps.agreed n held }) := by
  simp only [CacheRun.acknowledged, settled_eq]

theorem kept_start : (({} : CacheRun n)).Kept where
  dispatched := nodup_nil
  polled := fun _ => ⟨nodup_nil, by simp⟩
  same := fun _ => rfl
  returned := nodup_nil
  agreed := by simp
  opened := fun _ => rfl
  inFlight := fun _ => rfl
  pending := fun _ => ⟨nodup_nil, by simp⟩

theorem Kept.dispatch (hk : h.Kept) {ops : List CacheEvent} (hs : (h.dispatched ++ ops).Nodup) :
    Kept { h with members := fun i => (h.members i).dispatched ops.length, dispatched := h.dispatched ++ ops } where
  dispatched := hs
  polled := fun i => ⟨(hk.polled i).1, fun _ he => mem_append_left _ ((hk.polled i).2 he)⟩
  same := hk.same
  returned := hk.returned
  agreed := hk.agreed
  opened := fun i => by
    have := hk.opened i
    simp only [CacheOps.dispatched, length_append]
    omega
  inFlight := fun i => by
    have := hk.inFlight i
    simp only [CacheOps.dispatched, length_append]
    omega
  pending := hk.pending

theorem Kept.room (hk : h.Kept) {polled : Fin (n + 1) → List CacheEvent} (hon : h.Once (.round polled)) (i) :
    (polled i).length ≤ (h.members i).inFlight := by
  obtain ⟨hn, hs⟩ := hon i
  have hl := (subperm_of_subset hn (append_subset.mpr ⟨(hk.polled i).2, hs⟩)).length_le
  have := hk.inFlight i
  rw [length_append] at hl
  omega

variable {polled : Fin (n + 1) → List CacheEvent} {held : Fin (n + 1) → CacheOps}

section

variable (hk : h.Kept)
include hk

section

variable (hon : h.Once (.round polled)) (hh : ∀ i, (h.members i).hold (polled i) = some (held i))
include hon hh

theorem Kept.mem_held (i e) : e ∈ (held i).pending ↔ e ∈ h.polled i ++ polled i ∧ e ∉ h.returned 0 := by
  rw [(hold_ok (hh i)).2.2.2 e, (hk.pending i).2 e, mem_append]
  constructor
  · rintro (⟨he, hn⟩ | he)
    · exact ⟨.inl he, hn⟩
    · refine ⟨.inr he, fun hr => ?_⟩
      -- a returned operation was polled before
      exact disjoint_of_nodup_append (hon i).1 ((hk.agreed e).mp hr i) he
  · rintro ⟨he | he, hn⟩
    · exact .inl ⟨he, hn⟩
    · exact .inr he

theorem Kept.mem_ready (e) : e ∈ CacheOps.agreed n held ↔ (∀ i, e ∈ h.polled i ++ polled i) ∧ e ∉ h.returned 0 := by
  rw [mem_agreed]
  constructor
  · intro hl
    exact ⟨fun i => ((hk.mem_held hon hh i e).mp (hl i)).1, ((hk.mem_held hon hh 0 e).mp (hl 0)).2⟩
  · rintro ⟨hl, hn⟩ i
    exact (hk.mem_held hon hh i e).mpr ⟨hl i, hn⟩

theorem Kept.ready :
    (h.returned 0 ++ CacheOps.agreed n held).Nodup ∧ ∀ i, (CacheOps.agreed n held).length ≤ (h.members i).opened := by
  have hr := nodup_agreed n held ((hold_ok (hh 0)).2.2.1 (hk.pending 0).1)
  have hn : (h.returned 0 ++ CacheOps.agreed n held).Nodup := by
    refine nodup_append.mpr ⟨hk.returned, hr, ?_⟩
    rintro a ha b hb rfl
    exact ((hk.mem_ready hon hh a).mp hb).2 ha
  refine ⟨hn, fun i => ?_⟩
  have hs : h.returned 0 ++ CacheOps.agreed n held ⊆ h.dispatched := by
    refine append_subset.mpr ⟨fun e he => (hk.polled 0).2 ((hk.agreed e).mp he 0), fun e he => ?_⟩
    rcases mem_append.mp (((hk.mem_ready hon hh e).mp he).1 0) with he | he
    · exact (hk.polled 0).2 he
    · exact (hon 0).2 he
  have hl := (subperm_of_subset hn hs).length_le
  have := hk.opened i
  rw [length_append] at hl
  omega

theorem Kept.acknowledged : (h.acknowledged polled held).2.Kept := by
  obtain ⟨hn, hp⟩ := hk.ready hon hh
  rw [acknowledged_eq]
  refine ⟨hk.dispatched, fun i => ⟨(hon i).1, append_subset.mpr ⟨(hk.polled i).2, (hon i).2⟩⟩,
    fun i => congrArg (· ++ _) (hk.same i), hn, fun e => ?_,
    fun i => ?_, fun i => ?_, fun i => ⟨?_, fun e => ?_⟩⟩
  · simp only [mem_append, hk.mem_ready hon hh]
    constructor
    · rintro (he | ⟨he, -⟩) i
      · exact .inl ((hk.agreed e).mp he i)
      · exact he i
    · intro hl
      by_cases he : e ∈ h.returned 0
      · exact .inl he
      · exact .inr ⟨hl, he⟩
  · have h1 := hk.opened i
    have h2 := hp i
    simp only [acknowledge, (hold_ok (hh i)).1, length_append]
    omega
  · have h1 := hk.inFlight i
    have h2 := hk.room hon i
    simp only [CacheOps.acknowledge, (hold_ok (hh i)).2.1, length_append]
    omega
  · exact ((hold_ok (hh i)).2.2.1 (hk.pending i).1).filter _
  · simp only [CacheOps.acknowledge, mem_filter, decide_eq_true_eq, hk.mem_held hon hh,
      mem_append, not_or]
    tauto

end

/-! ## Steps -/

theorem Kept.opened_eq (i j) : (h.members i).opened = (h.members j).opened := by
  have := hk.opened i
  have := hk.opened j
  omega

theorem Kept.round (hon : h.Once (.round polled)) :
    (∀ i, (h.members i).opened = 0) ∧ h.step (.round polled) = some (fun _ => [], h) ∨
      ∃ held, (∀ i, (h.members i).hold (polled i) = some (held i)) ∧
        h.step (.round polled) = some (h.acknowledged polled held) := by
  by_cases hz : ∀ i, (h.members i).opened = 0
  · exact .inl ⟨hz, if_pos hz⟩
  · right
    have hs : ∀ i, ((h.members i).hold (polled i)).isSome := fun i => hold_isSome.mpr (hk.room hon i)
    have hp : ∀ i, 0 < (h.members i).opened := by
      obtain ⟨j, hj⟩ := not_forall.mp hz
      intro i
      rw [hk.opened_eq i j]
      omega
    refine ⟨fun i => ((h.members i).hold (polled i)).get (hs i), fun i => (Option.some_get _).symm, ?_⟩
    simp only [step, if_neg hz, if_pos hp, dif_pos hs]

theorem Kept.step {ev out} (hon : h.Once ev) (hs : h.step ev = some (out, h')) : h'.Kept := by
  cases ev with
  | dispatch ops =>
    cases hs
    exact hk.dispatch hon
  | round polled =>
    rcases hk.round hon with ⟨_, hr⟩ | ⟨held, hh, hr⟩
    · rw [hr] at hs
      cases hs
      exact hk
    · rw [hr] at hs
      cases hs
      exact hk.acknowledged hon hh

end

theorem kept_of_steps (hr : Relation.ReflTransGen Step ({} : CacheRun n) h) : h.Kept := by
  induction hr with
  | refl => exact kept_start
  | tail _ hs ih =>
    obtain ⟨ev, out, hon, hs⟩ := hs
    exact ih.step hon hs

end CacheRun

end TokenSpeed.Engine

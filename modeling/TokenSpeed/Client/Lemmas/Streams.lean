import TokenSpeed.Client.Streams
import Mathlib.Data.List.Nodup
import Mathlib.Logic.Relation
import TokenSpeed.Logic.Updates

/-!
# Streams of one id do not meet

The invariant in three parts: the ledger of tracked requests and their counters; where messages, outputs and aborts are;
and that of the submissions of an id one at most is active.
-/

namespace TokenSpeed.Client.StreamRun

open Function List Option

variable {req : Nat → Request} {h h' : StreamRun} {s t e : Nat}

/-! ## Channels -/

section Channels

variable {α : Type} {f : Nat → List α} {x y : α} {rest : List α}

theorem mem_put (hx : x ∈ update f s (f s ++ [y]) t) : x ∈ f t ∨ t = s ∧ x = y := by
  rcases mem_update_cases hx with ⟨rfl, hx⟩ | ⟨-, hx⟩
  · exact (mem_append.mp hx).imp_right fun hx => ⟨rfl, mem_singleton.mp hx⟩
  · exact .inl hx

theorem subset_put (hx : x ∈ f t) : x ∈ update f s (f s ++ [y]) t := by
  by_cases ht : t = s
  · subst ht
    rw [update_self]
    exact mem_append_left _ hx
  · rw [update_of_ne ht]
    exact hx

theorem mem_pop (hf : f s = y :: rest) (hx : x ∈ update f s rest t) : x ∈ f t := by
  rcases mem_update_cases hx with ⟨rfl, hu⟩ | ⟨-, hx⟩
  · rw [hf]
    exact mem_cons_of_mem _ hu
  · exact hx

end Channels

/-! ## The ledger -/

theorem countP_erase_add {l : List Nat} (hm : s ∈ l) (p : Nat → Bool) :
    l.countP p = (l.erase s).countP p + if p s then 1 else 0 :=
  ((perm_cons_erase hm).countP_eq p).trans countP_cons

theorem countP_update {phase : Nat → CallPhase} {requests : List Nat} {p}
    (hs : s ∈ requests → (p = .registered ↔ phase s = .registered)) (e) :
    requests.countP (fun t => (req t).engine = e ∧ update phase s p t ≠ .registered) =
      requests.countP fun t => (req t).engine = e ∧ phase t ≠ .registered := by
  refine countP_congr fun t ht => ?_
  by_cases hts : t = s
  · subst hts
    simp [hs ht]
  · rw [update_of_ne hts]

structure Ledger (req : Nat → Request) (calls : Nat) (phase : Nat → CallPhase) (items : Nat → List Item)
    (requests : List Nat)
    (inFlight : Nat → Int) (owed : List Nat) (closed : Bool) (drained : List Nat) (shut : Bool) : Prop where
  nodup : requests.Nodup
  isOpen : ∀ s ∈ requests, (phase s).isOpen
  unended : ∀ s ∈ requests, ∀ item ∈ items s, item.terminal = false
  covered : ∀ s, (phase s).isOpen → s ∈ requests ∨ s ∈ drained ∨ ∃ item ∈ items s, item.terminal
  registered : ∀ s, phase s = .registered → s ∈ requests
  fresh : ∀ s, calls ≤ s → phase s = .fresh
  empty : ∀ s, phase s = .fresh ∨ phase s = .calling → items s = [] ∧ s ∉ drained
  afterShut : shut = true → closed = true ∧ requests = [] ∧ ∀ s, phase s ≠ .calling ∧ phase s ≠ .registered
  afterDrain : ∀ s ∈ drained, shut = true
  count : ∀ e, inFlight e = (requests.countP (fun s => (req s).engine = e ∧ phase s ≠ .registered) + owed.count e +
    drained.countP (fun s => (req s).engine = e) : Nat)

section Ledger

variable {calls : Nat} {phase : Nat → CallPhase} {items : Nat → List Item} {requests owed drained : List Nat}
  {inFlight : Nat → Int}
  {closed shut : Bool} (hle : Ledger req calls phase items requests inFlight owed closed drained shut)
include hle

theorem Ledger.lt_calls (hp : phase s ≠ .fresh) : s < calls :=
  Nat.lt_of_not_le fun hl => hp (hle.fresh s hl)

structure Enters (calls : Nat) (items : Nat → List Item) (requests drained : List Nat) (shut : Bool) (s : Nat)
    (p : CallPhase) : Prop where
  called : s < calls
  isOpen : s ∈ requests → p.isOpen ∧ ∀ item ∈ items s, item.terminal = false
  covered : p.isOpen → s ∈ requests ∨ s ∈ drained ∨ ∃ item ∈ items s, item.terminal
  registered : p = .registered → s ∈ requests
  empty : p = .fresh ∨ p = .calling → items s = [] ∧ s ∉ drained
  afterShut : shut = true → s ∉ requests ∧ p ≠ .calling ∧ p ≠ .registered

omit hle in
theorem Enters.ended {p} (hl : s < calls) (hs : s ∉ requests) (hd : p = .done ∨ p = .dropped ∨ p = .failed) :
    Enters calls items requests drained shut s p := by
  refine ⟨hl, fun hm => absurd hm hs, ?_, ?_, ?_, fun _ => ⟨hs, ?_⟩⟩
  · rcases hd with rfl | rfl | rfl <;> exact fun hp => by cases hp
  · rcases hd with rfl | rfl | rfl <;> exact fun hr => by cases hr
  · rcases hd with rfl | rfl | rfl <;> exact fun hb => by rcases hb with hb | hb <;> cases hb
  · rcases hd with rfl | rfl | rfl <;> decide

/-- A call enters a phase, and `requests` changes for it only. -/
theorem Ledger.enter {p calls'} {requests' owed' : List Nat} {inFlight' : Nat → Int} (hca : calls ≤ calls')
    (hen : Enters calls' items requests' drained shut s p) (hd : requests'.Nodup)
    (hot : ∀ t, t ≠ s → (t ∈ requests' ↔ t ∈ requests))
    (hc : ∀ e, inFlight' e =
      (requests'.countP (fun t => (req t).engine = e ∧ update phase s p t ≠ .registered) + owed'.count e +
      drained.countP (fun t => (req t).engine = e) : Nat)) :
    Ledger req calls' (update phase s p) items requests' inFlight' owed' closed drained shut := by
  refine ⟨hd, fun t ht => ?_, fun t ht => ?_, fun t ht => ?_, fun t ht => ?_, fun t ht => ?_, fun t ht => ?_,
    fun hh => ?_, hle.afterDrain, hc⟩
  · by_cases hs : t = s
    · subst hs
      rw [update_self]
      exact (hen.isOpen ht).1
    · rw [update_of_ne hs]
      exact hle.isOpen t ((hot t hs).mp ht)
  · by_cases hs : t = s
    · subst hs
      exact (hen.isOpen ht).2
    · exact hle.unended t ((hot t hs).mp ht)
  · by_cases hs : t = s
    · subst hs
      rw [update_self] at ht
      exact hen.covered ht
    · rw [update_of_ne hs] at ht
      exact (hle.covered t ht).imp_left (hot t hs).mpr
  · rcases update_cases ht with ⟨rfl, hu⟩ | ⟨hs, ht⟩
    · exact hen.registered hu
    · exact (hot t hs).mpr (hle.registered t ht)
  · have hlt := hen.called
    rw [update_of_ne (by omega)]
    exact hle.fresh t (by omega)
  · by_cases hs : t = s
    · subst hs
      rw [update_self] at ht
      exact hen.empty ht
    · rw [update_of_ne hs] at ht
      exact hle.empty t ht
  · obtain ⟨hl, hn, hp⟩ := hle.afterShut hh
    refine ⟨hl, eq_nil_iff_forall_not_mem.mpr fun t ht => ?_, fun t => ?_⟩
    · by_cases hs : t = s
      · subst hs
        exact (hen.afterShut hh).1 ht
      · have := (hot t hs).mp ht
        rw [hn] at this
        cases this
    · by_cases hs : t = s
      · rw [hs, update_self]
        exact (hen.afterShut hh).2
      · rw [update_of_ne hs]
        exact hp t

theorem Ledger.leave {p} (hs : s ∉ requests) (hd : p = .done ∨ p = .dropped ∨ p = .failed) (hp : phase s ≠ .fresh) :
    Ledger req calls (update phase s p) items requests inFlight owed closed drained shut := by
  refine hle.enter (Nat.le_refl _) (.ended (hle.lt_calls hp) hs hd) hle.nodup (fun _ _ => .rfl) fun e => ?_
  rw [countP_update fun hm => absurd hm hs]
  exact hle.count e

theorem Ledger.call : Ledger req (calls + 1) (update phase calls (if closed then .failed else .calling)) items requests
    inFlight owed closed
    drained shut := by
  have hf := hle.fresh calls (Nat.le_refl _)
  have hs : calls ∉ requests := fun hm => by
    have := hle.isOpen calls hm
    rw [hf] at this
    cases this
  refine hle.enter (Nat.le_succ _)
    ⟨Nat.lt_succ_self _, fun hm => absurd hm hs, ?_, ?_, fun _ => hle.empty calls (.inl hf),
    fun hh => ⟨hs, ?_⟩⟩ hle.nodup (fun _ _ => .rfl) fun e => ?_
  · cases closed <;> exact fun hp => by cases hp
  · cases closed <;> exact fun hr => by cases hr
  · rw [(hle.afterShut hh).1]
    decide
  · rw [countP_update fun hm => absurd hm hs]
    exact hle.count e

theorem Ledger.insert (hp : phase s = .calling) (hs : s ∉ requests) :
    Ledger req calls (update phase s .registered) items (requests ++ [s]) inFlight owed closed drained shut := by
  have hm : s ∈ requests ++ [s] := mem_append_right _ (mem_singleton_self s)
  refine hle.enter (Nat.le_refl _) ⟨hle.lt_calls (by rw [hp]; decide), fun _ => ⟨rfl, ?_⟩, fun _ => .inl hm,
    fun _ => hm, ?_, fun hh => ?_⟩ ?_ ?_ fun e => ?_
  · rw [(hle.empty s (.inr hp)).1]
    exact forall_mem_nil _
  · rintro (hf | hf) <;> cases hf
  · exact absurd hp ((hle.afterShut hh).2.2 s).1
  · exact nodup_append.mpr
      ⟨hle.nodup, nodup_singleton s, fun a ha b hb hab => hs (by rw [← mem_singleton.mp hb, ← hab]; exact ha)⟩
  · intro t ht
    simp [ht]
  · rw [countP_append, countP_update fun hm => absurd hm hs]
    simpa using hle.count e

theorem Ledger.onward {p : CallPhase} {inFlight' : Nat → Int} (hold : (phase s).isOpen) (hn : p.isOpen)
    (hne : p ≠ .registered)
    (hc : ∀ e, inFlight' e =
      (requests.countP (fun t => (req t).engine = e ∧ update phase s p t ≠ .registered) + owed.count e +
      drained.countP (fun t => (req t).engine = e) : Nat)) :
    Ledger req calls (update phase s p) items requests inFlight' owed closed drained shut := by
  refine hle.enter (Nat.le_refl _) ⟨hle.lt_calls ?_, fun hm => ⟨hn, hle.unended s hm⟩, fun _ => hle.covered s hold,
    fun hr => absurd hr hne, ?_, fun hs => ⟨?_, ?_, hne⟩⟩ hle.nodup (fun _ _ => .rfl) hc
  · intro hf
    rw [hf] at hold
    cases hold
  · rintro (rfl | rfl) <;> cases hn
  · rw [(hle.afterShut hs).2.1]
    exact not_mem_nil
  · rintro rfl
    cases hn

theorem Ledger.pass {p : CallPhase} (hold : (phase s).isOpen) (hc : phase s ≠ .registered) (hn : p.isOpen)
    (hne : p ≠ .registered) :
    Ledger req calls (update phase s p) items requests inFlight owed closed drained shut := by
  refine hle.onward hold hn hne fun e => ?_
  rw [countP_update fun _ => by simp [hc, hne]]
  exact hle.count e

theorem Ledger.counting (hp : phase s = .registered) :
    Ledger req calls (update phase s .sending) items requests
      (update inFlight (req s).engine (inFlight (req s).engine + 1)) owed closed drained shut := by
  refine hle.onward (by rw [hp]; rfl) rfl (by decide) fun e => ?_
  have hm := hle.registered s hp
  have hold := hle.count e
  rw [countP_erase_add hm] at hold ⊢
  rw [countP_update fun hin => absurd hin hle.nodup.not_mem_erase]
  by_cases he : (req s).engine = e
  · subst he
    simp [hp] at hold ⊢
    omega
  · rw [update_of_ne (Ne.symm he)]
    simp [he] at hold ⊢
    omega

theorem Ledger.remove {p} (hs : s ∈ requests) (hh : phase s ≠ .registered)
    (hd : p = .done ∨ p = .dropped ∨ p = .failed) :
    Ledger req calls (update phase s p) items (requests.erase s) inFlight (owed ++ [(req s).engine]) closed drained
      shut := by
  have hp := hle.isOpen s hs
  have hg : s ∉ requests.erase s := hle.nodup.not_mem_erase
  have hl : s < calls := hle.lt_calls fun hf => by
    rw [hf] at hp
    cases hp
  refine hle.enter (Nat.le_refl _) (.ended hl hg hd) (hle.nodup.erase s) (fun t hts => mem_erase_of_ne hts) fun e => ?_
  have hold := hle.count e
  rw [countP_erase_add hs] at hold
  rw [countP_update fun hin => absurd hin hg, count_append, count_singleton]
  by_cases he : (req s).engine = e
  · simp [he, hh] at hold ⊢
    omega
  · simp [he] at hold ⊢
    omega

theorem Ledger.read {im : Item} {rest} (hie : items s = im :: rest) (hp : (phase s).isOpen → im.terminal = false) :
    Ledger req calls phase (update items s rest) requests inFlight owed closed drained shut := by
  refine ⟨hle.nodup, hle.isOpen, fun t ht x hx => hle.unended t ht x (mem_pop hie hx), fun t ht => ?_,
    hle.registered, hle.fresh, fun t ht => ⟨eq_nil_iff_forall_not_mem.mpr fun x hx => ?_, (hle.empty t ht).2⟩,
    hle.afterShut, hle.afterDrain, hle.count⟩
  · rcases hle.covered t ht with hm | hm | ⟨x, hx, hr⟩
    · exact .inl hm
    · exact .inr (.inl hm)
    · refine .inr (.inr ⟨x, ?_, hr⟩)
      by_cases hs : t = s
      · subst hs
        rw [update_self]
        rw [hie] at hx
        rcases mem_cons.mp hx with rfl | hx
        · rw [hp ht] at hr
          cases hr
        · exact hx
      · rw [update_of_ne hs]
        exact hx
  · have := mem_pop hie hx
    rw [(hle.empty t ht).1] at this
    cases this

theorem Ledger.settle (he : e ∈ owed) :
    Ledger req calls phase items requests (update inFlight e (inFlight e - 1)) (owed.erase e) closed drained shut := by
  refine { hle with count := fun e' => ?_ }
  have hold := hle.count e'
  have hp := count_pos_iff.mpr he
  rw [count_erase]
  by_cases hee : e' = e
  · subst hee
    simp only [update_self, beq_self_eq_true, if_true]
    omega
  · simp only [update_of_ne hee, beq_eq_false_iff_ne.mpr (Ne.symm hee), Bool.false_eq_true, if_false]
    omega

theorem Ledger.put {im : Item} (hp : s ∈ requests → im.terminal = false) (hh : phase s ≠ .fresh ∧ phase s ≠ .calling) :
    Ledger req calls phase (update items s (items s ++ [im])) requests inFlight owed closed drained shut := by
  refine { hle with unended := fun t ht x hx => ?_, covered := fun t ht => ?_, empty := fun t ht => ?_ }
  · rcases mem_put hx with hx | ⟨rfl, rfl⟩
    · exact hle.unended t ht x hx
    · exact hp ht
  · exact (hle.covered t ht).imp_right fun hr => hr.imp_right fun ⟨x, hx, hte⟩ => ⟨x, subset_put hx, hte⟩
  · rw [update_of_ne (by rintro rfl; exact (not_or.mpr hh) ht)]
    exact hle.empty t ht

theorem Ledger.last {im : Item} (hs : s ∈ requests) (hp : phase s ≠ .registered) (hte : im.terminal = true) :
    Ledger req calls phase (update items s (items s ++ [im])) (requests.erase s)
      (update inFlight (req s).engine (inFlight (req s).engine - 1)) owed closed drained shut := by
  have hg : s ∉ requests.erase s := hle.nodup.not_mem_erase
  have hop := hle.isOpen s hs
  refine ⟨hle.nodup.erase s, fun t ht => hle.isOpen t (mem_of_mem_erase ht), fun t ht x hx => ?_, fun t ht => ?_,
    fun t ht => ?_, hle.fresh, fun t ht => ?_, fun hh => ?_, hle.afterDrain, fun e => ?_⟩
  · rcases mem_put hx with hx | ⟨rfl, rfl⟩
    · exact hle.unended t (mem_of_mem_erase ht) x hx
    · exact absurd ht hg
  · by_cases hts : t = s
    · exact .inr (.inr ⟨im, by rw [hts, update_self]; simp, hte⟩)
    · rw [mem_erase_of_ne hts]
      exact (hle.covered t ht).imp_right fun hr => hr.imp_right fun ⟨x, hx, hte⟩ => ⟨x, subset_put hx, hte⟩
  · rw [mem_erase_of_ne (by rintro rfl; exact hp ht)]
    exact hle.registered t ht
  · rw [update_of_ne (by rintro rfl; rcases ht with ht | ht <;> rw [ht] at hop <;> cases hop)]
    exact hle.empty t ht
  · rw [(hle.afterShut hh).2.1] at hs
    cases hs
  · have hold := hle.count e
    rw [countP_erase_add hs] at hold
    by_cases he : (req s).engine = e
    · subst he
      simp [hp] at hold ⊢
      omega
    · rw [update_of_ne (Ne.symm he)]
      simp [he] at hold ⊢
      omega

theorem Ledger.close : Ledger req calls phase items requests inFlight owed true drained shut :=
  { hle with afterShut := fun hs => ⟨rfl, (hle.afterShut hs).2⟩ }

theorem Ledger.drain (hc : closed = true) (hse : ∀ s < calls, phase s ≠ .calling ∧ phase s ≠ .registered) :
    Ledger req calls phase items [] inFlight owed closed (drained ++ requests) true := by
  have hp : ∀ s, phase s ≠ .calling ∧ phase s ≠ .registered := fun s => by
    rcases Nat.lt_or_ge s calls with hl | hg
    · exact hse s hl
    · rw [hle.fresh s hg]
      decide
  refine ⟨nodup_nil, forall_mem_nil _, forall_mem_nil _, fun t ht => .inr ?_,
    fun t ht => absurd ht (hp t).2, hle.fresh, fun t ht => ⟨(hle.empty t ht).1, fun hm => ?_⟩, fun _ => ⟨hc, rfl, hp⟩,
    fun _ _ => rfl, fun e => ?_⟩
  · rcases hle.covered t ht with hm | hm | hm
    · exact .inl (mem_append_right _ hm)
    · exact .inl (mem_append_left _ hm)
    · exact .inr hm
  · rcases mem_append.mp hm with hm | hm
    · exact (hle.empty t ht).2 hm
    · have hop := hle.isOpen t hm
      rcases ht with ht | ht <;> rw [ht] at hop <;> cases hop
  · have hs : requests.countP (fun s => (req s).engine = e ∧ phase s ≠ .registered) = requests.countP fun s =>
      (req s).engine = e :=
      countP_congr fun s _ => by simp [(hp s).2]
    have hold := hle.count e
    rw [countP_append, countP_nil]
    omega

theorem Ledger.finish (hs : s ∈ drained) :
    Ledger req calls phase (update items s (items s ++ [.closed])) requests
      (update inFlight (req s).engine (inFlight (req s).engine - 1)) owed closed (drained.erase s) shut := by
  have hn := (hle.afterShut (hle.afterDrain s hs)).2.1
  have hp : phase s ≠ .fresh ∧ phase s ≠ .calling := not_or.mp fun hb => (hle.empty s hb).2 hs
  refine ⟨hle.nodup, hle.isOpen, fun t ht => ?_, fun t ht => ?_, hle.registered, hle.fresh, fun t ht => ?_,
    hle.afterShut, fun t ht => hle.afterDrain t (mem_of_mem_erase ht), fun e => ?_⟩
  · rw [hn] at ht
    cases ht
  · by_cases hts : t = s
    · exact .inr (.inr ⟨.closed, by rw [hts, update_self]; simp, rfl⟩)
    · rw [mem_erase_of_ne hts]
      exact (hle.covered t ht).imp_right fun hr => hr.imp_right fun ⟨x, hx, hte⟩ => ⟨x, subset_put hx, hte⟩
  · rw [update_of_ne (by rintro rfl; exact (not_or.mpr hp) ht)]
    exact ⟨(hle.empty t ht).1, fun hm => (hle.empty t ht).2 (mem_of_mem_erase hm)⟩
  · have hold := hle.count e
    rw [countP_erase_add hs] at hold
    by_cases he : (req s).engine = e
    · subst he
      simp at hold ⊢
      omega
    · rw [update_of_ne (Ne.symm he)]
      simp [he] at hold ⊢
      omega

end Ledger

/-! ## What is on the way -/

def begun : CallPhase → Bool
  | .fresh | .calling => false
  | _ => true

def out : CallPhase → Bool
  | .fresh | .calling | .registered | .sending => false
  | _ => true

def Placed (req : Nat → Request) (phase : Nat → CallPhase) (e : Nat) : Message → Prop
  | .add s => (req s).engine = e ∧ out (phase s)
  | .abort rid cause => (req cause).engine = e ∧ rid = (req cause).rid ∧ begun (phase cause)

structure Located (req : Nat → Request) (phase : Nat → CallPhase) (queue : Nat → List Message) (live : Nat → List Nat)
    (outputs : Nat → List OutputRow) (aborts : List AbortTask) : Prop where
  queue : ∀ e, ∀ m ∈ queue e, Placed req phase e m
  live : ∀ e, ∀ s ∈ live e, (req s).engine = e ∧ out (phase s)
  outputs : ∀ e, ∀ row ∈ outputs e, (req row.sub).engine = e ∧ out (phase row.sub)
  aborts : ∀ task ∈ aborts, Placed req phase task.engine (.abort task.rid task.cause)

inductive Trace (queue : Nat → List Message) (live : Nat → List Nat) (outputs : Nat → List OutputRow)
    (aborts : List AbortTask) (s : Nat) : Prop where
  | queue (e : Nat) (m : Message) : m ∈ queue e → m.sub = s → Trace queue live outputs aborts s
  | live (e : Nat) : s ∈ live e → Trace queue live outputs aborts s
  | output (e : Nat) (row : OutputRow) : row ∈ outputs e → row.sub = s → Trace queue live outputs aborts s
  | task (task : AbortTask) : task ∈ aborts → task.cause = s → Trace queue live outputs aborts s

def Active (phase : Nat → CallPhase) (queue : Nat → List Message) (live : Nat → List Nat)
    (outputs : Nat → List OutputRow)
    (aborts : List AbortTask) (s : Nat) : Prop := (phase s).isOpen ∨ Trace queue live outputs aborts s

def Single (req : Nat → Request) (active : Nat → Prop) : Prop :=
  ∀ s t, active s → active t → (req s).rid = (req t).rid → s = t

theorem Single.mono {ac ac' : Nat → Prop} (hn : Single req ac) (hm : ∀ s, ac' s → ac s) : Single req ac' :=
  fun s t hs ht => hn s t (hm s hs) (hm t ht)

section Located

variable {phase : Nat → CallPhase} {queue : Nat → List Message} {live : Nat → List Nat} {outputs : Nat → List OutputRow}
  {aborts : List AbortTask} {p : CallPhase}

theorem Placed.enter {m} (ht : out (phase s) → out p) (hb : begun (phase s) → begun p) (hp : Placed req phase e m) :
    Placed req (update phase s p) e m := by
  have hh : ∀ t, (out (phase t) → out (update phase s p t)) ∧ (begun (phase t) → begun (update phase s p t)) :=
    fun t => by
    by_cases hs : t = s
    · subst hs
      rw [update_self]
      exact ⟨ht, hb⟩
    · rw [update_of_ne hs]
      exact ⟨id, id⟩
  cases m with
  | add t => exact ⟨hp.1, (hh t).1 hp.2⟩
  | abort rid t => exact ⟨hp.1, hp.2.1, (hh t).2 hp.2.2⟩

theorem Located.enter (hl : Located req phase queue live outputs aborts) (hou : out (phase s) → out p)
    (hb : begun (phase s) → begun p) : Located req (update phase s p) queue live outputs aborts :=
  ⟨fun e m hm => (hl.queue e m hm).enter hou hb,
    fun e t ht => Placed.enter (m := .add t) hou hb (hl.live e t ht),
    fun e row hr => Placed.enter (m := .add row.sub) hou hb (hl.outputs e row hr),
    fun ts hk => (hl.aborts ts hk).enter hou hb⟩

theorem Active.of_enter (hp : p.isOpen → (phase s).isOpen)
    (ht : Active (update phase s p) queue live outputs aborts t) :
    Active phase queue live outputs aborts t := by
  refine ht.imp_left fun hn => ?_
  by_cases hs : t = s
  · subst hs
    rw [update_self] at hn
    exact hp hn
  · rw [update_of_ne hs] at hn
    exact hn

theorem Single.flow {ac : Nat → Prop} (hs : Single req ac) (hh : ∀ t, (phase t).isOpen → ac t)
    (hq : ∀ e, ∀ m ∈ queue e, ac m.sub) (hl : ∀ e, ∀ t ∈ live e, ac t) (hp : ∀ e, ∀ row ∈ outputs e, ac row.sub)
    (hb : ∀ ts ∈ aborts, ac ts.cause) : Single req (Active phase queue live outputs aborts) := by
  refine hs.mono fun t ht => ?_
  rcases ht with ht | ⟨e, m, hm, rfl⟩ | ⟨e, hm⟩ | ⟨e, row, hr, rfl⟩ | ⟨ts, hk, rfl⟩
  · exact hh t ht
  · exact hq e m hm
  · exact hl e t hm
  · exact hp e row hr
  · exact hb ts hk

theorem Active.of_queue {m : Message} (hm : m ∈ queue e) : Active phase queue live outputs aborts m.sub :=
  .inr (.queue e m hm rfl)

theorem Active.of_live (hs : s ∈ live e) : Active phase queue live outputs aborts s := .inr (.live e hs)

theorem Active.of_outputs {row : OutputRow} (hr : row ∈ outputs e) : Active phase queue live outputs aborts row.sub :=
  .inr (.output e row hr rfl)

theorem Active.of_aborts {ts : AbortTask} (ht : ts ∈ aborts) : Active phase queue live outputs aborts ts.cause :=
  .inr (.task ts ht rfl)

abbrev Busy (h : StreamRun) : Nat → Prop := Active h.phase h.queue h.live h.outputs h.aborts

theorem Located.not_active_of_idle (hc : Located req h.phase h.queue h.live h.outputs h.aborts) (hd : h.Idle req s) :
    ¬h.Busy s := by
  obtain ⟨hop, hq, hl, hp, hb⟩ := hd
  rintro (hn | ⟨e, m, hm, rfl⟩ | ⟨e, hm⟩ | ⟨e, row, hr, rfl⟩ | ⟨ts, ht, rfl⟩)
  · rw [hop] at hn
    cases hn
  · have hpl := hc.queue e m hm
    have he : (req m.sub).engine = e := by cases m <;> exact hpl.1
    exact hq m (by rw [he]; exact hm) rfl
  · exact hl (by rw [(hc.live e s hm).1]; exact hm)
  · exact hp row (by rw [(hc.outputs e row hr).1]; exact hr) rfl
  · exact hb ts ht rfl

theorem Located.not_active_of_before (hl : Located req phase queue live outputs aborts)
    (hh : phase s = .fresh ∨ phase s = .calling) :
    ¬Active phase queue live outputs aborts s := by
  have hno : begun (phase s) = false ∧ out (phase s) = false ∧ (phase s).isOpen = false := by
    rcases hh with hh | hh <;> rw [hh] <;> decide
  rintro (hn | ⟨e, m, hm, rfl⟩ | ⟨e, hm⟩ | ⟨e, row, hr, rfl⟩ | ⟨ts, ht, rfl⟩)
  · rw [hno.2.2] at hn
    cases hn
  · have hp := hl.queue e m hm
    cases m with
    | add t => exact absurd hp.2 (by rw [show out (phase t) = false from hno.2.1]; decide)
    | abort rid t => exact absurd hp.2.2 (by rw [show begun (phase t) = false from hno.1]; decide)
  · exact absurd (hl.live e s hm).2 (by rw [hno.2.1]; decide)
  · exact absurd (hl.outputs e row hr).2 (by rw [hno.2.1]; decide)
  · exact absurd (hl.aborts ts ht).2.2 (by rw [hno.1]; decide)

end Located

/-! ## The invariant -/

structure Own (items yielded : Nat → List Item) (aborted : List (Nat × Nat)) : Prop where
  items : ∀ s t last, .chunk t last ∈ items s → t = s
  yielded : ∀ s t last, .chunk t last ∈ yielded s → t = s
  aborted : ∀ pair ∈ aborted, pair.1 = pair.2

structure Inv (req : Nat → Request) (h : StreamRun) : Prop where
  ledger : Ledger req h.calls h.phase h.items h.requests h.inFlight h.owed h.closed h.drained h.shut
  located : Located req h.phase h.queue h.live h.outputs h.aborts
  single : Single req (Active h.phase h.queue h.live h.outputs h.aborts)
  own : Own h.items h.yielded h.aborted

theorem tracked_some {rid} (ht : h.tracked req rid = some t) : t ∈ h.requests ∧ (req t).rid = rid :=
  ⟨mem_of_find?_eq_some ht, by simpa using find?_some ht⟩

theorem tracked_none {rid} (hr : h.tracked req rid = none) (ht : t ∈ h.requests) : (req t).rid ≠ rid := by
  simpa using find?_eq_none.mp hr t ht

section Inv

variable (hin : Inv req h)
include hin

theorem Inv.tracked_eq (ht : h.Busy s) (hr : h.tracked req (req s).rid = some t) : t = s := by
  obtain ⟨hm, hd⟩ := tracked_some hr
  exact hin.single t s (.inl (hin.ledger.isOpen t hm)) ht hd

theorem Inv.without_eq (hs : s ∈ h.requests) : h.without req (req s).rid = h.requests.erase s := by
  rw [hin.ledger.nodup.erase_eq_filter, without]
  refine filter_congr fun t ht => ?_
  have hf : (req t).rid = (req s).rid ↔ t = s :=
    ⟨fun hr => hin.single t s (.inl (hin.ledger.isOpen t ht)) (.inl (hin.ledger.isOpen s hs)) hr,
      fun hts => by rw [hts]⟩
  by_cases hts : t = s
  · simp [hts]
  · simp [hts, hf]

theorem Inv.forget {p} (hop : (h.phase s).isOpen) (hph : h.phase s ≠ .registered)
    (hd : p = .done ∨ p = .dropped ∨ p = .failed) :
    Inv req ((h.enter s p).forget req (req s).rid) ∧
      ((h.enter s p).forget req (req s).rid).requests = h.requests.erase s := by
  have hr : h.phase s ≠ .fresh := fun hr => by
    rw [hr] at hop
    cases hop
  have hp : out p = true ∧ begun p = true ∧ p.isOpen = false := by rcases hd with rfl | rfl | rfl <;> decide
  have hl := hin.located.enter (s := s) (fun _ => hp.1) fun _ => hp.2.1
  have hn : Single req (Active (update h.phase s p) h.queue h.live h.outputs h.aborts) :=
    hin.single.mono fun t => Active.of_enter fun hw => by rw [hp.2.2] at hw; cases hw
  have ht : (h.enter s p).tracked req (req s).rid = h.tracked req (req s).rid := rfl
  unfold StreamRun.forget
  rw [ht]
  cases hf : h.tracked req (req s).rid with
  | none =>
    have hs : s ∉ h.requests := fun hm => tracked_none hf hm rfl
    exact ⟨⟨hin.ledger.leave hs hd hr, hl, hn, hin.own⟩, (erase_of_not_mem hs).symm⟩
  | some t =>
    obtain rfl := hin.tracked_eq (.inl hop) hf
    have hs := (tracked_some hf).1
    have hh : (h.enter t p).without req (req t).rid = h.requests.erase t := hin.without_eq hs
    rw [hh]
    exact ⟨⟨hin.ledger.remove hs hph hd, hl, hn, hin.own⟩, rfl⟩

theorem Inv.drop (hh : h.phase s = .reading) :
    Inv req ((h.enter s .dropped).dropStream req s) ∧
      ((h.enter s .dropped).dropStream req s).requests = h.requests.erase s := by
  have hop : (h.phase s).isOpen = true := by rw [hh]; rfl
  obtain ⟨hr, hq⟩ := hin.forget hop (by rw [hh]; decide) (.inr (.inl rfl))
  unfold StreamRun.forget at hr hq
  unfold dropStream StreamRun.forget
  have htr : (h.enter s .dropped).tracked req (req s).rid = h.tracked req (req s).rid := rfl
  rw [htr] at hr hq ⊢
  cases hf : h.tracked req (req s).rid with
  | none =>
    rw [hf] at hr hq
    exact ⟨hr, hq⟩
  | some t =>
    rw [hf] at hr hq
    obtain rfl := hin.tracked_eq (.inl hop) hf
    have hp : Placed req (update h.phase t .dropped) (req t).engine (.abort (req t).rid t) :=
      ⟨rfl, rfl, by rw [update_self]; rfl⟩
    refine ⟨⟨hr.ledger, ⟨hr.located.queue, hr.located.live, hr.located.outputs,
      forall_mem_append.mpr ⟨hr.located.aborts, forall_mem_singleton.mpr hp⟩⟩, ?_, hr.own⟩, hq⟩
    · refine hin.single.flow (fun u hu => Active.of_enter (fun hn => by cases hn) (.inl hu)) (fun _ _ => .of_queue)
        (fun _ _ => .of_live) (fun _ _ => .of_outputs) fun ts ht => ?_
      rcases mem_append.mp ht with ht | ht
      · exact .of_aborts ht
      · rw [mem_singleton.mp ht]
        exact .inl hop

theorem Inv.insert (hp : h.phase s = .calling) (hd : h.Orderly req (.insert s))
    (hn : h.tracked req (req s).rid = none) :
    Inv req { h.enter s .registered with requests := h.requests ++ [s] } := by
  refine ⟨hin.ledger.insert hp fun hm => tracked_none hn hm rfl,
    hin.located.enter (by rw [hp]; decide) (by rw [hp]; decide), ?_, hin.own⟩
  -- whatever else has the id is idle, by the condition, or was never called
  have hot : ∀ t, t ≠ s → (req t).rid = (req s).rid → ¬h.Busy t := fun t hs hr => by
    rcases Nat.lt_or_ge t h.calls with hl | hg
    · exact hin.located.not_active_of_idle (hd t hl hs hr)
    · exact hin.located.not_active_of_before (.inl (hin.ledger.fresh t hg))
  have hold : ∀ t, t ≠ s → Active (update h.phase s .registered) h.queue h.live h.outputs h.aborts t →
      h.Busy t := fun t hs hc => by
    refine hc.imp_left fun hw => ?_
    rw [update_of_ne hs] at hw
    exact hw
  intro t u ht hu hr
  by_cases hs : t = s
  · subst hs
    by_cases hut : u = t
    · exact hut.symm
    · exact absurd (hold u hut hu) (hot u hut hr.symm)
  · by_cases hus : u = s
    · subst hus
      exact absurd (hold t hs ht) (hot t hs hr)
    · exact hin.single t u (hold t hs ht) (hold u hus hu) hr

theorem Inv.deliver (hh : h.phase s = .sending) :
    Inv req { h.enter s .delivered with
      queue := update h.queue (req s).engine (h.queue (req s).engine ++ [.add s]) } := by
  have hp : (h.phase s).isOpen = true := by rw [hh]; rfl
  have hl := hin.located.enter (s := s) (p := .delivered) (fun _ => rfl) fun _ => rfl
  refine ⟨hin.ledger.pass hp (by rw [hh]; decide) rfl (by decide), { hl with queue := fun e m hm => ?_ },
    hin.single.flow (fun t ht => Active.of_enter (fun _ => hp) (.inl ht)) (fun e m hm => ?_) (fun _ _ => .of_live)
      (fun _ _ => .of_outputs) (fun _ => .of_aborts), hin.own⟩
  · rcases mem_put hm with hm | ⟨rfl, rfl⟩
    · exact hl.queue e m hm
    · have hou : out (update h.phase s .delivered s) = true := by rw [update_self]; rfl
      exact ⟨rfl, hou⟩
  · rcases mem_put hm with hm | ⟨_, rfl⟩
    · exact .of_queue hm
    · exact .inl hp

theorem Inv.next {im : Item} {rest} (hh : h.phase s = .reading) (ht : h.items s = im :: rest) :
    Inv req { h.enter s (if im.terminal then .done else .reading) with
      items := update h.items s rest
      yielded := update h.yielded s (h.yielded s ++ [im]) } := by
  have hp : (h.phase s).isOpen = true := by rw [hh]; rfl
  have hn : Own (update h.items s rest) (update h.yielded s (h.yielded s ++ [im])) h.aborted := by
    refine ⟨fun t u ls hm => hin.own.items t u ls (mem_pop ht hm), fun t u ls hm => ?_, hin.own.aborted⟩
    rcases mem_put hm with hm | ⟨rfl, him⟩
    · exact hin.own.yielded t u ls hm
    · exact hin.own.items t u ls (by rw [ht, him]; exact mem_cons_self ..)
  cases hr : im.terminal with
  | true =>
    have hs : s ∉ h.requests := fun hm => by
      have := hin.ledger.unended s hm im (by rw [ht]; exact mem_cons_self ..)
      rw [hr] at this
      cases this
    have hle := hin.ledger.leave hs (.inl rfl : CallPhase.done = .done ∨ _) (by rw [hh]; decide)
    refine ⟨hle.read ht fun hp => ?_, hin.located.enter (fun _ => rfl) fun _ => rfl,
      hin.single.mono fun t => Active.of_enter fun hw => ?_, hn⟩
    · rw [update_self] at hp
      cases hp
    · cases hw
  | false =>
    have hle := hin.ledger.pass (p := .reading) hp (by rw [hh]; decide) rfl (by decide)
    exact ⟨hle.read ht fun _ => hr, hin.located.enter (fun _ => rfl) fun _ => rfl,
      hin.single.mono fun t => Active.of_enter fun _ => hp, hn⟩

theorem Inv.take {m rest} (hq : h.queue e = m :: rest) :
    Inv req ({ h with queue := update h.queue e rest }.taken req e m) := by
  have hm : m ∈ h.queue e := by rw [hq]; exact mem_cons_self ..
  have hc := hin.located.queue e m hm
  cases m with
  | add s =>
    refine ⟨hin.ledger, ⟨fun e' m' hm' => hin.located.queue e' m' (mem_pop hq hm'), fun e' t ht => ?_,
      hin.located.outputs, hin.located.aborts⟩,
      hin.single.flow (fun _ => .inl) (fun e' m' hm' => .of_queue (mem_pop hq hm')) (fun e' t ht => ?_)
        (fun _ _ => .of_outputs) (fun _ => .of_aborts), hin.own⟩
    · rcases mem_put ht with ht | ⟨rfl, rfl⟩
      · exact hin.located.live e' t ht
      · exact hc
    · rcases mem_put ht with ht | ⟨rfl, rfl⟩
      · exact .of_live ht
      · exact .of_queue hm
  | abort rid cause =>
    refine ⟨hin.ledger, ⟨fun e' m' hm' => hin.located.queue e' m' (mem_pop hq hm'), hin.located.live,
      hin.located.outputs,
      hin.located.aborts⟩, hin.single.flow (fun _ => .inl) (fun e' m' hm' => .of_queue (mem_pop hq hm'))
        (fun _ _ => .of_live)
        (fun _ _ => .of_outputs) (fun _ => .of_aborts), { hin.own with aborted := fun pr hp => ?_ }⟩
    rcases mem_append.mp hp with hp | hp
    · exact hin.own.aborted pr hp
    · obtain ⟨s, hs, rfl⟩ := mem_map.mp hp
      obtain ⟨hs, hr⟩ := mem_filter.mp hs
      have hca : h.Busy cause := .of_queue hm
      exact hin.single s cause (.of_live hs) hca (by rw [← hc.2.1]; simpa using hr)

theorem Inv.produce {ls} (hs : s ∈ h.live e) :
    Inv req { h with
      outputs := update h.outputs e (h.outputs e ++ [⟨s, ls⟩])
      live := update h.live e (if ls then (h.live e).erase s else h.live e) } := by
  have hl : ∀ e' t, t ∈ update h.live e (if ls then (h.live e).erase s else h.live e) e' →
    t ∈ h.live e' := fun e' t ht => by
    rcases mem_update_cases ht with ⟨rfl, ht⟩ | ⟨-, ht⟩
    · split at ht
      · exact mem_of_mem_erase ht
      · exact ht
    · exact ht
  refine ⟨hin.ledger, ⟨hin.located.queue, fun e' t ht => hin.located.live e' t (hl e' t ht), fun e' row hr => ?_,
    hin.located.aborts⟩,
    hin.single.flow (fun _ => .inl) (fun _ _ => .of_queue) (fun e' t ht => .of_live (hl e' t ht)) (fun e' row hr => ?_)
      (fun _ => .of_aborts), hin.own⟩
  · rcases mem_put hr with hr | ⟨rfl, rfl⟩
    · exact hin.located.outputs e' row hr
    · exact hin.located.live e' s hs
  · rcases mem_put hr with hr | ⟨rfl, rfl⟩
    · exact .of_outputs hr
    · exact .of_live hs

theorem Inv.receive {row : OutputRow} {rest} (hp : h.outputs e = row :: rest) :
    Inv req ({ h with outputs := update h.outputs e rest }.dispatch req row) ∧
      ({ h with outputs := update h.outputs e rest }.dispatch req row).requests =
      if row.last then h.requests.erase row.sub else h.requests := by
  have hr : row ∈ h.outputs e := by rw [hp]; exact mem_cons_self ..
  have ht := (hin.located.outputs e row hr).2
  have hac : h.Busy row.sub := .of_outputs hr
  have hc : Located req h.phase h.queue h.live (update h.outputs e rest) h.aborts :=
    { hin.located with outputs := fun e' x hx => hin.located.outputs e' x (mem_pop hp hx) }
  have hsi : Single req (Active h.phase h.queue h.live (update h.outputs e rest) h.aborts) :=
    hin.single.flow (fun _ => .inl) (fun _ _ => .of_queue) (fun _ _ => .of_live)
      (fun e' x hx => .of_outputs (mem_pop hp hx)) fun _ => .of_aborts
  have htr : { h with outputs := update h.outputs e rest }.tracked req (req row.sub).rid =
    h.tracked req (req row.sub).rid := rfl
  unfold dispatch
  rw [htr]
  cases hf : h.tracked req (req row.sub).rid with
  | none =>
    have hs : row.sub ∉ h.requests := fun hm => tracked_none hf hm rfl
    exact ⟨⟨hin.ledger, hc, hsi, hin.own⟩, by rw [erase_of_not_mem hs, ite_self]⟩
  | some t =>
    obtain rfl := hin.tracked_eq hac hf
    have hs := (tracked_some hf).1
    have hn : Own (update h.items row.sub (h.items row.sub ++ [.chunk row.sub row.last])) h.yielded h.aborted := by
      refine { hin.own with items := fun s t ls hm => ?_ }
      rcases mem_put hm with hm | ⟨rfl, hq⟩
      · exact hin.own.items s t ls hm
      · cases hq
        rfl
    cases hl : row.last with
    | false =>
      rw [hl] at hn
      have hh : h.phase row.sub ≠ .fresh ∧ h.phase row.sub ≠ .calling := by
        refine ⟨fun hh => ?_, fun hh => ?_⟩ <;> rw [hh] at ht <;> cases ht
      exact ⟨⟨hin.ledger.put (fun _ => rfl) hh, hc, hsi, hn⟩, rfl⟩
    | true =>
      rw [hl] at hn
      have hh : h.phase row.sub ≠ .registered := fun hh => by
        rw [hh] at ht
        cases ht
      have hw := hin.without_eq hs
      refine ⟨⟨?_, hc, hsi, hn⟩, hw⟩
      have hle := hin.ledger.last hs hh (rfl : (Item.chunk row.sub true).terminal = true)
      rw [← hw] at hle
      exact hle

/-! ## Steps -/

theorem Inv.step_call (hp : h.step req .call = some h') : Inv req h' := by
  cases hp
  have hr := hin.ledger.fresh h.calls (Nat.le_refl _)
  refine ⟨hin.ledger.call, hin.located.enter (fun hou => ?_) (fun hb => ?_),
    hin.single.mono fun t => Active.of_enter fun hw => ?_, hin.own⟩
  · rw [hr] at hou
    cases hou
  · rw [hr] at hb
    cases hb
  · split at hw <;> cases hw

theorem Inv.step_insert (hd : h.Orderly req (.insert s)) (hp : h.step req (.insert s) = some h') : Inv req h' := by
  obtain ⟨hh, hp⟩ := ite_none_right_eq_some.mp hp
  split at hp
  · next hso =>
    cases hp
    have hs : s ∉ h.requests := fun hme => by
      have hop := hin.ledger.isOpen s hme
      rw [hh] at hop
      cases hop
    exact ⟨hin.ledger.leave hs (.inr (.inr rfl)) (by rw [hh]; decide), hin.located.enter (fun _ => rfl) fun _ => rfl,
      hin.single.mono fun t => Active.of_enter fun hw => (by cases hw), hin.own⟩
  · next hn =>
    cases hp
    exact hin.insert hh hd (by simpa using hn)

theorem Inv.step_next (hp : h.step req (.next s) = some h') : Inv req h' := by
  obtain ⟨hh, hp⟩ := ite_none_right_eq_some.mp hp
  split at hp
  · next hie =>
    cases hp
    exact hin.next hh hie
  · obtain ⟨hg, ⟨⟩⟩ := ite_none_left_eq_some.mp hp
    exact ⟨hin.ledger.leave (fun hme => hg (.inl hme)) (.inl rfl) (by rw [hh]; decide),
      hin.located.enter (fun _ => rfl) fun _ => rfl,
      hin.single.mono fun t => Active.of_enter fun hw => (by cases hw), hin.own⟩

theorem Inv.step_abort {rid} (hp : h.step req (.abort rid) = some h') : Inv req h' := by
  simp only [StreamRun.step] at hp
  split at hp
  · cases hp
    exact hin
  · next s hf =>
    cases hp
    obtain ⟨hme, rfl⟩ := tracked_some hf
    have hop := hin.ledger.isOpen s hme
    have hb : begun (h.phase s) = true := by
      revert hop
      cases h.phase s <;> decide
    refine ⟨hin.ledger, ⟨hin.located.queue, hin.located.live, hin.located.outputs,
        forall_mem_append.mpr ⟨hin.located.aborts, forall_mem_singleton.mpr ⟨rfl, rfl, hb⟩⟩⟩,
      hin.single.flow (fun _ => .inl) (fun _ _ => .of_queue) (fun _ _ => .of_live) (fun _ _ => .of_outputs) ?_, hin.own⟩
    exact forall_mem_append.mpr ⟨fun _ => .of_aborts, forall_mem_singleton.mpr (.inl hop)⟩

theorem Inv.step_sendAbort {ts ok} (hp : h.step req (.sendAbort ts ok) = some h') : Inv req h' := by
  obtain ⟨hme, hp⟩ := ite_none_right_eq_some.mp hp
  have hl : ∀ x ∈ h.aborts.erase ts, Placed req h.phase x.engine (.abort x.rid x.cause) :=
    fun x hx => hin.located.aborts x (mem_of_mem_erase hx)
  cases ok with
  | false =>
    cases hp
    exact ⟨hin.ledger, { hin.located with aborts := hl },
      hin.single.flow (fun _ => .inl) (fun _ _ => .of_queue) (fun _ _ => .of_live) (fun _ _ => .of_outputs)
        (fun x hx => .of_aborts (mem_of_mem_erase hx)), hin.own⟩
  | true =>
    cases hp
    refine ⟨hin.ledger, ⟨fun e m hm => ?_, hin.located.live, hin.located.outputs, hl⟩,
      hin.single.flow (fun _ => .inl) (fun e m hm => ?_) (fun _ _ => .of_live) (fun _ _ => .of_outputs)
        (fun x hx => .of_aborts (mem_of_mem_erase hx)), hin.own⟩
    · rcases mem_put hm with hm | ⟨rfl, rfl⟩
      · exact hin.located.queue e m hm
      · exact hin.located.aborts ts hme
    · rcases mem_put hm with hm | ⟨rfl, rfl⟩
      · exact .of_queue hm
      · exact .of_aborts hme

theorem Inv.step {ev} (hd : h.Orderly req ev) (hp : h.step req ev = some h') : Inv req h' := by
  cases ev with
  | call => exact hin.step_call hp
  | insert s => exact hin.step_insert hd hp
  | count s =>
    obtain ⟨hh, ⟨⟩⟩ := ite_none_right_eq_some.mp hp
    exact ⟨hin.ledger.counting hh, hin.located.enter (by rw [hh]; decide) fun _ => rfl,
      hin.single.mono fun t => Active.of_enter fun _ => (by rw [hh]; rfl), hin.own⟩
  | deliver s =>
    obtain ⟨hh, ⟨⟩⟩ := ite_none_right_eq_some.mp hp
    exact hin.deliver hh
  | sent s =>
    obtain ⟨hh, ⟨⟩⟩ := ite_none_right_eq_some.mp hp
    have hop : (h.phase s).isOpen = true := by rw [hh]; rfl
    exact ⟨hin.ledger.pass hop (by rw [hh]; decide) rfl (by decide), hin.located.enter (fun _ => rfl) fun _ => rfl,
      hin.single.mono fun t => Active.of_enter fun _ => hop, hin.own⟩
  | sendFailed s =>
    obtain ⟨hh, ⟨⟩⟩ := ite_none_right_eq_some.mp hp
    exact (hin.forget (by rcases hh with hh | hh <;> rw [hh] <;> rfl)
      (by rcases hh with hh | hh <;> rw [hh] <;> decide) (.inr (.inr rfl))).1
  | next s => exact hin.step_next hp
  | drop s =>
    obtain ⟨hh, ⟨⟩⟩ := ite_none_right_eq_some.mp hp
    exact (hin.drop hh).1
  | settle e =>
    obtain ⟨hme, ⟨⟩⟩ := ite_none_right_eq_some.mp hp
    exact { hin with ledger := hin.ledger.settle hme }
  | abort rid => exact hin.step_abort hp
  | sendAbort ts ok => exact hin.step_sendAbort hp
  | take e =>
    simp only [StreamRun.step] at hp
    split at hp
    · cases hp
    · next hq =>
      cases hp
      exact hin.take hq
  | produce e s ls =>
    obtain ⟨hme, ⟨⟩⟩ := ite_none_right_eq_some.mp hp
    exact hin.produce hme
  | receive e =>
    simp only [StreamRun.step] at hp
    split at hp
    · cases hp
    · next hot =>
      cases hp
      exact (hin.receive hot).1
  | close =>
    cases hp
    exact { hin with ledger := hin.ledger.close }
  | drain =>
    obtain ⟨hc, ⟨⟩⟩ := ite_none_right_eq_some.mp hp
    exact { hin with ledger := hin.ledger.drain hc hd }
  | finish s =>
    obtain ⟨hme, ⟨⟩⟩ := ite_none_right_eq_some.mp hp
    refine ⟨hin.ledger.finish hme, hin.located, hin.single, { hin.own with items := fun t u ls him => ?_ }⟩
    rcases mem_put him with him | ⟨_, him⟩
    · exact hin.own.items t u ls him
    · cases him

/-! ## What follows -/

theorem Inv.removed {event} (hp : h.step req event = some h') (hs : s ∈ h.requests) (hg : s ∉ h'.requests) :
    h.Removes s event := by
  have her : ∀ {t}, h'.requests = h.requests.erase t → t = s := fun {t} hr => by
    by_contra hn
    rw [hr] at hg
    exact hg ((mem_erase_of_ne (Ne.symm hn)).mpr hs)
  cases event with
  | sendFailed t =>
    obtain ⟨hh, ⟨⟩⟩ := ite_none_right_eq_some.mp hp
    exact her (hin.forget (by rcases hh with hh | hh <;> rw [hh] <;> rfl)
      (by rcases hh with hh | hh <;> rw [hh] <;> decide) (.inr (.inr rfl))).2
  | drop t =>
    obtain ⟨hh, ⟨⟩⟩ := ite_none_right_eq_some.mp hp
    exact her (hin.drop hh).2
  | receive e =>
    simp only [StreamRun.step] at hp
    split at hp
    · cases hp
    · next row rest ht =>
      cases hp
      have hr := (hin.receive ht).2
      cases hl : row.last with
      | false =>
        rw [hl] at hr
        exact absurd (by rw [hr]; exact hs) hg
      | true =>
        rw [hl, if_pos rfl] at hr
        have hw : row = ⟨s, true⟩ := by rw [← her hr, ← hl]
        simp [Removes, ht, hw]
  | drain => trivial
  | insert t =>
    obtain ⟨_, hp⟩ := ite_none_right_eq_some.mp hp
    split at hp <;> cases hp
    · exact absurd hs hg
    · exact absurd (mem_append_left _ hs) hg
  | next t =>
    obtain ⟨_, hp⟩ := ite_none_right_eq_some.mp hp
    split at hp
    · cases hp
      exact absurd hs hg
    · obtain ⟨_, ⟨⟩⟩ := ite_none_left_eq_some.mp hp
      exact absurd hs hg
  | abort rid =>
    simp only [StreamRun.step] at hp
    split at hp <;> cases hp <;> exact absurd hs hg
  | sendAbort ts ok =>
    obtain ⟨_, hp⟩ := ite_none_right_eq_some.mp hp
    cases ok <;> cases hp <;> exact absurd hs hg
  | take e =>
    simp only [StreamRun.step] at hp
    split at hp
    · cases hp
    · next m _ _ =>
      cases m <;> cases hp <;> exact absurd hs hg
  | call | close =>
    cases hp
    exact absurd hs hg
  | count _ | deliver _ | sent _ | settle _ | produce _ _ _ | finish _ =>
    obtain ⟨_, ⟨⟩⟩ := ite_none_right_eq_some.mp hp
    exact absurd hs hg

theorem Inv.separate : h.Separate req := by
  refine ⟨hin.own.yielded, fun ev h' hs s => hin.removed hs, hin.own.aborted, fun hse e => ?_, fun e => ?_,
    fun hh => ?_⟩
  · obtain ⟨hp, howed, hd⟩ := hse
    have hc := hin.ledger.count e
    rw [howed, hd, countP_congr (q := fun s => (req s).engine = e) fun s _ => by simp [hp s]] at hc
    simpa using hc
  · rw [hin.ledger.count e]
    exact Int.natCast_nonneg _
  · have hn := (hin.ledger.afterShut hh).2.1
    refine ⟨hn, fun s hop hd => ?_⟩
    rcases hin.ledger.covered s hop with hm | hm | him
    · rw [hn] at hm
      cases hm
    · exact absurd hm hd
    · exact him

end Inv

theorem Inv.start : Inv req {} := by
  refine ⟨⟨nodup_nil, by simp, by simp, ?_, ?_, fun _ _ => rfl, by simp, by simp, by simp, by simp⟩,
    ⟨by simp, by simp, by simp, by simp⟩, ?_, ⟨by simp, by simp, by simp⟩⟩
  · intro s hp
    cases hp
  · intro s hh
    cases hh
  · rintro s t (hs | ⟨e, m, hm, _⟩ | ⟨e, hm⟩ | ⟨e, row, hr, _⟩ | ⟨ts, ht, _⟩)
    · cases hs
    · cases hm
    · cases hm
    · cases hr
    · cases ht

end TokenSpeed.Client.StreamRun

import TokenSpeed.Scheduler.Lemmas.CallMoves
import TokenSpeed.Scheduler.Lemmas.Capacity
import TokenSpeed.Scheduler.Lemmas.Serving

/-!
# What every reachable state keeps

A run is a sequence of moves from the state the constructor leaves.
-/

namespace TokenSpeed

namespace Scheduler

variable {s s' : Scheduler}

def Moved (may : May) (s s' : Scheduler) : Prop := ∃ out, Moves may s.core out s'.core

variable {may : May}

theorem Moved.refl (s) : Moved may s s := ⟨[], Moves.refl _⟩

theorem Moved.trans {s''} (h : Moved may s s') (h' : Moved may s' s'') : Moved may s s'' := by
  obtain ⟨out, h⟩ := h
  obtain ⟨out', h'⟩ := h'
  exact ⟨out ++ out', h.trans h'⟩

theorem Moved.idsNodup (h : Moved may s s') (hs : s.IdsNodup) : s'.IdsNodup := by
  obtain ⟨out, h⟩ := h
  exact h.idsNodup hs

theorem advance_moved (ht : may.tear) (hd : s.IdsNodup) (events) : Ensures (s.advance events) (Moved may s) := by
  have hn : Ensures (events.foldlM handleEvent s) (Moved may s) := by
    refine .foldlM_keep (Moved may s) (Moved.refl s) fun event _ s' h => ?_
    exact (handleEvent_moves (h.idsNodup hd) event fun _ => ht).mono fun s'' h' => h.trans ⟨_, h'⟩
  exact hn.bind fun s' h => (settleFinishedRequests_moves s').mono fun s'' h' => h.trans ⟨[], h'⟩

theorem call_moved (ht : may.tear) (hn : s.IdsNodup) {c} (hj : ∀ specs, c = .submit specs → may.join) :
    Ensures (s.call c) fun x => Moved may s x.2 := by
  cases c with
  | submit specs => exact (submitRequests_moves s (hj specs rfl) specs).bind fun s' h => .pure ⟨[], h⟩
  | plan =>
    refine .bind (@nextExecutionPlan_moves may s) fun x h => .pure ?_
    obtain ⟨ops, _, h⟩ := h
    exact ⟨_, h⟩
  | advance events => exact (advance_moved ht hn events).bind fun s' h => .pure h
  | clear includeHost =>
    refine (clearCache_core s includeHost).bind fun x h => .pure ⟨[], ?_⟩
    exact Silent.of_core h

structure Initial (s : Scheduler) : Prop where
  made : ∃ config sha256 tokens, s = ofConfig config sha256 tokens
  valid : ConfigValid s.config.toSchedulerConfig

theorem make_initial (config) (sha256 : List Nat → List Nat) : Ensures (make config sha256) Initial := by
  intro s hs
  obtain ⟨_, hv, hs⟩ := bind_ok.mp hs
  obtain ⟨_, hn, _⟩ := bind_ok.mp hv
  obtain ⟨md, _, hs⟩ := bind_ok.mp hs
  obtain ⟨tokens, _, hs⟩ := bind_ok.mp hs
  cases hs
  exact ⟨⟨config, sha256, tokens, rfl⟩, (SchedulerConfig.validateCapacityInputs_ok hn).1⟩

structure Reached (s₀ s : Scheduler) : Prop where
  initial : Initial s₀
  moved : Moved .all s₀ s
  idsNodup : s.IdsNodup

theorem Initial.reached (h : Initial s) : Reached s s := by
  refine ⟨h, Moved.refl s, ?_⟩
  obtain ⟨config, sha256, tokens, rfl⟩ := h.made
  exact List.nodup_nil

variable {s₀ : Scheduler}

theorem Reached.config (h : Reached s₀ s) : s.config = s₀.config := by
  obtain ⟨out, hm⟩ := h.moved
  exact hm.config.1

theorem Reachable.reached (h : Reachable s) : ∃ s₀, Reached s₀ s := by
  obtain ⟨config, sha256, s₀, hm, hs⟩ := h
  refine ⟨s₀, ?_⟩
  induction hs with
  | refl => exact (make_initial config sha256 s₀ hm).reached
  | tail _ st ih =>
    obtain ⟨c, pl, hc⟩ := st
    have hd : Moved .all _ _ := call_moved trivial ih.idsNodup (fun _ _ => trivial) _ hc
    exact ⟨ih.initial, ih.moved.trans hd, hd.idsNodup ih.idsNodup⟩

theorem Reached.valid (h : Reached s₀ s) : ConfigValid s.config.toSchedulerConfig :=
  h.config.symm ▸ h.initial.valid

variable {plans : List ExecutionPlan} {calls : List Call}

theorem run_steps (h : s.run calls = .ok (plans, s')) : Relation.ReflTransGen Step s s' := by
  induction calls generalizing s plans with
  | nil => cases h; exact .refl
  | cons c calls ih =>
    obtain ⟨⟨pl, s1⟩, hc, h⟩ := bind_ok.mp h
    obtain ⟨⟨p1, s2⟩, hr, h⟩ := bind_ok.mp h
    cases h
    exact .head ⟨c, pl, hc⟩ (ih hr)

def runFrom (config : EngineConfig) (sha256 : List Nat → List Nat) (calls : List Call) :
    Result (List ExecutionPlan × Scheduler) := do
  let s ← make config sha256
  s.run calls

theorem runFrom_reachable {config} {sha256 : List Nat → List Nat} (h : runFrom config sha256 calls = .ok (plans, s)) :
    Reachable s := by
  obtain ⟨s₀, hm, hr⟩ := bind_ok.mp h
  exact ⟨config, sha256, s₀, hm, run_steps hr⟩

end Scheduler

end TokenSpeed

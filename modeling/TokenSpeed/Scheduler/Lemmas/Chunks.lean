import TokenSpeed.Scheduler.Chunks
import TokenSpeed.Scheduler.Lemmas.Candidates

/-!
# What each cutting rule keeps

A rule after the first only shortens a chunk to an end at or before the in-forward checkpoint, where the
whole final window is still to come.
-/

namespace TokenSpeed

theorem chunkKeepingFinalWindow_ok (tokens unscheduled window) (h : tokens ≤ unscheduled) :
    ∃ kept, chunkKeepingFinalWindow tokens unscheduled window = .ok kept ∧
      (kept = tokens ∧ (tokens = unscheduled ∨ tokens + window ≤ unscheduled) ∨
        kept = unscheduled - window ∧ tokens < unscheduled ∧ unscheduled < tokens + window) := by
  unfold chunkKeepingFinalWindow
  rw [decide_eq_true h]
  by_cases hn : window = 0 ∨ unscheduled - tokens = 0 ∨ window ≤ unscheduled - tokens
  · exact ⟨tokens, if_pos hn, .inl ⟨rfl, by omega⟩⟩
  · exact ⟨_, if_neg hn, .inr ⟨rfl, by omega, by omega⟩⟩

namespace Scheduler

variable {s : Scheduler} {prompt firstPos junction tokens : Nat} {resumesHit : Bool} {budget : Int}

theorem prefillChunkTokens_cutsWell (s : Scheduler) (resumesHit) (junction) (hb : 0 ≤ budget)
    (hs : firstPos ≤ prompt) :
    ∃ tokens, prefillChunkTokens s.coord firstPos resumesHit (prompt - firstPos) budget junction = .ok tokens ∧
      s.CutsWell prompt firstPos resumesHit budget junction tokens := by
  have hr : s.refedTokens firstPos resumesHit ≤ s.coord.replayWindowTokens := by
    unfold refedTokens
    split
    · exact Nat.min_le_left _ _
    · exact Nat.zero_le _
  have hm : minPrefillChunkTokens s.coord = 0 ∧ s.coord.replayWindowTokens = 0 ∨
      2 * s.coord.replayWindowTokens ≤ minPrefillChunkTokens s.coord := by
    unfold minPrefillChunkTokens
    simp only
    split <;> omega
  unfold prefillChunkTokens
  rw [decide_eq_true hb, ← refedTokens]
  by_cases hn : budget.toNat - s.refedTokens firstPos resumesHit = 0
  · refine ⟨0, if_pos hn, hs, nofun, nofun, ?_, ?_⟩ <;> omega
  rw [if_neg hn]
  generalize hp : min (budget.toNat - s.refedTokens firstPos resumesHit) (prompt - firstPos) = plain
  have hc : cutAtJunction firstPos plain junction = plain ∧ (firstPos < junction → firstPos + plain ≤ junction) ∨
      cutAtJunction firstPos plain junction = junction - firstPos ∧ firstPos < junction ∧
        junction < firstPos + plain := by
    unfold cutAtJunction
    split <;> omega
  obtain ⟨kp, hk, hcases⟩ := chunkKeepingFinalWindow_ok (cutAtJunction firstPos plain junction)
    (prompt - firstPos) s.coord.replayWindowTokens (by omega)
  by_cases hke : 0 < kp ∨ cutAtJunction firstPos plain junction = plain
  · refine ⟨kp, bind_ok.mpr ⟨(), rfl, bind_ok.mpr ⟨kp, hk, if_pos hke⟩⟩, by omega, by omega,
      fun _ => ?_, fun _ _ _ _ _ hd => ?_, by omega⟩
    · unfold mayEndAt
      omega
    · omega
  · obtain ⟨wh, hw, hcases'⟩ := chunkKeepingFinalWindow_ok plain
      (prompt - firstPos) s.coord.replayWindowTokens (by omega)
    refine ⟨wh, bind_ok.mpr ⟨(), rfl, bind_ok.mpr ⟨kp, hk, (if_neg hke).trans hw⟩⟩, by omega,
      by omega, fun _ => ?_, fun _ _ _ _ _ hd => ?_, by omega⟩
    · unfold mayEndAt
      omega
    · unfold mayEndAt at hd
      omega

def CutTo (firstPos checkpoint tokens cut : Nat) : Prop :=
  cut = tokens ∨ 0 < cut ∧ cut ≤ tokens ∧ firstPos + cut ≤ checkpoint

theorem chunkToward_cutTo (checkpoint firstPos tokens junction maxChunk granularity) :
    CutTo firstPos checkpoint tokens
      (chunkTowardInForwardCheckpoint checkpoint firstPos tokens junction maxChunk granularity) := by
  have hp := Nat.div_mul_le_self (firstPos + tokens) granularity
  unfold chunkTowardInForwardCheckpoint CutTo
  grind

theorem tokensWithoutCheckpoint_cutTo (s : Scheduler) (firstPos checkpoint tokens) :
    CutTo firstPos checkpoint tokens (s.tokensWithoutCheckpoint firstPos checkpoint tokens) := by
  unfold tokensWithoutCheckpoint
  split
  next hw =>
    have := of_decide_eq_true hw
    exact .inr (by omega)
  next => exact .inl rfl

theorem CutTo.trans {checkpoint cut cut'} (h : CutTo firstPos checkpoint tokens cut)
    (h' : CutTo firstPos checkpoint cut cut') : CutTo firstPos checkpoint tokens cut' := by
  unfold CutTo at *
  omega

theorem inForwardStateCheckpoint_window (s : Scheduler) (prompt) :
    inForwardStateCheckpoint s.config s.coord prompt = 0 ∨
      inForwardStateCheckpoint s.config s.coord prompt + s.coord.replayWindowTokens ≤ prompt := by
  unfold inForwardStateCheckpoint
  split
  · exact .inl rfl
  unfold prefillStateCheckpointTokens
  simp only
  generalize ht : max (max 1 s.coord.replayWindowTokens) s.config.prefixReplayTokens.toNat = tail
  have hp := Nat.div_mul_le_self (prompt - tail) s.coord.prefixGranularity
  split
  · exact .inl rfl
  · split
    · exact .inr (by omega)
    · exact .inl rfl

theorem CutsWell.cut (h : s.CutsWell prompt firstPos resumesHit budget junction tokens) {cut}
    (hc : CutTo firstPos (inForwardStateCheckpoint s.config s.coord prompt) tokens cut) :
    s.CutsWell prompt firstPos resumesHit budget junction cut := by
  rcases hc with rfl | ⟨hs, hle, hd⟩
  · exact h
  have hw := inForwardStateCheckpoint_window s prompt
  have hp := h.inPrompt
  have hb := h.inBudget (by omega)
  refine ⟨by omega, fun _ => by omega, fun _ => .inr (by omega), fun hl hcross => ?_, fun _ _ => hs⟩
  exact h.junction hl (by omega)

theorem scheduledChunk_cutsWell (s : Scheduler) (resumesHit) (junction) (bf)
    (hb : 0 ≤ budget) (hp : firstPos ≤ prompt) :
    ∃ tokens, s.scheduledChunk prompt firstPos resumesHit budget junction bf = .ok tokens ∧
      s.CutsWell prompt firstPos resumesHit budget junction tokens := by
  obtain ⟨tokens, ht, hc⟩ := prefillChunkTokens_cutsWell s resumesHit junction hb hp
  by_cases hz : tokens = 0
  · subst hz
    exact ⟨0, bind_ok.mpr ⟨0, ht, rfl⟩, hc⟩
  refine ⟨_, bind_ok.mpr ⟨tokens, ht, if_neg hz⟩, hc.cut ?_⟩
  cases bf with
  | true => exact chunkToward_cutTo _ _ _ _ _ _
  | false => exact (chunkToward_cutTo _ _ _ _ _ _).trans (tokensWithoutCheckpoint_cutTo s _ _ _)

theorem prefillRounds_complete {rounds : List ChunkRound} (hn : ∀ round ∈ rounds, round.enough) (hp : firstPos ≤ prompt)
    (hl : prompt ≤ firstPos + rounds.length) (resumesHit) :
    prefillRounds prompt resumesHit firstPos rounds = .ok prompt := by
  induction rounds generalizing firstPos resumesHit with
  | nil => exact congrArg _ (Nat.le_antisymm hp hl)
  | cons round rest ih =>
    have hro := hn round List.mem_cons_self
    unfold ChunkRound.enough at hro
    obtain ⟨tokens, ht, hc⟩ := scheduledChunk_cutsWell round.sched resumesHit round.junction round.blockFits
      (show 0 ≤ round.budget by omega) hp
    have hg := hc.progress
    rw [List.length_cons] at hl
    refine bind_ok.mpr ⟨tokens, ht, ?_⟩
    exact ih (fun r hr => hn r (List.mem_cons_of_mem _ hr)) hc.inPrompt (by omega) false

end Scheduler

/-! ## The chunks the scheduler grants -/

namespace Round

open Scheduler

variable {r : Round} {req : Request}

theorem admitFirstChunk_tokens (s : Scheduler) (req : Request) (probe : PrefixProbe) (shape : FirstChunkShape)
    (checkpoint tokens : Nat) :
    Ensures (s.admitFirstChunk req probe shape checkpoint tokens) fun x => ∀ admitted, x = some admitted →
      ∃ admission, s.admitWithCheckpoint req probe shape checkpoint tokens = .ok admission ∧ admitted.tokens =
        if admission.isSome then tokens else s.tokensWithoutCheckpoint shape.hitTokens checkpoint tokens := by
  refine .skip fun first hf => ?_
  cases first with
  | some txn => exact .pure fun _ h => ⟨_, hf, by cases h; rfl⟩
  | none =>
    refine .skip fun second _ => ?_
    cases second with
    | some txn => exact .pure fun _ h => ⟨_, hf, by cases h; rfl⟩
    | none => exact .pure nofun

theorem schedulePrefillFirstChunk_grants (r : Round) (req : Request) (remaining : Int) (reserve : Nat)
    (hr : r.sched.config.role ≠ .d) :
    Ensures (r.schedulePrefillFirstChunk req remaining reserve) fun x => ∀ chunk, x.1 = some chunk →
      r.GrantsFirst req remaining reserve chunk := by
  refine .ite (fun _ => .pure nofun) fun _ => .skip fun found hm => ?_
  refine .ite (fun _ => .pure nofun) fun _ => .assert fun _ => ?_
  refine .skip fun tokens ht => .ite (fun _ => .pure nofun) fun hn => ?_
  refine (admitFirstChunk_tokens _ _ _ _ _ _).bind fun a hd => ?_
  cases a with
  | none => exact .pure nofun
  | some admitted =>
    obtain ⟨admission, ha, hf⟩ := hd admitted rfl
    rw [firstChunkTokens, if_neg hr] at ht
    refine .bind ?_ fun x hx => .pure (by rintro _ ⟨⟩; exact hx)
    refine .assert fun _ => .assert fun _ => .skip fun _ _ => .pure ?_
    exact ⟨found, _, admission, hm, bind_ok.mpr ⟨tokens, ht, if_neg hn⟩, ha, rfl,
      bind_ok.mpr ⟨tokens, ht, (if_neg hn).trans (congrArg Except.ok hf.symm)⟩⟩

theorem admitChunk_tokens (r : Round) (step : ResidentStep) (unscheduled reserve firstPos checkpoint tokens : Nat) :
    Ensures (r.admitChunk step unscheduled reserve firstPos checkpoint tokens) fun x => ∀ chunk, x.1 = some chunk →
      ∃ admission, r.admitChunkWithCheckpoint step unscheduled reserve firstPos checkpoint tokens = .ok admission ∧
        chunk.tokens =
          if admission.isSome then tokens else r.sched.tokensWithoutCheckpoint firstPos checkpoint tokens := by
  refine .skip fun first hf => ?_
  cases first with
  | some txn => exact .skip fun _ _ => .pure fun _ h => ⟨_, hf, by cases h; rfl⟩
  | none =>
    refine .skip fun second _ => ?_
    cases second with
    | some txn => exact .skip fun _ _ => .pure fun _ h => ⟨_, hf, by cases h; rfl⟩
    | none => exact .skip fun _ _ => .pure nofun

theorem Started.granularity {r1 : Round} {st} (h : Started r req st r1) :
    r1.sched.coord.prefixGranularity = r.sched.coord.prefixGranularity := by
  obtain ⟨c, hc, rfl⟩ := h.coord
  unfold copyDueCheckpoint at hc
  split at hc
  · refine Ensures.foldlM_keep (fun c : CacheCoordinator => c.prefixGranularity = r.sched.coord.prefixGranularity) rfl
      (fun l _ c' h => ?_) c hc
    exact Ensures.skip fun _ _ => ensures_pure.mpr h
  · cases hc
    rfl

theorem schedulePrefill_grants (r : Round) (req : Request) (remaining : Int) (reserve : Nat) :
    Ensures (r.schedulePrefill req remaining reserve) fun x => ∀ chunk, x.1 = some chunk →
      r.Grants req remaining reserve chunk := by
  have hp : req.prefillSize - (req.prefillSize - req.unscheduledPrefillSize) = req.unscheduledPrefillSize := by
    unfold Request.unscheduledPrefillSize
    split <;> omega
  refine .skip fun resources hres => .skip fun tokens ht => ?_
  refine .ite (fun _ => .pure nofun) fun hn => ?_
  refine .skip fun x hx => (admitChunk_tokens _ _ _ _ _ _ _).mono fun y hy => ?_
  intro chunk hc
  obtain ⟨admission, ha, hf⟩ := hy chunk hc
  rw [tokensWithoutCheckpoint, (startStep_ensures _ _ _ _ _ _ hx).granularity] at hf
  have hcut : prefillChunkTokens r.sched.coord (req.prefillSize - req.unscheduledPrefillSize) false
      (req.prefillSize - (req.prefillSize - req.unscheduledPrefillSize)) remaining
      resources.cacheProgress.junctionTokens = .ok tokens := by
    rw [hp]
    exact ht
  exact ⟨resources, x.1, x.2, _, admission, hres, bind_ok.mpr ⟨tokens, hcut, if_neg hn⟩, ⟨_, _, _, hx⟩, ha,
    bind_ok.mpr ⟨tokens, hcut, (if_neg hn).trans (congrArg Except.ok hf.symm)⟩⟩

end Round

end TokenSpeed

import Mathlib.Data.List.Forall2
import TokenSpeed.Logic.Ensures
import TokenSpeed.Scheduler.Lemmas.Capacity

/-!
# The scheduler

The bounds of the capacity model.
-/

namespace TokenSpeed.CapacityModel

open List Int

variable {α : Type}

/-- Two bounds computed group by group compare as their groups do. -/
theorem mapM_le {f f' : α → Result Int} : ∀ {l : List α},
    (∀ x ∈ l, ∃ v v', f x = .ok v ∧ f' x = .ok v' ∧ v ≤ v') →
      ∃ out out', l.mapM f = .ok out ∧ l.mapM f' = .ok out' ∧ Forall₂ (· ≤ ·) out out'
  | [], _ => ⟨[], [], rfl, rfl, .nil⟩
  | x :: l, h => by
    obtain ⟨v, v', hv, hv', hle⟩ := h x mem_cons_self
    obtain ⟨out, out', ht, ht', hl⟩ := mapM_le fun y hy => h y (mem_cons_of_mem _ hy)
    refine ⟨v :: out, v' :: out', ?_, ?_, .cons hle hl⟩
    · rw [mapM_cons, hv, ht]
      rfl
    · rw [mapM_cons, hv', ht']
      rfl

theorem assert_bind {c ms} {f : Unit → Result α} (hc : c = true) : (assert c ms >>= f) = f () := by
  subst hc
  rfl

variable {m : CapacityModel}

variable {limit : Int}

theorem singleRequestGroupPages_eq (hl : 0 ≤ limit) : m.singleRequestGroupPages limit =
    (m.config.cacheGroups.zip m.groups).mapM (m.singleGroupPages limit) :=
  assert_bind (decide_eq_true hl)

variable {total context : Int}

variable {entry : CacheGroupConfig × CapacityGroup}

theorem singleGroupPages_mono (h : ModelOk m) {limit'} (hl : 0 ≤ limit) (hle : limit ≤ limit') (he : EntryOk entry) :
    ∃ v v', m.singleGroupPages limit entry = .ok v ∧ m.singleGroupPages limit' entry = .ok v' ∧ v ≤ v' := by
  rcases singleGroupPages_ok h he hl with ⟨hk, hv⟩ | ⟨handover, hk, hh, hn, hv⟩
  · obtain ⟨-, hv'⟩ := (singleGroupPages_ok h he (hl.trans hle)).resolve_right fun ⟨_, hk', _⟩ => hk' hk
    refine ⟨_, _, hv, hv', ?_⟩
    split
    · split
      · decide
      · decide
    · rw [if_neg (by omega)]
  · obtain ⟨_, -, hh', -, hv'⟩ := (singleGroupPages_ok h he (hl.trans hle)).resolve_left fun hk' => hk hk'.1
    cases hh.symm.trans hh'
    refine ⟨_, _, hv, hv', add_le_add ?_ (history_mono (granularity_pos he hk) hle)⟩
    split
    · split
      · exact le_rfl
      · exact hn
    · rw [if_neg (by omega)]

/-- One group of each kind, a chunk shorter than the prompt, an overlapped speculative decode. -/
def mixedConfig : SchedulerConfig where
  prefixGranularity := 8
  cacheGroups :=
    [{ groupId := "full", blockGranularity := 4 },
      { groupId := "window", blockGranularity := 2, attnKind := .slidingWindow, slidingWindowTokens := some 5 },
      { groupId := "state", attnKind := .state }]
  maxScheduledTokens := 6
  maxBatchSize := 1
  decodeInputTokens := 2
  overlapScheduleDepth := 1

/-- The parents one request of `limit` tokens takes. -/
def lcmBlocksOf (m : CapacityModel) (limit : Int) : Result Int :=
  m.singleRequestGroupPages limit >>= m.lcmBlocksNeededFor

def FitsPool (m : CapacityModel) (usable limit : Int) : Prop := ∃ n, m.lcmBlocksOf limit = .ok n ∧ n ≤ usable

theorem history_nonneg (h : ModelOk m) (he : EntryOk entry) (hk : entry.1.attnKind ≠ .state) (hl : 0 ≤ limit) :
    0 ≤ m.history entry.1 entry.2 limit := by
  have hg := granularity_pos he hk
  have hp := protectedTokens_nonneg h
  have hd : 0 ≤ m.decodeWidth := h.config.decode
  have hc := h.config.scheduled_pos
  have hr : 0 ≤ m.maxPromptTokens limit := le_max_right _ _
  have hlo := he.lookback.1
  unfold history
  split
  · exact pages_nonneg hg (by omega)
  · rename_i hcl
    split
    · have hw := he.valid.window (he.sliding (Bool.eq_false_iff.mpr hcl) hk)
      exact le_min (pages_nonneg hg (by omega)) (add_nonneg hlo (pages_nonneg hg (by omega)))
    · have hf : 0 ≤ pages (min (m.maxPromptTokens limit) m.config.maxScheduledTokens +
          (m.decodeWidth + m.protectedTokens)) entry.2.blockGranularity := pages_nonneg hg (by omega)
      unfold peak
      dsimp only
      split
      · exact (hf.trans (le_max_left _ _)).trans (le_max_left _ _)
      · exact hf

theorem singleGroupPages_nonneg (h : ModelOk m) (he : EntryOk entry) (hl : 0 ≤ limit) :
    Ensures (m.singleGroupPages limit entry) (0 ≤ ·) := by
  rcases singleGroupPages_ok h he hl with ⟨-, hs⟩ | ⟨handover, hk, -, hn, hs⟩
  · rw [hs, ensures_ok]
    split
    · decide
    · decide
  · rw [hs, ensures_ok]
    have := history_nonneg h he hk hl
    split
    · omega
    · omega

structure PackOk (m : CapacityModel) : Prop extends ModelOk m where
  paired : m.groups.length = m.config.cacheGroups.length
  packing : ∀ group ∈ m.groups, 0 < group.cacheBlocksPerLcmBlock

theorem packing_pos {group : CacheGroupConfig} (h : group.validateCapacityInputs = .ok ()) :
    Ensures (makeCapacityGroup group) (0 < ·.cacheBlocksPerLcmBlock) := by
  obtain ⟨_, -, h⟩ := bind_ok.mp h
  obtain ⟨_, -, h⟩ := bind_ok.mp h
  obtain ⟨_, hp, -⟩ := bind_ok.mp h
  rw [assert_ok] at hp
  exact .skip fun _ _ => .pure (of_decide_eq_true hp)

theorem make_packOk {config : SchedulerConfig} (h : config.validateCapacityInputs = .ok ())
    (hint : Int32Groups config) :
    ∃ m, make config = .ok m ∧ m.config = config ∧ PackOk m := by
  obtain ⟨m, hm, rfl, hok⟩ := make_ok h hint
  obtain ⟨_, -, hg⟩ := bind_ok.mp hm
  obtain ⟨groups, hg, he⟩ := bind_ok.mp hg
  have hp := (Ensures.mapM _ fun spec hx =>
    packing_pos ((SchedulerConfig.validateCapacityInputs_ok h).2 spec hx)).of_ok hg
  rw [show groups = m.groups from congrArg CapacityModel.groups (Except.ok.inj he)] at hp
  exact ⟨m, hm, rfl, hok, hp.1, hp.2⟩

theorem foldlM_pages_mono {f : Int → Int × CapacityGroup → Result Int} {small large : List Int}
    (hle : Forall₂ (· ≤ ·) small large) (hf : ∀ k v group, 0 ≤ v → 0 < group.cacheBlocksPerLcmBlock →
      f k (v, group) = .ok (k + pages v group.cacheBlocksPerLcmBlock)) :
    ∀ {groups k k'}, (∀ v ∈ small, 0 ≤ v) →
      (∀ group ∈ groups, 0 < group.cacheBlocksPerLcmBlock) → k ≤ k' →
        ∃ n n', (small.zip groups).foldlM f k = .ok n ∧ (large.zip groups).foldlM f k' = .ok n' ∧ n ≤ n' := by
  induction hle with
  | nil => exact fun _ _ hk => ⟨_, _, rfl, rfl, hk⟩
  | @cons v v' small large hv _ ih =>
    intro groups k k' hn hp hk
    cases groups with
    | nil => exact ⟨_, _, rfl, rfl, hk⟩
    | cons group groups =>
      have h0 := hn v mem_cons_self
      have hg := hp group mem_cons_self
      rw [zip_cons_cons, zip_cons_cons, foldlM_cons, foldlM_cons, hf _ _ _ h0 hg,
        hf _ _ _ (h0.trans hv) hg]
      exact ih (fun x hx => hn x (mem_cons_of_mem _ hx)) (fun x hx => hp x (mem_cons_of_mem _ hx))
        (add_le_add hk (pages_mono hg hv))

theorem lcmBlocksNeededFor_mono (h : PackOk m) {small large : List Int} (hle : Forall₂ (· ≤ ·) small large)
    (hn : ∀ v ∈ small, 0 ≤ v) (hs : small.length = m.groups.length) :
    ∃ n n', m.lcmBlocksNeededFor small = .ok n ∧ m.lcmBlocksNeededFor large = .ok n' ∧ n ≤ n' := by
  unfold lcmBlocksNeededFor
  rw [assert_bind (beq_iff_eq.mpr hs), assert_bind (beq_iff_eq.mpr (hle.length_eq.symm.trans hs))]
  refine foldlM_pages_mono hle (fun k v group hv hg => ?_) hn h.packing le_rfl
  rw [assert_bind (decide_eq_true hv), ceilDiv_ok hv hg]
  rfl

theorem lcmBlocksOf_mono (h : PackOk m) {limit' : Int} (hl : 0 ≤ limit) (hle : limit ≤ limit') :
    ∃ n n', m.lcmBlocksOf limit = .ok n ∧ m.lcmBlocksOf limit' = .ok n' ∧ n ≤ n' := by
  obtain ⟨small, large, hs, hb, hm⟩ :=
    mapM_le fun entry hen => singleGroupPages_mono h.toModelOk hl hle (h.entries entry hen)
  have hn := (Ensures.mapM _ fun entry hen => singleGroupPages_nonneg h.toModelOk (h.entries entry hen) hl).of_ok hs
  obtain ⟨n, n', hs', hb', hk⟩ := lcmBlocksNeededFor_mono h hm hn.2 (by rw [hn.1, length_zip, h.paired, min_self])
  refine ⟨n, n', ?_, ?_, hk⟩
  · unfold lcmBlocksOf
    rw [singleRequestGroupPages_eq hl, hs]
    exact hs'
  · unfold lcmBlocksOf
    rw [singleRequestGroupPages_eq (hl.trans hle), hb]
    exact hb'

theorem lcmBlocksOf_ok (h : PackOk m) (hl : 0 ≤ limit) : ∃ n, m.lcmBlocksOf limit = .ok n := by
  obtain ⟨n, -, hn, -⟩ := lcmBlocksOf_mono h hl le_rfl
  exact ⟨n, hn⟩

variable {usable : Int}

theorem FitsPool.mono (h : PackOk m) {limit'} (hf : m.FitsPool usable limit') (hl : 0 ≤ limit)
    (hle : limit ≤ limit') : m.FitsPool usable limit := by
  obtain ⟨n, n', hn, hn', hm⟩ := lcmBlocksOf_mono h hl hle
  obtain ⟨k, hk, hu⟩ := hf
  rw [hn'] at hk
  cases hk
  exact ⟨n, hn, hm.trans hu⟩

/-- The search keeps the answer between a length that fits, or zero, and one that does not. -/
theorem bisectTokens_ok (h : PackOk m) (usable) : ∀ fuel low high, 0 ≤ low → low ≤ high → high - low < 2 ^ fuel →
    (low = 0 ∨ m.FitsPool usable low) → (high < int32Max → ¬ m.FitsPool usable (high + 1)) →
      ∃ out, m.bisectTokens usable fuel low high = .ok out ∧ low ≤ out ∧ out ≤ high ∧
        (out = 0 ∨ m.FitsPool usable out) ∧ (out < int32Max → ¬ m.FitsPool usable (out + 1)) := by
  intro fuel
  induction fuel with
  | zero =>
    intro low high h0 hle hr hlow hhigh
    have he : low = high := by
      omega
    subst he
    exact ⟨low, rfl, le_rfl, le_rfl, hlow, hhigh⟩
  | succ fuel ih =>
    intro low high h0 hle hr hlow hhigh
    rw [pow_succ] at hr
    unfold bisectTokens
    by_cases hlt : low < high
    · rw [if_pos hlt]
      obtain ⟨n, hn⟩ : ∃ n, m.lcmBlocksOf (low + (high - low + 1) / 2) = .ok n := lcmBlocksOf_ok h (by omega)
      dsimp only
      rw [show (m.singleRequestGroupPages (low + (high - low + 1) / 2) >>= m.lcmBlocksNeededFor) = .ok n from hn]
      show ∃ out, (if n ≤ usable then _ else _) = _ ∧ _
      by_cases hu : n ≤ usable
      · rw [if_pos hu]
        obtain ⟨out, ho, hl, hrest⟩ := ih _ high (by omega) (by omega) (by omega) (.inr ⟨n, hn, hu⟩) hhigh
        exact ⟨out, ho, by omega, hrest⟩
      · rw [if_neg hu]
        obtain ⟨out, ho, hl, hb, hrest⟩ :=
          ih low (low + (high - low + 1) / 2 - 1) h0 (by omega) (by omega) hlow (fun _ hf => by
          obtain ⟨k, hk, hku⟩ := hf
          rw [sub_add_cancel, hn] at hk
          cases hk
          exact hu hku)
        exact ⟨out, ho, hl, by omega, hrest⟩
    · have he : low = high := by omega
      subst he
      rw [if_neg hlt]
      exact ⟨low, rfl, le_rfl, le_rfl, hlow, hhigh⟩

/-! ### The numbers of a probe -/

/-- What the source computes in `int32_t`: the probed length, and for a sliding group the rows behind the window's
last and the constructor's doubling. -/
def int32Values (limit : Int) (spec : CacheGroupConfig) : List Int :=
  limit :: if spec.attnKind = .slidingWindow then
    [spec.slidingWindowTokens.getD 0 - 1, spec.blockGranularity - 1, 2 * (spec.blockGranularity - 1)] else []

theorem int32Values_bounded {config : SchedulerConfig} (hc : Int32Groups config) {spec}
    (hs : spec ∈ config.cacheGroups) (hv : GroupValid spec) (hl : 0 ≤ limit) (hle : limit ≤ int32Max) :
    ∀ v ∈ int32Values limit spec, 0 ≤ v ∧ v ≤ int32Max := by
  obtain ⟨hw, hd⟩ := hc spec hs
  intro v hm
  rcases mem_cons.mp hm with rfl | hm
  · exact ⟨hl, hle⟩
  · by_cases hk : spec.attnKind = .slidingWindow
    · have hg := hv.spanned (by rw [hk]; decide)
      have hp := hv.window hk
      have hb := hd hk
      rw [if_pos hk] at hm
      simp only [mem_cons, not_mem_nil, or_false] at hm
      unfold int32Max at *
      omega
    · rw [if_neg hk] at hm
      cases hm

/-- The search finds the longest request the pool holds: every length up to it fits and the next does not, unless
not even the decode reservation of an empty request fits, when it answers zero; and what a probe computes in
`int32_t` stays one. -/
theorem longest_request_exact {config : SchedulerConfig} (hvalid : config.validateCapacityInputs = .ok ())
    (hint : Int32Groups config) (usable : Int) : ∃ m longest, CapacityModel.make config = .ok m ∧
      m.maxSingleRequestTokens usable = .ok longest ∧ 0 ≤ longest ∧ longest ≤ int32Max ∧
      (m.FitsPool usable 0 → ∀ limit, 0 ≤ limit → limit ≤ longest → m.FitsPool usable limit) ∧
      (¬ m.FitsPool usable 0 → longest = 0) ∧
      (longest < int32Max → ∃ n, m.lcmBlocksOf (longest + 1) = .ok n ∧ usable < n) ∧
      ∀ limit : Int, 0 ≤ limit → limit ≤ int32Max → ∀ group ∈ config.cacheGroups, ∀ v ∈ int32Values limit group,
        0 ≤ v ∧ v ≤ int32Max := by
  obtain ⟨m, hm, rfl, hok⟩ := make_packOk hvalid hint
  obtain ⟨longest, ho, h0, hle, hf, hn⟩ :=
    bisectTokens_ok hok usable 32 0 int32Max le_rfl (by decide) (by decide) (.inl rfl)
    fun h => absurd h (lt_irrefl _)
  refine ⟨m, longest, hm, ho, h0, hle, fun hz limit hl hll => ?_, fun hz => ?_, fun hlt => ?_,
    fun limit hl hll group hg => int32Values_bounded hint hg (hok.config.groups group hg) hl hll⟩
  · rcases hf with rfl | hf
    · rwa [le_antisymm hll hl]
    · exact hf.mono hok hl hll
  · rcases hf with rfl | hf
    · rfl
    · exact absurd (hf.mono hok le_rfl h0) hz
  · obtain ⟨n, hne⟩ := lcmBlocksOf_ok hok (add_nonneg h0 Int.one_nonneg)
    exact ⟨n, hne, not_le.mp fun hu => hn hlt ⟨n, hne, hu⟩⟩

/-- A pool without parents holds no request, but the empty one's decode reservation is a page. -/
theorem longest_request_unfit : mixedConfig.validateCapacityInputs = .ok () ∧ Int32Groups mixedConfig ∧
    ∃ m, CapacityModel.make mixedConfig = .ok m ∧ m.maxSingleRequestTokens 0 = .ok 0 ∧
      ∃ n, m.lcmBlocksOf 0 = .ok n ∧ 0 < n := by
  refine ⟨rfl, by decide, _, rfl, ?_, _, rfl, by decide⟩
  decide +kernel

theorem longest_request_exact_mixed : mixedConfig.validateCapacityInputs = .ok () ∧ Int32Groups mixedConfig ∧
    ∃ m longest, CapacityModel.make mixedConfig = .ok m ∧ m.maxSingleRequestTokens 20 = .ok longest ∧
      ∀ limit, 0 ≤ limit → limit ≤ longest → m.FitsPool 20 limit := by
  have hc : Int32Groups mixedConfig := by decide
  refine ⟨rfl, hc, ?_⟩
  obtain ⟨m, longest, hm, hl, -, -, hf, -⟩ := longest_request_exact rfl hc 20
  cases hm
  exact ⟨_, longest, rfl, hl, hf ⟨_, rfl, by decide⟩⟩

end TokenSpeed.CapacityModel

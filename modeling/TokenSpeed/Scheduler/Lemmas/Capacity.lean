import TokenSpeed.Scheduler.CapacityModel

/-!
# The pages of the capacity model

Under a validated configuration no rounding assertion fails, so each bound is a value; the values are
compared through `pages_le_iff`.
-/

namespace TokenSpeed

open List Int

/-! ## Rounding up -/

/-- The pages of `g` tokens that hold `a` tokens. -/
def pages (a g : Int) : Int := (a + g - 1) / g

variable {a b g k : Int}

theorem ceilDiv_ok (ha : 0 ≤ a) (hg : 0 < g) : ceilDiv a g = .ok (pages a g) := by
  unfold ceilDiv assert
  rw [if_pos (by rw [Bool.and_eq_true, decide_eq_true_iff, decide_eq_true_iff]; exact ⟨ha, hg⟩)]
  rfl

theorem pages_le_iff (hg : 0 < g) : pages a g ≤ k ↔ a ≤ k * g := by
  unfold pages
  rw [← lt_add_one_iff, Int.ediv_lt_iff_lt_mul hg, add_mul, Int.one_mul]
  omega

theorem le_pages_mul (hg : 0 < g) (a) : a ≤ pages a g * g := (pages_le_iff hg).mp le_rfl

theorem pages_mono (hg : 0 < g) (h : a ≤ b) : pages a g ≤ pages b g :=
  (pages_le_iff hg).mpr (h.trans (le_pages_mul hg b))

theorem pages_nonneg (hg : 0 < g) (ha : 0 ≤ a) : 0 ≤ pages a g :=
  ediv_nonneg (by omega) hg.le

theorem pages_le_self (hg : 0 < g) (ha : 0 ≤ a) : pages a g ≤ a :=
  (pages_le_iff hg).mpr (le_mul_of_one_le_right ha hg)

theorem pages_spill_le (hg : 0 < g) (ha : 0 ≤ a) : pages (a + g - 1) g ≤ a + 1 := by
  have := le_mul_of_one_le_right ha hg
  rw [pages_le_iff hg, add_mul]
  omega

structure GroupValid (group : CacheGroupConfig) : Prop where
  spanned : group.attnKind ≠ .state → 0 < group.blockGranularity
  state : group.attnKind = .state → group.blockGranularity = 0
  window : group.attnKind = .slidingWindow → 0 < group.slidingWindowTokens.getD 0

structure ConfigValid (config : SchedulerConfig) : Prop where
  prefix_pos : 0 < config.prefixGranularity
  batch : 0 ≤ config.maxBatchSize
  decode : 0 ≤ config.decodeInputTokens
  scheduled_pos : 0 < config.maxScheduledTokens
  depth : 0 ≤ config.overlapScheduleDepth
  depth_le : config.overlapScheduleDepth ≤ 1
  groups : ∀ group ∈ config.cacheGroups, GroupValid group

variable {group : CacheGroupConfig}

theorem CacheGroupConfig.validateCapacityInputs_ok (h : group.validateCapacityInputs = .ok ()) : GroupValid group := by
  obtain ⟨_, -, h⟩ := bind_ok.mp h
  obtain ⟨_, hs, h⟩ := bind_ok.mp h
  obtain ⟨_, -, h⟩ := bind_ok.mp h
  obtain ⟨_, -, h⟩ := bind_ok.mp h
  obtain ⟨_, hn, -⟩ := bind_ok.mp h
  unfold CacheGroupConfig.checkSpan at hs
  unfold CacheGroupConfig.checkWindow at hn
  refine ⟨fun hk => ?_, fun hk => ?_, fun hk => ?_⟩
  · rw [if_neg hk, assert_ok, decide_eq_true_iff] at hs
    exact hs
  · rw [if_pos hk, assert_ok, beq_iff_eq] at hs
    exact hs
  · rw [if_pos hk, assert_ok] at hn
    cases hw : group.slidingWindowTokens with
    | none => rw [hw] at hn; cases hn
    | some w =>
      rw [hw] at hn
      exact of_decide_eq_true hn

variable {config : SchedulerConfig}

theorem foldlM_visitGroup_ok : ∀ {grs : List CacheGroupConfig} {st sp},
    grs.foldlM config.visitGroup st = .ok sp → ∀ group ∈ grs, group.validateCapacityInputs = .ok ()
  | [], _, _, _ => nofun
  | group :: grs, st, sp, h => by
    obtain ⟨next, hv, hr⟩ := bind_ok.mp h
    intro x hx
    rcases mem_cons.mp hx with rfl | hm
    · obtain ⟨_, hl, -⟩ := bind_ok.mp hv
      obtain ⟨_, hg, -⟩ := bind_ok.mp hl
      exact hg
    · exact foldlM_visitGroup_ok hr x hm

theorem SchedulerConfig.validateCapacityInputs_ok (h : config.validateCapacityInputs = .ok ()) :
    ConfigValid config ∧ ∀ group ∈ config.cacheGroups, group.validateCapacityInputs = .ok () := by
  obtain ⟨_, hf, h⟩ := bind_ok.mp h
  obtain ⟨_, -, h⟩ := bind_ok.mp h
  obtain ⟨_, hb, h⟩ := bind_ok.mp h
  obtain ⟨_, hd, h⟩ := bind_ok.mp h
  obtain ⟨_, hs, h⟩ := bind_ok.mp h
  obtain ⟨_, ht, h⟩ := bind_ok.mp h
  obtain ⟨_, -, h⟩ := bind_ok.mp h
  obtain ⟨_, hg, -⟩ := bind_ok.mp h
  rw [assert_ok, decide_eq_true_iff] at hf hb hd hs
  rw [assert_ok, Bool.and_eq_true, decide_eq_true_iff, decide_eq_true_iff] at ht
  have hgs := foldlM_visitGroup_ok hg
  exact ⟨⟨hf, hb, hd, hs, ht.1, ht.2, fun group hm => CacheGroupConfig.validateCapacityInputs_ok (hgs group hm)⟩, hgs⟩

/-! ## The model's groups -/

structure EntryOk (entry : CacheGroupConfig × CapacityGroup) : Prop where
  valid : GroupValid entry.1
  granularity : entry.2.blockGranularity = entry.1.blockGranularity
  closed : entry.2.prefixClosed = true → entry.1.attnKind = .full
  sliding : entry.2.prefixClosed = false → entry.1.attnKind ≠ .state → entry.1.attnKind = .slidingWindow
  lookback : 0 ≤ entry.2.lookbackPages ∧ entry.2.lookbackPages ≤ max (entry.1.slidingWindowTokens.getD 0) 0 + 1

/-- A granularity up to `2 ^ 30` is doubled without a wrap. -/
theorem windowBlocks_bounds (h : GroupValid group)
    (hd : group.attnKind = .slidingWindow → group.blockGranularity ≤ 1073741824) :
    0 ≤ windowBlocks group ∧ windowBlocks group ≤ max (group.slidingWindowTokens.getD 0) 0 + 1 := by
  unfold windowBlocks
  split
  · rename_i hk
    have hg := h.spanned (by rw [hk.1]; decide)
    have hle := hd hk.1
    rw [wrapInt32, Int.bmod_eq_of_le (by omega) (by omega), Int.tdiv_eq_ediv_of_nonneg (by omega)]
    refine ⟨ediv_nonneg (by omega) hg.le, ?_⟩
    have hp := pages_spill_le hg (a := group.slidingWindowTokens.getD 0) (by omega)
    have hm : (group.slidingWindowTokens.getD 0 - 1 + 2 * (group.blockGranularity - 1)) / group.blockGranularity ≤
        pages (group.slidingWindowTokens.getD 0 + group.blockGranularity - 1) group.blockGranularity :=
      Int.ediv_le_ediv hg (by omega)
    omega
  · omega

theorem makeCapacityGroup_ok (h : GroupValid group)
    (hd : group.attnKind = .slidingWindow → group.blockGranularity ≤ 1073741824) :
    ∃ out, makeCapacityGroup group = .ok out ∧ EntryOk (group, out) := by
  have hl := windowBlocks_bounds h hd
  unfold makeCapacityGroup matcherIsPrefixClosed
  cases hk : group.attnKind with
  | full =>
    have hg := h.spanned (by rw [hk]; decide)
    simp only [assert, decide_eq_true hg, if_true]
    exact ⟨_, rfl, h, rfl, fun _ => hk, (fun h => by cases h), hl⟩
  | state =>
    have hg := h.state hk
    simp only [assert, hg, beq_self_eq_true, if_true]
    exact ⟨_, rfl, h, hg.symm, (fun h => by cases h), fun _ hn => absurd hk hn, hl⟩
  | slidingWindow =>
    have hg := h.spanned (by rw [hk]; decide)
    have hw := h.window hk
    simp only [assert, decide_eq_true hg, decide_eq_true hw, if_true]
    exact ⟨_, rfl, h, rfl, (fun h => by cases h), fun _ _ => hk, hl⟩

theorem mapM_makeCapacityGroup_ok {grs : List CacheGroupConfig} (h : ∀ group ∈ grs, GroupValid group)
    (hd : ∀ group ∈ grs, group.attnKind = .slidingWindow → group.blockGranularity ≤ 1073741824) :
    ∃ out, grs.mapM makeCapacityGroup = .ok out ∧ ∀ entry ∈ grs.zip out, EntryOk entry := by
  induction grs with
  | nil => exact ⟨[], mapM_nil, forall_mem_nil _⟩
  | cons group grs ih =>
    obtain ⟨first, hf, hk⟩ := makeCapacityGroup_ok (h group mem_cons_self) (hd group mem_cons_self)
    obtain ⟨rest, hr, hoks⟩ := ih (fun x hx => h x (mem_cons_of_mem _ hx)) fun x hx => hd x (mem_cons_of_mem _ hx)
    refine ⟨first :: rest, ?_, fun entry ht => ?_⟩
    · rw [mapM_cons, hf, hr]
      rfl
    · rcases mem_cons.mp ht with rfl | hm
      · exact hk
      · exact hoks entry hm

structure ModelOk (m : CapacityModel) : Prop where
  config : ConfigValid m.config
  entries : ∀ entry ∈ m.config.cacheGroups.zip m.groups, EntryOk entry

theorem CapacityModel.make_ok (h : config.validateCapacityInputs = .ok ()) (hint : Int32Groups config) :
    ∃ m, make config = .ok m ∧ m.config = config ∧ ModelOk m := by
  have hv := (SchedulerConfig.validateCapacityInputs_ok h).1
  obtain ⟨groups, hg, hentries⟩ := mapM_makeCapacityGroup_ok hv.groups fun group hm => (hint group hm).2
  refine ⟨{ config := config, groups := groups }, ?_, rfl, hv, hentries⟩
  unfold make
  rw [h, hg]
  rfl

/-! ## The bounds as values -/

namespace CapacityModel

variable {m : CapacityModel} {entry : CacheGroupConfig × CapacityGroup}

theorem protectedTokens_nonneg (h : ModelOk m) : 0 ≤ m.protectedTokens := by
  unfold protectedTokens
  split
  · exact le_rfl
  · exact mul_nonneg h.config.depth h.config.decode

theorem granularity_pos (h : EntryOk entry) (hk : entry.1.attnKind ≠ .state) : 0 < entry.2.blockGranularity := by
  rw [h.granularity]
  exact h.valid.spanned hk

theorem tailHandoverBlocks_ok (h : ModelOk m) (he : EntryOk entry) (hk : entry.1.attnKind ≠ .state) :
    ∃ blocks, m.tailHandoverBlocks entry.2 = .ok blocks ∧ 0 ≤ blocks ∧ blocks ≤ m.config.prefixGranularity := by
  have hg := granularity_pos he hk
  have ht : 0 ≤ m.config.prefixGranularity - 1 := by
    have := h.config.prefix_pos
    omega
  have hb : ∃ blocks, m.tailBlocks entry.2 = .ok blocks ∧ 0 ≤ blocks ∧ blocks ≤ m.config.prefixGranularity - 1 := by
    unfold tailBlocks
    split
    · exact ⟨_, rfl, ediv_nonneg ht hg.le, ediv_le_self _ ht⟩
    · rw [ceilDiv_ok ht hg]
      exact ⟨_, rfl, pages_nonneg hg ht, pages_le_self hg ht⟩
  obtain ⟨blocks, hb, hn, hle⟩ := hb
  have hlo := he.lookback.1
  unfold tailHandoverBlocks
  split
  · exact ⟨0, rfl, by omega⟩
  · rw [hb]
    refine ⟨_, rfl, ?_⟩
    split
    · omega
    · omega

def peak (m : CapacityModel) (group : CapacityGroup) (tokenLimit : Int) : Int :=
  let chunk := m.config.maxScheduledTokens
  let prompt := m.maxPromptTokens tokenLimit
  let reserved := m.decodeWidth + m.protectedTokens
  let first := pages (min prompt chunk + reserved) group.blockGranularity
  if chunk < prompt then
    max (max first (group.lookbackPages + pages chunk group.blockGranularity))
      (group.lookbackPages + pages (min (prompt - chunk) chunk + reserved) group.blockGranularity)
  else first

def history (m : CapacityModel) (spec : CacheGroupConfig) (group : CapacityGroup) (tokenLimit : Int) : Int :=
  if group.prefixClosed then pages (tokenLimit + m.protectedTokens) group.blockGranularity
  else if m.config.role = .d then
    min (pages (tokenLimit + m.protectedTokens) group.blockGranularity)
      (group.lookbackPages + pages (spec.slidingWindowTokens.getD 0 - 1 + m.decodeWidth + m.protectedTokens +
        group.blockGranularity - 1) group.blockGranularity)
  else m.peak group tokenLimit

variable {tokenLimit : Int}

theorem historyPages_ok (h : ModelOk m) (he : EntryOk entry) (hk : entry.1.attnKind ≠ .state) (hl : 0 ≤ tokenLimit) :
    m.historyPages entry.1 entry.2 tokenLimit = .ok (m.history entry.1 entry.2 tokenLimit) := by
  have hg := granularity_pos he hk
  have hp := protectedTokens_nonneg h
  have hd : 0 ≤ m.decodeWidth := h.config.decode
  have hh := h.config.scheduled_pos
  unfold historyPages history
  split
  · exact ceilDiv_ok (by omega) hg
  · rename_i hc
    split
    · have hw := he.valid.window (he.sliding (Bool.eq_false_iff.mpr hc) hk)
      unfold landingPages
      rw [ceilDiv_ok (by omega) hg, ceilDiv_ok (by omega) hg]
      rfl
    · have hr : 0 ≤ m.maxPromptTokens tokenLimit := le_max_right _ _
      unfold localPrefillPeak peak
      dsimp only
      rw [ceilDiv_ok (by omega) hg]
      split
      · rw [ceilDiv_ok (by omega) hg, ceilDiv_ok (by omega) hg]
        rfl
      · rfl

theorem singleGroupPages_ok (h : ModelOk m) (he : EntryOk entry) (hl : 0 ≤ tokenLimit) :
    (entry.1.attnKind = .state ∧
      m.singleGroupPages tokenLimit entry = .ok (if tokenLimit = 0 then 0 else stateSlots)) ∨
    ∃ handover, entry.1.attnKind ≠ .state ∧ m.tailHandoverBlocks entry.2 = .ok handover ∧ 0 ≤ handover ∧
      m.singleGroupPages tokenLimit entry =
        .ok ((if tokenLimit = 0 then 0 else handover) + m.history entry.1 entry.2 tokenLimit) := by
  unfold singleGroupPages
  by_cases hk : entry.1.attnKind = .state
  · rw [if_pos hk]
    exact .inl ⟨hk, rfl⟩
  · obtain ⟨handover, hh, hn, -⟩ := tailHandoverBlocks_ok h he hk
    refine .inr ⟨handover, hk, hh, hn, ?_⟩
    unfold handoverPages
    rw [if_neg hk, historyPages_ok h he hk hl, hh]
    by_cases hz : tokenLimit = 0
    · rw [if_pos hz, if_pos hz]
      rfl
    · rw [if_neg hz, if_neg hz]
      rfl

def dense (m : CapacityModel) (group : CapacityGroup) (total : Int) : Int :=
  pages total group.blockGranularity + m.config.maxBatchSize *
    pages (group.blockGranularity - 1 + m.concurrentProtected) group.blockGranularity

def window (m : CapacityModel) (spec : CacheGroupConfig) (group : CapacityGroup) (context : Int) : Int :=
  pages (min (spec.slidingWindowTokens.getD 0 - 1) context + m.decodeWidth + m.concurrentProtected +
    group.blockGranularity - 1) group.blockGranularity

def resident (m : CapacityModel) (spec : CacheGroupConfig) (group : CapacityGroup) (total context : Int) : Int :=
  if group.prefixClosed then m.dense group total
  else if m.config.role = .d then
    min (m.dense group total) (m.config.maxBatchSize * (group.lookbackPages + m.window spec group context))
  else m.config.maxBatchSize * m.window spec group context + group.lookbackPages +
    pages (min m.config.maxScheduledTokens total) group.blockGranularity

variable {total context : Int}

variable {limit limit' : Int}

theorem peak_mono (hg : 0 < entry.2.blockGranularity) (hm : limit ≤ limit') :
    m.peak entry.2 limit ≤ m.peak entry.2 limit' := by
  have hp : m.maxPromptTokens limit ≤ m.maxPromptTokens limit' :=
    max_le_max_right _ (by omega)
  have hf : pages (min (m.maxPromptTokens limit) m.config.maxScheduledTokens +
      (m.decodeWidth + m.protectedTokens)) entry.2.blockGranularity ≤
      pages (min (m.maxPromptTokens limit') m.config.maxScheduledTokens +
        (m.decodeWidth + m.protectedTokens)) entry.2.blockGranularity :=
    pages_mono hg (Int.add_le_add_right (min_le_min_right _ hp) _)
  unfold peak
  dsimp only
  by_cases hl : m.config.maxScheduledTokens < m.maxPromptTokens limit
  · rw [if_pos hl, if_pos (hl.trans_le hp)]
    refine max_le_max (max_le_max hf le_rfl) (Int.add_le_add_left (pages_mono hg ?_) _)
    exact Int.add_le_add_right (min_le_min_right _ (by omega)) _
  · rw [if_neg hl]
    split
    · exact hf.trans ((le_max_left _ _).trans (le_max_left _ _))
    · exact hf

theorem history_mono (hg : 0 < entry.2.blockGranularity) (hl : limit ≤ limit') :
    m.history entry.1 entry.2 limit ≤ m.history entry.1 entry.2 limit' := by
  have hp : pages (limit + m.protectedTokens) entry.2.blockGranularity ≤
      pages (limit' + m.protectedTokens) entry.2.blockGranularity := pages_mono hg (by omega)
  unfold history
  split
  · exact hp
  · split
    · exact min_le_min_right _ hp
    · exact peak_mono hg hl

end CapacityModel

end TokenSpeed

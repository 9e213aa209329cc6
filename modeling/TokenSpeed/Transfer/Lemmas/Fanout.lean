import TokenSpeed.Transfer.Fanout

/-!
# Reads of a chunk

No sum of a request that fits an `i64` wraps, so the checks say what they seem to.
-/

namespace TokenSpeed.Transfer

open List Int

/-! ## Exact arithmetic -/

theorem toInt_max (a b : Int64) : (max a b).toInt = max a.toInt b.toInt := by
  show (if a ≤ b then b else a).toInt = _
  rw [max_def]
  simp only [Int64.le_iff_toInt_le]
  split
  · rfl
  · rfl

theorem toInt_min (a b : Int64) : (min a b).toInt = min a.toInt b.toInt := by
  show (if a ≤ b then a else b).toInt = _
  rw [min_def]
  simp only [Int64.le_iff_toInt_le]
  split
  · rfl
  · rfl

theorem toNat_toUInt64 {a : Int64} (h : 0 ≤ a.toInt) : (a.toUInt64.toNat : Int) = a.toInt := by
  rw [Int64.toNat_toUInt64_of_le (Int64.le_iff_toInt_le.mpr h), ← Int64.toNat_toInt]
  exact toNat_of_nonneg h

theorem toNat_max_zero {a : Int64} (h : 0 ≤ a.toInt) : ((max a 0).toUInt64.toNat : Int) = a.toInt := by
  have hm : (max a 0).toInt = a.toInt := by
    rw [toInt_max]
    exact max_eq_left h
  rw [toNat_toUInt64 (by rwa [hm]), hm]

variable {chunk : EmbeddingChunk} {info : ShardInfo} {infos : List ShardInfo}

theorem EmbeddingChunk.rowCount_eq (chunk : EmbeddingChunk) :
    (chunk.rowCount.toNat : Int) = max chunk.rows.toInt 1 := by
  have hm : (max chunk.rows 1).toInt = max chunk.rows.toInt 1 := toInt_max _ _
  unfold EmbeddingChunk.rowCount
  rw [toNat_toUInt64 (by rw [hm]; omega), hm]

/-! ## Reads inside the chunk -/

theorem inside_span {source nbytes size start count : UInt64} (hd : size.toNat ∣ nbytes.toNat) (hp : 0 < size.toNat)
    (h : start.toNat + count.toNat ≤ size.toNat) :
    Inside source nbytes (source + start * (nbytes / size), count * (nbytes / size)) := by
  obtain ⟨q, hq⟩ := hd
  have hb : (nbytes / size).toNat = q := by
    rw [UInt64.toNat_div, hq]
    exact Nat.mul_div_cancel_left q hp
  have hn := nbytes.toNat_lt
  have hs : start.toNat * q + count.toNat * q ≤ nbytes.toNat := by
    rw [hq, ← Nat.add_mul]
    exact Nat.mul_le_mul_right q h
  refine .inr ?_
  rw [UInt64.add_comm, UInt64.add_sub_cancel, UInt64.toNat_mul, UInt64.toNat_mul, hb, Nat.mod_eq_of_lt (by omega),
    Nat.mod_eq_of_lt (by omega)]
  exact hs

structure InRange (rows : Int64) (info : ShardInfo) : Prop where
  start : 0 ≤ info.rowStart.toInt
  count : 0 ≤ info.rows.toInt
  stop : (info.rowStart + info.rows).toInt ≤ rows.toInt

theorem inRange_of_refusal (h : chunk.refusal info = none) : InRange chunk.rows info := by
  unfold EmbeddingChunk.refusal at h
  split at h
  · cases h
  · split at h
    · cases h
    · split at h
      · cases h
      · rename_i hr
        simp only [not_or, Int64.lt_iff_toInt_lt, not_lt] at hr
        exact ⟨hr.1, hr.2.1, hr.2.2⟩

theorem inRange_of_validate (h : validateFanout infos chunk = none) (hm : info ∈ infos) : InRange chunk.rows info := by
  unfold validateFanout at h
  split at h
  · cases h
  · rename_i hn
    exact inRange_of_refusal (findSome?_eq_none_iff.mp hn info hm)

theorem InRange.exact {rows} (h : InRange rows info) (hf : info.Fits) :
    (info.rowStart + info.rows).toInt = info.rowStart.toInt + info.rows.toInt := by
  have := h.start
  have := h.count
  rw [Int64.toInt_add]
  exact bmod_eq_of_le (by omega) hf

theorem InRange.within (h : InRange chunk.rows info) (hf : info.Fits) :
    (max info.rowStart 0).toUInt64.toNat + (max info.rows 0).toUInt64.toNat ≤ chunk.rowCount.toNat := by
  have hs := toNat_max_zero h.start
  have hc := toNat_max_zero h.count
  have hr := chunk.rowCount_eq
  have he := h.exact hf ▸ h.stop
  omega

/-! ## Shards that adjoin -/

structure ShardOk (shard : Shard) : Prop where
  start : 0 ≤ shard.1.toInt
  count : 0 < shard.2.toInt
  stop : shard.1.toInt + shard.2.toInt < 2 ^ 63

theorem shardGap_tiles : ∀ {shards shard}, shardGap (shard :: shards) = none →
    (∀ x ∈ shard :: shards, ShardOk x) → ∃ high, shard.1.toInt < high ∧
      ∀ r, (shard :: shards).countP (Shard.holds r) = if shard.1.toInt ≤ r ∧ r < high then 1 else 0
  | [], shard, _, h => by
    have hp := (h shard mem_cons_self).count
    refine ⟨shard.1.toInt + shard.2.toInt, by omega, fun r => ?_⟩
    rw [countP_cons, countP_nil]
    simp only [Shard.holds, decide_eq_true_eq]
    omega
  | next :: shards, shard, hg, h => by
    obtain ⟨h0, hp, hb⟩ := h shard mem_cons_self
    unfold shardGap at hg
    split at hg
    · cases hg
    · rename_i hn
      have hn : shard.1 + shard.2 = next.1 := by simpa using hn
      have hg : shardGap (next :: shards) = none := hg
      obtain ⟨high, hlt, hc⟩ := shardGap_tiles hg fun x hx => h x (mem_cons_of_mem _ hx)
      have he : shard.1.toInt + shard.2.toInt = next.1.toInt := by
        rw [← hn, Int64.toInt_add, bmod_eq_of_le (by omega) hb]
      refine ⟨high, by omega, fun r => ?_⟩
      rw [countP_cons, hc]
      simp only [Shard.holds, decide_eq_true_eq]
      split
      · split
        · rw [if_pos (by omega)]
          omega
        · rw [if_pos (by omega)]
      · split
        · rw [if_pos (by omega)]
        · rw [if_neg (by omega)]

theorem countP_sortedShards (infos : List ShardInfo) (r) :
    (sortedShards infos).countP (Shard.holds r) = infos.countP (Shard.holds r ·.shard) := by
  unfold sortedShards
  rw [(perm_insertionSort _ _).countP_eq, countP_map, countP_filter]
  refine countP_congr fun info _ => ?_
  simp only [Function.comp_apply, Bool.and_eq_true, decide_eq_true_eq, Shard.holds, Int64.lt_iff_toInt_lt]
  show _ ∧ 0 < info.shard.2.toInt ↔ _
  omega

theorem sortedShards_tile (hf : ∀ info ∈ infos, InRange chunk.rows info ∧ info.Fits)
    (h : shardGap (sortedShards infos) = none) : Tile infos := by
  have hm : ∀ x ∈ sortedShards infos, ShardOk x := by
    intro x hx
    obtain ⟨info, hi, rfl⟩ := mem_map.mp ((perm_insertionSort _ _).mem_iff.mp hx)
    obtain ⟨hi, hp⟩ := mem_filter.mp hi
    exact ⟨(hf info hi).1.start, Int64.lt_iff_toInt_lt.mp (of_decide_eq_true hp), (hf info hi).2⟩
  unfold Tile
  simp only [← countP_sortedShards]
  cases hs : sortedShards infos with
  | nil => exact ⟨0, 0, fun r => by rw [countP_nil, if_neg (by omega)]⟩
  | cons shard shards =>
    rw [hs] at h hm
    obtain ⟨high, -, hc⟩ := shardGap_tiles h hm
    exact ⟨_, high, hc⟩

theorem validateFanout_shards (h : validateFanout infos chunk = none)
    (hf : ∀ info ∈ infos, InRange chunk.rows info ∧ info.Fits) :
    (∀ info ∈ infos, info.rowStart = 0 ∧ info.rows = chunk.rows) ∨ Tile infos := by
  unfold validateFanout at h
  split at h
  · cases h
  · split at h
    · rename_i hw
      refine .inl fun info hm => ?_
      simpa using all_eq_true.mp hw info hm
    · exact .inr (sortedShards_tile hf h)

/-! ## Balanced shards -/

/-- A span of `size` shards of `q` rows and `r` rows more. -/
structure Split (span size : Int64) (q r : Int) : Prop where
  quotient : (span / size).toInt = q
  rest : (span % size).toInt = r
  q_nonneg : 0 ≤ q
  r_nonneg : 0 ≤ r
  lt : r < size.toInt
  span_eq : size.toInt * q + r = span.toInt

variable {span rank size : Int64} {q r : Int}

theorem exists_split (hs : 0 ≤ span.toInt) (hz : 0 < size.toInt) : ∃ q r, Split span size q r := by
  have hq := ediv_nonneg hs hz.le
  have hu := (ediv_le_self size.toInt hs).trans_lt span.toInt_lt
  refine ⟨_, _, ?_, ?_, hq, emod_nonneg span.toInt hz.ne', emod_lt_of_pos span.toInt hz,
    mul_ediv_add_emod span.toInt size.toInt⟩
  · rw [Int64.toInt_div, tdiv_eq_ediv_of_nonneg hs, bmod_eq_of_le (by omega) hu]
  · rw [Int64.toInt_mod, tmod_eq_emod_of_nonneg hs]

/-- Shard `rank` starts after `rank` shards, the first `r` of them a row longer. -/
theorem Split.shardRows (h : Split span size q r) (hr : 0 ≤ rank.toInt) (hl : rank.toInt < size.toInt) :
    (shardRows span rank size).1.toInt = rank.toInt * q + min rank.toInt r ∧
      (shardRows span rank size).2.toInt = q + (min (rank.toInt + 1) r - min rank.toInt r) := by
  obtain ⟨hq, hm, hq0, hr0, hlt, he⟩ := h
  have hu := span.toInt_lt
  have hk : rank.toInt * q ≤ (size.toInt - 1) * q := mul_le_mul_of_nonneg_right (by omega) hq0
  have hk0 := mul_nonneg hr hq0
  rw [sub_mul, one_mul] at hk
  have hp : (rank * (span / size)).toInt = rank.toInt * q := by
    rw [Int64.toInt_mul, hq, bmod_eq_of_le (by omega) (by omega)]
  unfold Transfer.shardRows
  rw [Int64.toInt_add, Int64.toInt_add, toInt_min, hp, hq, hm]
  refine ⟨bmod_eq_of_le (by omega) (by omega), ?_⟩
  split
  · rename_i hl
    rw [Int64.lt_iff_toInt_lt, hm] at hl
    have h1 : (1 : Int64).toInt = 1 := rfl
    rw [h1, bmod_eq_of_le (by omega) (by omega)]
    omega
  · rename_i hl
    rw [Int64.lt_iff_toInt_lt, hm] at hl
    have h0 : (0 : Int64).toInt = 0 := rfl
    rw [h0, bmod_eq_of_le (by omega) (by omega)]
    omega

theorem Split.next (h : Split span size q r) (hr : 0 ≤ rank.toInt) (hl : rank.toInt < size.toInt) :
    0 ≤ (Transfer.shardRows span rank size).2.toInt ∧
      (Transfer.shardRows span rank size).1.toInt + (Transfer.shardRows span rank size).2.toInt =
        if rank + 1 < size then (Transfer.shardRows span (rank + 1) size).1.toInt else span.toInt := by
  have hu := size.toInt_lt
  have hq0 := h.q_nonneg
  have hlt := h.lt
  have he := h.span_eq
  have hn : (rank + 1).toInt = rank.toInt + 1 := by
    rw [Int64.toInt_add]
    exact bmod_eq_of_le (by show _ ≤ _ + 1; omega) (by show _ + 1 < _; omega)
  obtain ⟨hf, hc⟩ := h.shardRows hr hl
  rw [hf, hc]
  refine ⟨by omega, ?_⟩
  split
  · rename_i hl
    rw [Int64.lt_iff_toInt_lt, hn] at hl
    rw [(h.shardRows (by omega) (by rw [hn]; exact hl)).1, hn, add_mul, one_mul]
    omega
  · rename_i hl
    rw [Int64.lt_iff_toInt_lt, hn] at hl
    rw [show size.toInt = rank.toInt + 1 by omega] at he hlt
    rw [add_mul, one_mul] at he
    omega

end TokenSpeed.Transfer

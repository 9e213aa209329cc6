import Mathlib.Tactic.Ring
import Mathlib.Data.List.Range
import TokenSpeed.Engine.QueryShard

/-!
# Query shards recompose the rows
-/

namespace TokenSpeed.Engine

open List

variable {cs rows lengths : List Nat} {s r b n size : Nat}

/-! ## Runs one after the other -/

/-- Runs given by counts, each starting where the one before ends, make up one run. -/
theorem flatMap_spans {α : Type} {f : Nat → Nat → List α} (hf : ∀ a, f a 0 = [])
    (hadd : ∀ a b c, f a b ++ f (a + b) c = f a (b + c)) (cs : List Nat) :
    ∀ s, (range cs.length).flatMap (fun r => f (s + (cs.take r).sum) (cs.getD r 0)) = f s cs.sum := by
  induction cs with
  | nil => simp [hf]
  | cons c cs ih =>
    intro s
    simp only [length_cons, range_succ_eq_map, flatMap_cons, flatMap_map, take_zero, take_succ_cons, sum_nil, sum_cons,
      getD_cons_zero, getD_cons_succ, add_zero, ← add_assoc]
    rw [ih (s + c), hadd]

theorem flatMap_of {α : Type} {l : List α} (h : cs.sum = l.length) :
    (range cs.length).flatMap (fun r => (⟨(cs.take r).sum, (cs.take r).sum + cs.getD r 0⟩ : Slice).of l) = l := by
  have hs := flatMap_spans (f := fun a c => (l.drop a).take c) (by simp) (fun a b c => by rw [take_add, drop_drop]) cs 0
  simpa [Slice.of, take_drop, h] using hs

theorem sum_take_add (l : List Nat) : ∀ r, (l.take r).sum + l.getD r 0 = (l.take (r + 1)).sum := by
  induction l with
  | nil => simp
  | cons x l ih => intro r; cases r <;> simp [← ih, add_assoc]

/-! ## The even split -/

theorem scatterCount_length (h : 0 < size) : (scatterCount n size).length = size := by
  have := Nat.mod_lt n h
  simp only [scatterCount, length_append, length_replicate]
  omega

theorem scatterCount_sum (h : 0 < size) : (scatterCount n size).sum = n := by
  simp only [scatterCount, sum_append, sum_replicate_nat]
  calc n % size * (n / size + 1) + (size - n % size) * (n / size)
      = (n % size + (size - n % size)) * (n / size) + n % size := by ring
    _ = n := by rw [Nat.add_sub_cancel' (Nat.mod_lt n h).le, Nat.div_add_mod]

/-! ## Rows below a bound -/

theorem below_add (h : s ≤ b) : below rows b = below rows s + rows.countP (fun r => s ≤ r ∧ r < b) := by
  induction rows with
  | nil => rfl
  | cons x rows ih =>
    simp only [below, countP_cons, decide_eq_true_eq] at ih ⊢
    split_ifs <;> omega

@[simp] theorem below_zero : below rows 0 = 0 := by simp [below]

theorem below_eq_length (h : ∀ x ∈ rows, x < b) : below rows b = rows.length := countP_eq_length.mpr (by simpa using h)

theorem below_range (h : b ≤ n) : below (range n) b = b := by
  obtain ⟨k, rfl⟩ := Nat.exists_eq_add_of_le h
  have hk : ((range k).map (b + ·)).countP (· < b) = 0 := by simp [countP_eq_zero]
  rw [below, range_add, countP_append, hk]
  exact (below_eq_length (by simp)).trans length_range

theorem below_splits (hs : rows.Pairwise (· ≤ ·)) :
    (∀ r ∈ rows.take (below rows b), r < b) ∧ ∀ r ∈ rows.drop (below rows b), b ≤ r := by
  induction rows with
  | nil => simp
  | cons x rows ih =>
    obtain ⟨hx, hs⟩ := pairwise_cons.mp hs
    by_cases hb : x < b
    · have ih := ih hs
      rw [below] at ih ⊢
      rw [countP_cons_of_pos (by simpa using hb)]
      simpa [hb] using ih
    · have hall : ∀ r ∈ x :: rows, b ≤ r := by simpa [not_lt.mp hb] using fun r hr => (not_lt.mp hb).trans (hx r hr)
      have h0 : below (x :: rows) b = 0 := countP_eq_zero.mpr (by simpa using hall)
      simpa [h0] using hall

/-! ## The split of sorted rows -/

def shardTable (cs rows : List Nat) : List Nat := diff 0 ((cumsum 0 cs).map (below rows))

theorem diff_length (l : List Nat) : ∀ s, (diff s l).length = l.length := by
  induction l <;> simp_all [diff]

theorem cumsum_length (l : List Nat) : ∀ s, (cumsum s l).length = l.length := by
  induction l <;> simp_all [cumsum]

@[simp] theorem shardTable_length : (shardTable cs rows).length = cs.length := by
  simp [shardTable, diff_length, cumsum_length]

theorem mem_cumsum (l : List Nat) : ∀ s, ∀ x ∈ cumsum s l, s ≤ x ∧ x ≤ s + l.sum := by
  induction l with
  | nil => simp [cumsum]
  | cons c l ih =>
    intro s x hx
    rw [sum_cons]
    rcases mem_cons.mp hx with rfl | hx
    · omega
    · have := ih (s + c) x hx
      omega

theorem diff_cumsum (l : List Nat) : ∀ s, diff s (cumsum s l) = l := by
  induction l <;> simp_all [diff, cumsum]

theorem sum_take_diff (cs : List Nat) : ∀ s r, ((diff (below rows s) ((cumsum s cs).map (below rows))).take r).sum +
    below rows s = below rows (s + (cs.take r).sum) := by
  induction cs with
  | nil => simp [cumsum, diff]
  | cons c cs ih =>
    intro s r
    cases r with
    | zero => simp
    | succ r =>
      have h := ih (s + c) r
      have hb := @below_add rows _ _ (Nat.le_add_right s c)
      simp only [cumsum, map_cons, diff, take_succ_cons, sum_cons, ← add_assoc] at h ⊢
      omega

theorem sum_take_shardTable : ((shardTable cs rows).take r).sum = below rows (cs.take r).sum := by
  simpa [shardTable] using @sum_take_diff rows cs 0 r

theorem shardTable_getD : (shardTable cs rows).getD r 0 =
    rows.countP fun x => (cs.take r).sum ≤ x ∧ x < (cs.take r).sum + cs.getD r 0 := by
  have h := sum_take_add (shardTable cs rows) r
  rw [sum_take_shardTable, sum_take_shardTable, ← sum_take_add, below_add (Nat.le_add_right ..)] at h
  omega

theorem shardTable_range : shardTable cs (range cs.sum) = cs := by
  have hm : (cumsum 0 cs).map (below (range cs.sum)) = cumsum 0 cs :=
    (map_congr_left fun x hx => below_range (by simpa using (mem_cumsum cs 0 x hx).2)).trans (map_id' _)
  rw [shardTable, hm, diff_cumsum]

theorem getLastD_cumsum (f : Nat → Nat) (cs : List Nat) : ∀ s,
    ((cumsum s cs).map f).getLastD (f s) = f (s + cs.sum) := by
  induction cs with
  | nil => exact fun _ => rfl
  | cons c cs ih =>
    intro s
    rw [cumsum, map_cons, getLastD_cons, ih, sum_cons, add_assoc]

theorem splitSortedRows_ok (hs : rows.Pairwise (· ≤ ·)) (hr : ∀ x ∈ rows, x < cs.sum) :
    splitSortedRows cs rows = .ok (shardTable cs rows) := by
  have hl := getLastD_cumsum (below rows) cs 0
  rw [below_zero, zero_add, below_eq_length hr] at hl
  simp only [splitSortedRows, hs, hl, if_true]
  rfl

theorem sum_shardTable (hr : ∀ x ∈ rows, x < cs.sum) : (shardTable cs rows).sum = rows.length := by
  have h := @sum_take_shardTable cs rows cs.length
  rw [take_of_length_le (by simp), take_length] at h
  exact h.trans (below_eq_length hr)

/-! ## The sampled rows -/

namespace QueryShardPlan

theorem sampledRows_sorted : (sampledRows lengths).Pairwise (· ≤ ·) := by
  have h : ∀ s, (cumsum s lengths).Pairwise (· ≤ ·) := by
    induction lengths with
    | nil => exact fun _ => .nil
    | cons c l ih => exact fun s => pairwise_cons.mpr ⟨fun x hx => (mem_cumsum l _ x hx).1, ih _⟩
  exact pairwise_map.mpr ((h 0).imp fun hab => Nat.sub_le_sub_right hab 1)

@[simp] theorem sampledRows_length :
    (sampledRows lengths).length = lengths.length := by simp [sampledRows, cumsum_length]

section Lengths

variable (hpos : ∀ n ∈ lengths, 0 < n)

include hpos

theorem sampledRows_lt : ∀ x ∈ sampledRows lengths, x < lengths.sum := by
  intro x hx
  obtain ⟨y, hy, rfl⟩ := mem_map.mp hx
  cases lengths with
  | nil => simp [cumsum] at hy
  | cons c l =>
    have hc := hpos c mem_cons_self
    have hle := (mem_cumsum _ 0 y hy).2
    rw [cumsum, mem_cons] at hy
    have hy : c ≤ y := hy.elim (by omega) fun hy => by have := (mem_cumsum l _ y hy).1; omega
    omega

/-- As many requests as rows: every request has one row. -/
theorem sampledRows_of_ones (hn : lengths.sum = lengths.length) : sampledRows lengths = range lengths.sum := by
  have h1 : lengths.length ≤ lengths.sum ∧
      (lengths.sum = lengths.length → ∀ s, (cumsum s lengths).map (· - 1) = range' s lengths.length) := by
    clear hn
    induction lengths with
    | nil => exact ⟨le_rfl, fun _ _ => rfl⟩
    | cons c l ih =>
      have hc := hpos c mem_cons_self
      obtain ⟨hle, ho⟩ := ih fun n hn => hpos n (mem_cons_of_mem _ hn)
      simp only [length_cons, sum_cons]
      refine ⟨by omega, fun he s => ?_⟩
      obtain rfl : c = 1 := by omega
      simp [cumsum, range'_succ, ho (by omega)]
  rw [sampledRows, h1.2 hn, range_eq_range', hn]

end Lengths

/-! ## The plans of a forward -/

variable {p : QueryShardPlan} {sampled : List Nat}

/-- `p` is the plan of rank `r` over shards of sizes `cs`. -/
structure Plans (cs sampled : List Nat) (r : Nat) (p : QueryShardPlan) : Prop where
  rank : p.rank = r
  rowCounts : p.rowCounts = cs
  sampled : p.sampledRowsPerRank = shardTable cs sampled

theorem int64_eq : int64 n = n ↔ n < 2 ^ 63 := by
  have hn : (BitVec.ofNat 64 n).toNat = n % 2 ^ 64 := BitVec.toNat_ofNat ..
  rw [int64, BitVec.toInt_eq_toNat_cond, hn]
  split_ifs <;> omega

theorem fromForward_spec (hpos : ∀ n ∈ lengths, 0 < n) (hr : r < size) :
    (lengths.sum < 2 ^ 63 → ∃ p, fromForward lengths.sum lengths size r = .ok p) ∧
    ∀ p, fromForward lengths.sum lengths size r = .ok p →
      lengths.sum < 2 ^ 63 ∧ Plans (scatterCount lengths.sum size) (sampledRows lengths) r p := by
  have hsize : 0 < size := by omega
  have hs := @splitSortedRows_ok (scatterCount lengths.sum size) _ sampledRows_sorted
    (by simpa [scatterCount_sum hsize] using sampledRows_lt hpos)
  have hc := @scatterCount_length lengths.sum _ hsize
  by_cases hb : lengths.sum < 2 ^ 63
  · have hf : fromForward lengths.sum lengths size r = .ok ⟨size, r, scatterCount lengths.sum size,
        shardTable (scatterCount lengths.sum size) (sampledRows lengths), hr, hc, by simp [hc]⟩ := by
      simp [fromForward, int64_eq.mpr hb, hs, postInit, hr, hc, hsize.ne', bind, Except.bind]
    rw [hf]
    exact ⟨fun _ => ⟨_, rfl⟩, fun p h => by cases h; exact ⟨hb, rfl, rfl, rfl⟩⟩
  · refine ⟨fun h => absurd h hb, fun p h => ?_⟩
    simp only [fromForward, if_neg (mt int64_eq.mp hb), throw, throwThe, MonadExceptOf.throw, bind, Except.bind,
      reduceCtorEq] at h

namespace Plans

theorem slice (h : Plans cs sampled r p) : p.localSlice.rows = range' (cs.take r).sum (cs.getD r 0) := by
  simp [localSlice, Slice.rows, localEnd, localStart, localRows, h.rank, h.rowCounts]

/-- What a rank reads of sorted rows lies in its slice. -/
theorem mem_run (h : Plans cs sampled r p) (hs : rows.Pairwise (· ≤ ·)) {x : Nat}
    (hx : x ∈ (p.localRowsRun (shardTable cs rows)).of rows) : x ∈ p.localSlice.rows := by
  rw [localRowsRun, h.rank, sum_take_add, sum_take_shardTable, sum_take_shardTable] at hx
  rw [h.slice, mem_range'_1, sum_take_add]
  exact ⟨(below_splits hs).2 x ((take_sublist ..).drop _ |>.subset hx), (below_splits hs).1 x (mem_of_mem_drop hx)⟩

end Plans

section Group

variable {plans : Nat → QueryShardPlan} (hp : ∀ r < cs.length, Plans cs sampled r (plans r))

include hp

theorem rows_tile : (range cs.length).flatMap (fun r => (plans r).localSlice.rows) = range cs.sum := by
  have h := flatMap_spans (f := fun a b => range' a b) (by simp) (fun a b c => by simp) cs 0
  conv_rhs => rw [range_eq_range', ← h]
  exact flatMap_congr fun r hr => by simp [(hp r (mem_range.mp hr)).slice]

theorem runs_flatMap {α : Type} {l : List α} (hr : ∀ x ∈ rows, x < cs.sum) (hl : rows.length = l.length) :
    (range cs.length).flatMap (fun r => ((plans r).localRowsRun (shardTable cs rows)).of l) = l := by
  conv_rhs => rw [← flatMap_of ((sum_shardTable hr).trans hl), shardTable_length]
  exact flatMap_congr fun r hr => by rw [localRowsRun, (hp r (mem_range.mp hr)).rank]

theorem sampledIds_recompose (hs : ∀ x ∈ sampled, x < cs.sum) {ids : List Int} (hg : ids.length = sampled.length) :
    ∃ own : Nat → List Int, (∀ r < cs.length, (plans r).localSampledIds ids = .ok (own r)) ∧
      (range cs.length).flatMap (fun r => (own r).map (· + ((plans r).localStart : Int))) = ids := by
  refine ⟨fun r => (((plans r).localRowsRun (shardTable cs sampled)).of ids).map (· - ((plans r).localStart : Int)),
    ?_, ?_⟩
  · intro r hr
    simp [localSampledIds, sampledRowsTotal, (hp r hr).sampled, sum_shardTable hs, hg]
  · simpa [Function.comp_def] using runs_flatMap hp hs hg.symm

theorem heldBy_eq : heldBy plans cs.length rows = shardTable cs rows := by
  refine ext_getElem (by simp [heldBy]) fun r hr hr' => ?_
  rw [@getElem_eq_getD _ _ _ hr' 0, shardTable_getD]
  simp only [heldBy, getElem_map, getElem_range, (hp r (by simpa using hr')).slice, mem_range'_1]

theorem rows_for_total (hr : r < cs.length) :
    (plans r).rowsForCollective (some cs.sum) = .ok (heldBy plans cs.length (range cs.sum)) := by
  simp [rowsForCollective, totalRows, (hp r hr).rowCounts, heldBy_eq hp, shardTable_range]

theorem rows_for_sampled (hr : r < cs.length) (hs : ∀ x ∈ sampled, x < cs.sum)
    (ho : cs.sum = sampled.length → cs = shardTable cs sampled) :
    (plans r).rowsForCollective (some sampled.length) = .ok (heldBy plans cs.length sampled) := by
  rw [heldBy_eq hp, rowsForCollective, totalRows, sampledRowsTotal, (hp r hr).rowCounts, (hp r hr).sampled,
    sum_shardTable hs]
  -- When one number stands for both row sets, their tables are the same.
  by_cases he : sampled.length = cs.sum
  · simp [he, ← ho he.symm]
  · simp [he]

end Group

end QueryShardPlan

end TokenSpeed.Engine

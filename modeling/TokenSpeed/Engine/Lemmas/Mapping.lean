import TokenSpeed.Engine.Mapping
import Mathlib.Data.List.Nodup
import Mathlib.Data.Nat.ModEq
import Mathlib.Data.Set.Function
import Mathlib.Tactic.Ring

/-!
# Strided groups

A group of `size` ranks at a `stride` is the ranks that differ in one digit of a mixed radix; the groups of a mapping
lie in blocks that divide the world.
-/

namespace TokenSpeed.Engine

open List

section Strided

variable {size stride block q r : Nat}

theorem strided_split (r size stride : Nat) :
    r / (stride * size) * (stride * size) + r % stride + r / stride % size * stride = r := by
  have h := Nat.div_add_mod (r / stride) size
  rw [← Nat.div_div_eq_div_mul]
  calc _ = stride * (size * (r / stride / size) + r / stride % size) + r % stride := by ring
    _ = r := by rw [h, Nat.div_add_mod]

/-- A rank is what its digits say. -/
theorem eq_of_ranks (hd : q / (stride * size) = r / (stride * size)) (hm : q % stride = r % stride)
    (hr : q / stride % size = r / stride % size) : q = r := by
  rw [← Nat.div_div_eq_div_mul, ← Nat.div_div_eq_div_mul] at hd
  exact Nat.ext_div_modEq (Nat.ext_div_modEq hd hr) hm

theorem makeParallelismGroup_eq (r size stride : Nat) : makeParallelismGroup r size stride =
    (range size).map fun j => r / (stride * size) * (stride * size) + r % stride + j * stride := by
  have hb : r - r / stride % size * stride = r / (stride * size) * (stride * size) + r % stride :=
    Nat.sub_eq_of_eq_add (strided_split r size stride).symm
  simp only [makeParallelismGroup, hb]

theorem makeParallelismGroup_nodup (hstride : 0 < stride) : (makeParallelismGroup r size stride).Nodup := by
  rw [makeParallelismGroup_eq]
  exact Nodup.map (fun i j h => Nat.eq_of_mul_eq_mul_right hstride (Nat.add_left_cancel h)) nodup_range

variable (hsize : 0 < size) (hstride : 0 < stride)
include hsize hstride

theorem mem_makeParallelismGroup : q ∈ makeParallelismGroup r size stride ↔
    q / (stride * size) = r / (stride * size) ∧ q % stride = r % stride := by
  rw [makeParallelismGroup_eq, mem_map]
  constructor
  · rintro ⟨j, hj, rfl⟩
    have hlt : r % stride + j * stride < stride * size := by
      have := Nat.mod_lt r hstride
      have := Nat.mul_le_mul_left stride (show j + 1 ≤ size from mem_range.mp hj)
      rw [Nat.mul_succ, Nat.mul_comm] at this
      omega
    constructor
    · rw [Nat.add_assoc, Nat.add_comm, Nat.add_mul_div_right _ _ (Nat.mul_pos hstride hsize), Nat.div_eq_of_lt hlt,
        Nat.zero_add]
    · rw [Nat.add_mul_mod_self_right, Nat.mul_comm stride, ← Nat.mul_assoc, Nat.add_comm, Nat.add_mul_mod_self_right,
        Nat.mod_mod]
  · rintro ⟨hd, hm⟩
    refine ⟨q / stride % size, mem_range.mpr (Nat.mod_lt _ hsize), ?_⟩
    rw [← hd, ← hm]
    exact strided_split q size stride

variable (h : q ∈ makeParallelismGroup r size stride)
include h

theorem makeParallelismGroup_congr : makeParallelismGroup q size stride = makeParallelismGroup r size stride := by
  obtain ⟨hd, hm⟩ := (mem_makeParallelismGroup hsize hstride).mp h
  rw [makeParallelismGroup_eq, makeParallelismGroup_eq, hd, hm]

theorem getElem?_makeParallelismGroup :
    (makeParallelismGroup r size stride)[makeParallelismRank q size stride]? = some q := by
  rw [← makeParallelismGroup_congr hsize hstride h, makeParallelismGroup_eq, makeParallelismRank, getElem?_map,
    getElem?_range (Nat.mod_lt _ hsize), Option.map_some, strided_split]

end Strided

namespace Mapping

variable (m : Mapping) {d : Dimension} {q r : Nat}

theorem stages : m.stageWorldSize * m.ppSize = m.worldSize := Nat.div_mul_cancel m.pp_dvd

theorem stage_pos : 0 < m.stageWorldSize := Nat.pos_of_mul_pos_right (m.stages ▸ m.world_pos)

/-- What a group of a dimension lies inside of. -/
def block : Dimension → Nat
  | .tp l | .dp l => m.span l
  | .kvp | .qcp => m.attn.tpSize
  | .pp => m.worldSize
  | _ => m.stageWorldSize

theorem made_dvd (d : Dimension) : (m.made d).2 * (m.made d).1 ∣ m.block d := by
  have hm : m.moe.tpSize * m.moe.epSize ∣ m.stageWorldSize := ⟨_, m.moe.total.symm⟩
  cases d with
  | tp l => simpa [made, block] using (m.layer l).tp_dvd
  | dp l => simp [made, block, (m.layer l).total]
  | kvp => simpa [made, block] using m.attn.kvpSize.2
  | qcp => simpa [made, block] using m.attn.qcpSize.2
  | headTp => simpa [made, block, stageWorldSize] using m.attn.headTpSize.2
  | moeTp => simpa [made, block] using dvd_of_mul_right_dvd hm
  | moeEp => exact hm
  | moeTpEp => simpa [made, block] using hm
  | moeDp => exact ⟨1, by rw [Nat.mul_one]; exact m.moe.total.symm⟩
  | pp => simp [made, block, m.stages]

theorem span_dvd (l : Layer) : m.span l ∣ m.stageWorldSize := by
  cases l with
  | vision => exact m.attn.tp_dvd
  | _ => exact dvd_rfl

theorem block_dvd (hd : d ≠ .pp) : m.block d ∣ m.stageWorldSize := by
  cases d with
  | tp l | dp l => exact m.span_dvd l
  | kvp | qcp => exact m.attn.tp_dvd
  | pp => exact absurd rfl hd
  | _ => exact dvd_rfl

theorem block_dvd_world (d : Dimension) : m.block d ∣ m.worldSize := by
  by_cases hd : d = .pp
  · rw [hd]
    exact dvd_rfl
  · exact (m.block_dvd hd).trans ⟨_, m.stages.symm⟩

theorem made_pos (d : Dimension) : 0 < (m.made d).1 ∧ 0 < (m.made d).2 := by
  have := Nat.pos_of_dvd_of_pos ((m.made_dvd d).trans (m.block_dvd_world d)) m.world_pos
  exact ⟨Nat.pos_of_mul_pos_left this, Nat.pos_of_mul_pos_right this⟩

theorem mem_group : q ∈ m.group d r ↔
    q / ((m.made d).2 * (m.made d).1) = r / ((m.made d).2 * (m.made d).1) ∧ q % (m.made d).2 = r % (m.made d).2 :=
  mem_makeParallelismGroup (m.made_pos d).1 (m.made_pos d).2

/-- A group lies inside one block of its dimension. -/
theorem group_inside {block : Nat} (hq : q ∈ m.group d r) (hb : m.block d ∣ block) : q / block = r / block := by
  obtain ⟨k, rfl⟩ := (m.made_dvd d).trans hb
  rw [← Nat.div_div_eq_div_mul q, ← Nat.div_div_eq_div_mul r, (m.mem_group.mp hq).1]

theorem scatterIndex_eq : m.scatterIndex = (· % m.stageWorldSize) := by
  funext r
  rw [show m.stageWorldSize = _ from m.attn.total.symm, Nat.mod_mul]
  simp [scatterIndex, rankIn, made, layer, makeParallelismRank, Nat.mul_comm, Nat.add_comm]

section Pipeline

variable {m} (hr : r < m.worldSize)
include hr

theorem ppRank_eq : m.rankIn .pp r = r / m.stageWorldSize ∧ r / m.stageWorldSize < m.ppSize := by
  have hl : r / m.stageWorldSize < m.ppSize := Nat.div_lt_of_lt_mul (m.stages.symm ▸ hr)
  exact ⟨Nat.mod_eq_of_lt hl, hl⟩

theorem mem_ppGroup (hq : q < m.worldSize) : q ∈ m.group .pp r ↔ q % m.stageWorldSize = r % m.stageWorldSize := by
  rw [mem_group, made, m.stages, Nat.div_eq_of_lt hr, Nat.div_eq_of_lt hq]
  exact and_iff_right rfl

theorem ppNextRank_eq : m.ppNextRank r = some q ↔ r + m.stageWorldSize = q ∧ q < m.worldSize := by
  obtain ⟨hp, hl⟩ := ppRank_eq hr
  rw [ppNextRank, Option.ite_none_left_eq_some, Option.some.injEq, hp, and_comm]
  refine and_congr_right fun hq => ?_
  have hd := Nat.add_div_right r m.stage_pos
  rw [← m.stages, Nat.mul_comm, ← Nat.div_lt_iff_lt_mul m.stage_pos, ← hq]
  omega

theorem ppPrevRank_eq : m.ppPrevRank r = some q ↔ q + m.stageWorldSize = r := by
  rw [ppPrevRank, Option.ite_none_left_eq_some, Option.some.injEq, (ppRank_eq hr).1, Nat.div_eq_zero_iff_lt m.stage_pos]
  omega

end Pipeline

theorem tellApart_of_mul {tp dp block : Nat} (h : tp * dp = block) :
    TellApart block fun r => (r / 1 % tp, r / tp % dp) := by
  subst h
  intro q r hd hp
  simp only [Nat.div_one, Prod.mk.injEq] at hp
  exact eq_of_ranks hd hp.1 hp.2

theorem moe_tellApart : TellApart m.stageWorldSize fun r =>
    (m.rankIn .moeTp r, m.rankIn .moeEp r, m.rankIn .moeDp r) := by
  intro q r hd hp
  simp only [rankIn, made, makeParallelismRank, Nat.div_one, Prod.mk.injEq] at hp
  rw [show m.stageWorldSize = _ from m.moe.total.symm] at hd
  refine eq_of_ranks hd ?_ hp.2.2
  rw [Nat.mod_mul, Nat.mod_mul, hp.1, hp.2.1]

theorem scatterIndex_bijOn (stage : Nat) :
    Set.BijOn m.scatterIndex {r | r / m.stageWorldSize = stage} {i | i < m.stageWorldSize} := by
  rw [scatterIndex_eq]
  refine ⟨fun r _ => Nat.mod_lt _ m.stage_pos, fun q hq r hr hm => ?_,
    fun i hi => ⟨m.stageWorldSize * stage + i, ?_, ?_⟩⟩
  · exact Nat.ext_div_modEq (hq.trans hr.symm) hm
  · show (m.stageWorldSize * stage + i) / m.stageWorldSize = stage
    rw [Nat.mul_add_div m.stage_pos, Nat.div_eq_of_lt hi, Nat.add_zero]
  · show (m.stageWorldSize * stage + i) % m.stageWorldSize = i
    rw [Nat.mul_add_mod, Nat.mod_eq_of_lt hi]

end Mapping

end TokenSpeed.Engine

import TokenSpeed.Logic.Fault
import Mathlib.Algebra.BigOperators.Group.List.Basic
import Mathlib.Algebra.Ring.Nat

/-!
# The process groups of a world

`runtime/distributed/mapping.py`. Ranks and sizes are naturals: a negative size fails the checks a zero fails. A
`ValueError` is an assertion. What the checks find about the sizes of a mapping is kept with them.
-/

namespace TokenSpeed.Engine

open List

/-- An assertion that keeps what it found. -/
def require (p : Prop) [Decidable p] (message : String) : Result (PLift p) :=
  if h : p then .ok ⟨h⟩ else .error (.assertion message)

def resolveParallelismSizes (worldSize : Nat) (sizes : List (Option Nat)) :
    Result {l : List Nat // l.prod = worldSize} := do
  assert (some 0 ∉ sizes) ""
  let provided := sizes.reduceOption.prod
  assert (none ∈ sizes → provided ≤ worldSize ∧ provided ∣ worldSize) ""
  let resolved := fill (worldSize / provided) sizes
  let ⟨h⟩ ← require (resolved.prod = worldSize) ""
  return ⟨resolved, h⟩
where
  /-- The first missing size takes what is left, the others are 1. -/
  fill : Nat → List (Option Nat) → List Nat
    | _, [] => []
    | left, some size :: rest => size :: fill left rest
    | left, none :: rest => left :: fill 1 rest

def resolveKvpSize (tpSize kvpSize : Nat) : Result {k // k ∣ tpSize} := do
  assert (1 ≤ kvpSize) "kvp_size must be a positive integer"
  let ⟨h⟩ ← require (kvpSize ∣ tpSize) "attention TP size must be divisible by KVP size"
  return ⟨kvpSize, h⟩

def resolveQcpSize (tpSize qcpSize : Nat) : Result {k // k ∣ tpSize} := do
  assert (1 ≤ qcpSize) "qcp_size must be a positive integer"
  let ⟨h⟩ ← require (qcpSize ∣ tpSize) "attention TP size must be divisible by QCP size"
  assert (qcpSize = 1 ∨ qcpSize = tpSize)
    s!"a query shard spans the whole attention TP group: qcp_size={qcpSize} must be 1 or the attention TP size {tpSize}"
  return ⟨qcpSize, h⟩

def makeParallelismRank (rank size stride : Nat) : Nat := rank / stride % size

def makeParallelismGroup (rank size stride : Nat) : List Nat :=
  let base := rank - rank / stride % size * stride
  (range size).map fun j => base + j * stride

/-- The TP groups of a world and their replicas, for the dense, linear attention, vision and LM head layers. -/
structure LayerMapping (worldSize : Nat) where
  tpSize : Nat
  dpSize : Nat
  total : tpSize * dpSize = worldSize

def LayerMapping.init (worldSize : Nat) (tpSize dpSize : Option Nat) : Result (LayerMapping worldSize) := do
  match ← resolveParallelismSizes worldSize [tpSize, dpSize] with
  | ⟨[tpSize, dpSize], h⟩ => return ⟨tpSize, dpSize, by simpa using h⟩
  | _ => .error (.assertion "")

def attentionRowGroupSize (tpSize qcpSize : Nat) : Nat := tpSize / qcpSize

def resolveHeadTpSize (tpSize qcpSize worldSize : Nat) (hr : attentionRowGroupSize tpSize qcpSize ∣ worldSize) :
    Option Nat → Result {k // k ∣ worldSize}
  | none => pure ⟨_, hr⟩
  | some headTpSize => do
    let rowGroupSize := attentionRowGroupSize tpSize qcpSize
    assert (1 ≤ headTpSize) "attention head TP size must be a positive integer"
    if headTpSize = rowGroupSize then return ⟨rowGroupSize, hr⟩
    assert (rowGroupSize = 1)
      ("attention head TP shards heads over ranks that hold different rows (attention-DP ranks, or the query " ++
        "shards of a QCP group) and needs attention TP 1 or a query shard over the attention TP group, got " ++
        s!"attn_tp_size={tpSize} with qcp_size={qcpSize}")
    assert (qcpSize = 1 ∨ headTpSize = qcpSize)
      ("under query context parallelism the attention head TP group is the query-shard group: " ++
        s!"head_tp_size={headTpSize} must equal qcp_size={qcpSize}")
    let ⟨h⟩ ← require (headTpSize ∣ worldSize)
      s!"attention head TP size {headTpSize} must divide the stage world size {worldSize}"
    return ⟨headTpSize, h⟩

structure AttentionLayerMapping (worldSize : Nat) extends LayerMapping worldSize where
  kvpSize : {k // k ∣ tpSize}
  qcpSize : {k // k ∣ tpSize}
  headTpSize : {k // k ∣ worldSize}

theorem LayerMapping.tp_dvd {worldSize : Nat} (m : LayerMapping worldSize) : m.tpSize ∣ worldSize := ⟨_, m.total.symm⟩

def AttentionLayerMapping.init (worldSize : Nat) (tpSize dpSize : Option Nat) (kvpSize : Nat) (headTpSize : Option Nat)
    (qcpSize : Nat) : Result (AttentionLayerMapping worldSize) := do
  let m ← LayerMapping.init worldSize tpSize dpSize
  let kvpSize ← resolveKvpSize m.tpSize kvpSize
  let qcpSize ← resolveQcpSize m.tpSize qcpSize
  let headTpSize ← resolveHeadTpSize m.tpSize qcpSize worldSize ((Nat.div_dvd_of_dvd qcpSize.2).trans m.tp_dvd)
    headTpSize
  return { m with kvpSize, qcpSize, headTpSize }

structure MoeLayerMapping (worldSize : Nat) where
  tpSize : Nat
  epSize : Nat
  dpSize : Nat
  total : tpSize * epSize * dpSize = worldSize

def MoeLayerMapping.init (worldSize : Nat) (tpSize epSize dpSize : Option Nat) :
    Result (MoeLayerMapping worldSize) := do
  match ← resolveParallelismSizes worldSize [tpSize, epSize, dpSize] with
  | ⟨[tpSize, epSize, dpSize], h⟩ => return ⟨tpSize, epSize, dpSize, by simpa [Nat.mul_assoc] using h⟩
  | _ => .error (.assertion "")

def resolveLmHeadTpSize {worldSize : Nat} (attn : AttentionLayerMapping worldSize) : Option Nat → Result Nat
  | none => pure (if 1 < attn.dpSize then 1 else attn.tpSize)
  | some lmHeadTpSize => do
    assert (1 ≤ lmHeadTpSize) "LM head TP size must be a positive integer"
    if ¬ 1 < attn.dpSize then
      assert (lmHeadTpSize = attn.tpSize)
        ("without attention DP the LM head follows the attention TP group; got " ++
          s!"lm_head_tp_size={lmHeadTpSize} with attn_tp_size={attn.tpSize}")
      return lmHeadTpSize
    assert (lmHeadTpSize ≤ 1 ∨ attn.tpSize = 1)
      s!"LM head TP under attention DP needs attention TP 1, got attn_tp_size={attn.tpSize}"
    assert (lmHeadTpSize ∣ worldSize) s!"LM head TP size {lmHeadTpSize} must divide the stage world size {worldSize}"
    return lmHeadTpSize

structure MappingArgs where
  worldSize : Nat := 1
  (attnTpSize attnDpSize : Option Nat := none)
  attnKvpSize : Nat := 1
  (attnHeadTpSize lmHeadTpSize : Option Nat := none)
  attnQcpSize : Nat := 1
  (denseTpSize denseDpSize moeTpSize moeEpSize moeDpSize visionTpSize visionDpSize linearAttnTpSize :
    Option Nat := none)
  ppSize : Nat := 1
  (nprocsPerNode nnodes : Option Nat := none)
  baseGpuId : Int := 0
  gpuIdStep : Int := 1
  deriving DecidableEq, Repr

structure Mapping where
  worldSize : Nat
  ppSize : Nat
  world_pos : 0 < worldSize
  pp_dvd : ppSize ∣ worldSize
  attn : AttentionLayerMapping (worldSize / ppSize)
  (lmHead dense linearAttn : LayerMapping (worldSize / ppSize))
  moe : MoeLayerMapping (worldSize / ppSize)
  vision : LayerMapping attn.tpSize

namespace Mapping

def init (a : MappingArgs) : Result Mapping := do
  let ⟨hw⟩ ← require (0 < a.worldSize) ""
  assert (0 < a.ppSize) ""
  let ⟨hp⟩ ← require (a.ppSize ∣ a.worldSize) s!"world_size {a.worldSize} must be divisible by pp_size {a.ppSize}"
  let attn ← AttentionLayerMapping.init _ a.attnTpSize a.attnDpSize a.attnKvpSize a.attnHeadTpSize a.attnQcpSize
  let lmHead ← LayerMapping.init _ (some (← resolveLmHeadTpSize attn a.lmHeadTpSize)) none
  let dense ← LayerMapping.init _ a.denseTpSize a.denseDpSize
  let moe ← MoeLayerMapping.init _ a.moeTpSize a.moeEpSize a.moeDpSize
  let vision ← LayerMapping.init attn.tpSize a.visionTpSize a.visionDpSize
  let linearAttn ← LayerMapping.init _ (some (a.linearAttnTpSize.getD attn.tpSize)) none
  let _ ← resolveParallelismSizes a.worldSize [a.nprocsPerNode, a.nnodes]
  assert (0 ≤ a.baseGpuId) ""
  assert (0 < a.gpuIdStep) ""
  return ⟨a.worldSize, a.ppSize, hw, hp, attn, lmHead, dense, linearAttn, moe, vision⟩

variable (m : Mapping)

def stageWorldSize : Nat := m.worldSize / m.ppSize

inductive Layer where
  | attn | lmHead | dense | linearAttn | vision
  deriving DecidableEq, Repr

/-- The `world_size` of a layer's own mapping. -/
def span : Layer → Nat
  | .vision => m.attn.tpSize
  | _ => m.stageWorldSize

def layer : (l : Layer) → LayerMapping (m.span l)
  | .attn => m.attn.toLayerMapping
  | .lmHead => m.lmHead
  | .dense => m.dense
  | .linearAttn => m.linearAttn
  | .vision => m.vision

inductive Dimension where
  | tp (l : Layer) | dp (l : Layer)
  | kvp | qcp | headTp | moeTp | moeEp | moeTpEp | moeDp | pp
  deriving DecidableEq, Repr

/-- The size and the stride the groups of a dimension are made with. -/
def made : Dimension → Nat × Nat
  | .tp l => ((m.layer l).tpSize, 1)
  | .dp l => ((m.layer l).dpSize, (m.layer l).tpSize)
  | .kvp => (m.attn.kvpSize, 1)
  | .qcp => (m.attn.qcpSize, 1)
  | .headTp => (m.attn.headTpSize, 1)
  | .moeTp => (m.moe.tpSize, 1)
  | .moeEp => (m.moe.epSize, m.moe.tpSize)
  | .moeTpEp => (m.moe.tpSize * m.moe.epSize, 1)
  | .moeDp => (m.moe.dpSize, m.moe.tpSize * m.moe.epSize)
  | .pp => (m.ppSize, m.stageWorldSize)

def rankIn (d : Dimension) (rank : Nat) : Nat := makeParallelismRank rank (m.made d).1 (m.made d).2

def group (d : Dimension) (rank : Nat) : List Nat := makeParallelismGroup rank (m.made d).1 (m.made d).2

def kvpReplicaRank (rank : Nat) : Nat := makeParallelismRank rank (m.attn.tpSize / m.attn.kvpSize) m.attn.kvpSize

def scatterIndex (rank : Nat) : Nat := m.rankIn (.dp .attn) rank * m.attn.tpSize + m.rankIn (.tp .attn) rank

def ppPrevRank (rank : Nat) : Option Nat := if m.rankIn .pp rank = 0 then none else some (rank - m.stageWorldSize)

def ppNextRank (rank : Nat) : Option Nat :=
  if m.rankIn .pp rank = m.ppSize - 1 then none else some (rank + m.stageWorldSize)

/-- Ranks in some dimensions tell the ranks of a block apart. -/
def TellApart {β : Type} (block : Nat) (ranks : Nat → β) : Prop :=
  ∀ q r, q / block = r / block → ranks q = ranks r → q = r

end Mapping

end TokenSpeed.Engine

import Mathlib.Algebra.Ring.Nat
import Mathlib.Data.Finset.Prod
import Mathlib.Data.List.Sort
import TokenSpeed.Logic.Fault

/-!
# Expert placement

`ts-control/src/eplb/algorithm.rs`: how often each logical expert is replicated and which slot each replica goes to.
The loads are of any type with the operations the source uses. A vector indexed by item is a function; an `Err` is an
assertion, an index past the end is fatal.
-/

namespace TokenSpeed.Engine

open Function

section Loads

variable {α : Type} [Zero α] [Add α] [Div α] [NatCast α] [LT α] [DecidableLT α] [Ord α]

variable (weight : List (List α))

def width : Nat := (weight.head?.map List.length).getD 0

/-! ## Packing -/

def sortedDescending (row : List α) : List Nat :=
  (List.range row.length).insertionSort fun a b => compare (row.getD b 0) (row.getD a 0) ≠ .gt

structure Packing (α : Type) [Zero α] where
  weights : Nat → α := fun _ => 0
  items : Nat → Nat := fun _ => 0
  packIndex : Nat → Nat := fun _ => 0
  rankInPack : Nat → Nat := fun _ => 0

def Packing.lighter (p : Packing α) (perPack : Nat) (best : Option Nat) (pack : Nat) : Option Nat :=
  if p.items pack < perPack ∧ best.all (fun b => p.weights pack < p.weights b) then some pack else best

def Packing.put (numPacks perPack : Nat) (row : List α) (p : Packing α) (group : Nat) : Result (Packing α) :=
  -- The first of the lightest packs with room.
  match (List.range numPacks).foldl (p.lighter perPack) none with
  | none => .error (.assertion "balanced_packing selected a full pack.")
  | some pack => .ok
    { weights := update p.weights pack (p.weights pack + row.getD group 0)
      items := update p.items pack (p.items pack + 1)
      packIndex := update p.packIndex group pack
      rankInPack := update p.rankInPack group (p.items pack) }

def packRow (numPacks perPack : Nat) (row : List α) : Result (Packing α) :=
  if perPack = 1 then .ok { packIndex := id } else (sortedDescending row).foldlM (Packing.put numPacks perPack row) {}

def balancedPacking (numPacks : Nat) : Result (List (Packing α)) := do
  let numGroups := width weight
  assert (numPacks ≠ 0 && numGroups % numPacks = 0)
    s!"num_groups={numGroups} must be divisible by num_packs={numPacks}."
  weight.mapM (packRow numPacks (numGroups / numPacks))

/-! ## Replication -/

/-- The scan of `replicate_experts` for the highest load per replica, the first of equal ones. -/
def heaviest (expert best : Nat) (bestLoad : Option α) : List α → Nat
  | [] => best
  | perReplica :: rest =>
    if bestLoad.all (· < perReplica) then heaviest (expert + 1) expert (some perReplica) rest
    else heaviest (expert + 1) best bestLoad rest

def perReplica (row : List α) (count : List Nat) : List α :=
  List.zipWith (fun load (replicas : Nat) => load / (replicas : α)) row count

/-- What `replicate_experts` keeps of one row, as far as the slots are given. -/
structure Replicas where
  phy2log : List Nat
  rank : List Nat
  count : List Nat
  deriving DecidableEq, Repr

def Replicas.giveSlot (state : Replicas) (row : List α) : Result Replicas :=
  let best := heaviest 0 0 none (perReplica row state.count)
  match state.count[best]? with
  | none => .error (.fatal "index out of bounds")
  | some replicas => .ok
    { phy2log := state.phy2log ++ [best], rank := state.rank ++ [replicas],
      count := state.count.set best (replicas + 1) }

def giveSlots (row : List α) : Nat → Replicas → Result Replicas
  | 0, state => pure state
  | slots + 1, state => do
    let state ← state.giveSlot row
    giveSlots row slots state

def replicateRow (numLog numPhy : Nat) (row : List α) : Result Replicas :=
  giveSlots row (numPhy - numLog) ⟨List.range numLog, List.replicate numLog 0, List.replicate numLog 1⟩

def replicateExperts (numPhy : Nat) : Result (List Replicas) := do
  let numLog := width weight
  assert (numLog ≤ numPhy) s!"num_phy={numPhy} must be greater than or equal to num_log={numLog}."
  weight.mapM (replicateRow numLog numPhy)

/-! ## The placement -/

def inverse (n : Nat) (perm : Nat → Nat) : Nat → Nat :=
  (List.range n).foldl (fun inverse index => update inverse (perm index) index) fun _ => 0

/-- `row.chunks(size)`, each summed. -/
def chunkSums (size : Nat) (row : List α) : Result (List α) :=
  if size = 0 then .error (.fatal "chunk size must be non-zero")
  else pure ((List.range ((row.length + size - 1) / size)).map fun g =>
    ((row.drop (g * size)).take size).foldl (· + ·) 0)

/-- `log2mlog` of one layer: an expert's place once the groups are on their nodes. -/
def log2mlog (groupSize groupsPerNode : Nat) (groups : Packing α) (e : Nat) : Nat :=
  let g := e / groupSize
  (groups.packIndex g * groupsPerNode + groups.rankInPack g) * groupSize + e % groupSize

/-- One node's slots of one layer. -/
def nodeSlots (phyPerGpu phyPerNode first : Nat) (mlog2log : Nat → Nat) (replicas : Replicas) (gpus : Packing α) :
    List Nat :=
  let pphy2phy := inverse phyPerNode fun phy => gpus.packIndex phy * phyPerGpu + gpus.rankInPack phy
  (List.range phyPerNode).map fun pphy => mlog2log (replicas.phy2log.getD (pphy2phy pphy) 0 + first)

/-- The loads of the experts of each (layer, node), in node order. -/
def tokensPerMlog (mlog2log : List (Nat → Nat)) (numNodes logPerNode : Nat) : List (List α) :=
  (weight.zip mlog2log).flatMap fun layer => (List.range numNodes).map fun n =>
    (List.range logPerNode).map fun j => layer.1.getD (layer.2 (n * logPerNode + j)) 0

def tokensPerPhy (tokens : List (List α)) (replicas : List Replicas) : List (List α) :=
  (tokens.zip replicas).map fun row => row.2.phy2log.map fun m => row.1.getD m 0 / (row.2.count.getD m 0 : α)

def rebalanceExpertsHierarchical (numPhysical numGroups numNodes numGpus : Nat) : Result (List (List Nat)) := do
  let numLogical := width weight
  assert (numGroups ≠ 0 && numLogical % numGroups = 0)
    s!"num_logical_experts={numLogical} must be divisible by num_groups={numGroups}."
  let groupSize := numLogical / numGroups
  assert (numNodes ≠ 0 && numGroups % numNodes = 0)
    s!"num_groups={numGroups} must be divisible by num_nodes={numNodes}."
  let groupsPerNode := numGroups / numNodes
  assert (numGpus ≠ 0 && numGpus % numNodes = 0) s!"num_gpus={numGpus} must be divisible by num_nodes={numNodes}."
  assert (numPhysical % numGpus = 0) s!"num_physical_experts={numPhysical} must be divisible by num_gpus={numGpus}."
  let logPerNode := numLogical / numNodes
  let phyPerNode := numPhysical / numNodes
  let tokensPerGroup ← weight.mapM (chunkSums groupSize)
  let groups ← balancedPacking tokensPerGroup numNodes
  let mlog2log := groups.map fun layer => inverse numLogical (log2mlog groupSize groupsPerNode layer)
  let tokens := tokensPerMlog weight mlog2log numNodes logPerNode
  let replicas ← replicateExperts tokens phyPerNode
  let gpus ← balancedPacking (tokensPerPhy tokens replicas) (numGpus / numNodes)
  pure (mlog2log.zipIdx.map fun layer => (List.range numNodes).flatMap fun n =>
    nodeSlots (numPhysical / numGpus) phyPerNode (n * logPerNode) layer.1
      (replicas.getD (layer.2 * numNodes + n) ⟨[], [], []⟩) (gpus.getD (layer.2 * numNodes + n) {}))

end Loads

/-! ## What a placement is -/

/-- A way to give `slots` slots to `n` experts. -/
structure Counts (n slots : Nat) (count : List Nat) : Prop where
  length : count.length = n
  total : count.sum = slots
  pos : ∀ c ∈ count, 1 ≤ c

/-- The items and the places of the packs correspond. -/
def Packs {α : Type} [Zero α] (n N K : Nat) (p : Packing α) : Prop :=
  Set.BijOn (fun i => (p.packIndex i, p.rankInPack i)) (Set.Iio n) (Set.Iio N ×ˢ Set.Iio K)

/-- Every expert has its copies, all in the slots of the node of its group, and every node its share of the groups. -/
structure Placed (numLogical numPhysical numGroups numNodes : Nat) (node copies : Nat → Nat) (row : List Nat) :
    Prop where
  length : row.length = numPhysical
  known : ∀ e ∈ row, e < numLogical
  home : ∀ s e, row[s]? = some e → s / (numPhysical / numNodes) = node (e / (numLogical / numGroups))
  hosted : ∀ k < numNodes, ((Finset.range numGroups).filter fun g => node g = k).card = numGroups / numNodes
  copies : ∀ e < numLogical, row.count e = copies e ∧ 1 ≤ copies e

end TokenSpeed.Engine

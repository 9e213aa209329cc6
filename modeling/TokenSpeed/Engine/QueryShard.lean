import Mathlib.Algebra.Ring.Nat

/-!
# Query shards

`runtime/execution/query_shard.py`: how the packed rows of one forward are split over the ranks of a
query-context-parallel group. Row numbers and counts are naturals; a `ValueError` is an error.
-/

namespace TokenSpeed.Engine

structure Slice where
  start : Nat
  stop : Nat
  deriving DecidableEq, Repr

def Slice.of {α : Type} (s : Slice) (l : List α) : List α := (l.take s.stop).drop s.start

def Slice.rows (s : Slice) : List Nat := List.range' s.start (s.stop - s.start)

def scatterCount (numTokens size : Nat) : List Nat :=
  List.replicate (numTokens % size) (numTokens / size + 1) ++
    List.replicate (size - numTokens % size) (numTokens / size)

def cumsum (sum : Nat) : List Nat → List Nat
  | [] => []
  | n :: rest => (sum + n) :: cumsum (sum + n) rest

/-- `torch.diff` with the element before the first. -/
def diff (before : Nat) : List Nat → List Nat
  | [] => []
  | n :: rest => (n - before) :: diff n rest

/-- `torch.searchsorted` of one bound: on sorted rows, how many are below it. -/
def below (rows : List Nat) (bound : Nat) : Nat := rows.countP (· < bound)

def splitSortedRows (rowCounts rows : List Nat) : Except String (List Nat) := do
  unless rows.Pairwise (· ≤ ·) do throw "query shard: rows must be sorted ascending"
  let bounds := cumsum 0 rowCounts
  let below := bounds.map (below rows)
  unless below.getLastD 0 = rows.length do
    let last := rows.foldl max 0
    let span := bounds.getLastD 0
    throw s!"query shard: rows up to {last} exceed the {span}-row span"
  return diff 0 below

/-- `QueryShardPlan`, with what `__post_init__` checks. -/
structure QueryShardPlan where
  size : Nat
  rank : Nat
  rowCounts : List Nat
  sampledRowsPerRank : List Nat
  rank_lt : rank < size
  rowCounts_length : rowCounts.length = size
  sampled_length : sampledRowsPerRank.length = size
  deriving DecidableEq, Repr

namespace QueryShardPlan

def postInit (size rank : Nat) (rowCounts sampled : List Nat) : Except String QueryShardPlan :=
  if hr : rank < size then
    if hc : rowCounts.length = size then
      if hs : sampled.length = size then .ok ⟨size, rank, rowCounts, sampled, hr, hc, hs⟩
      else .error "query shard sampled_rows_per_rank must name every rank"
    else .error "query shard row_counts must name every rank"
  else .error s!"query shard rank {rank} is outside a group of {size}"

def sampledRows (inputLengths : List Nat) : List Nat := (cumsum 0 inputLengths).map (· - 1)

/-- A sum of `int64` tensors. -/
def int64 (n : Nat) : Int := (BitVec.ofNat 64 n).toInt

/-- `from_forward`; once the lengths' `int64` sum is `totalTokens`, no later sum wraps. -/
def fromForward (totalTokens : Nat) (inputLengths : List Nat) (size rank : Nat) : Except String QueryShardPlan := do
  let sum := int64 inputLengths.sum
  unless sum = totalTokens do throw s!"query shard: input lengths sum to {sum}, not {totalTokens} rows"
  if size = 0 then throw "integer division or modulo by zero"
  let rowCounts := scatterCount totalTokens size
  postInit size rank rowCounts (← splitSortedRows rowCounts (sampledRows inputLengths))

variable (p : QueryShardPlan)

def totalRows : Nat := p.rowCounts.sum

def localRows : Nat := p.rowCounts.getD p.rank 0

def localStart : Nat := (p.rowCounts.take p.rank).sum

def localEnd : Nat := p.localStart + p.localRows

def localSlice : Slice := ⟨p.localStart, p.localEnd⟩

def sampledRowsTotal : Nat := p.sampledRowsPerRank.sum

def rowsPerRank (rows : List Nat) : Except String (List Nat) := splitSortedRows p.rowCounts rows

def localRowsRun (rowsPerRank : List Nat) : Slice :=
  let first := (rowsPerRank.take p.rank).sum
  ⟨first, first + rowsPerRank.getD p.rank 0⟩

def localSampledIds (gatherIds : List Int) : Except String (List Int) :=
  let ids := gatherIds.length
  let total := p.sampledRowsTotal
  if ids ≠ total then
    .error (s!"query shard: {ids} gather ids for a plan of {total} sampled rows; " ++
      "pass the batch's full layout, not a shard's slice")
  else .ok (((p.localRowsRun p.sampledRowsPerRank).of gatherIds).map (· - (p.localStart : Int)))

def rowsForCollective (numTokens : Option Nat) : Except String (List Nat) :=
  if numTokens.all (· = p.totalRows) then .ok p.rowCounts
  else if numTokens = some p.sampledRowsTotal then .ok p.sampledRowsPerRank
  else
    let tokens := numTokens.getD 0
    let total := p.totalRows
    let sampled := p.sampledRowsTotal
    .error (s!"query shard: a collective over {tokens} rows matches neither the {total} shard rows " ++
      s!"nor the {sampled} sampled rows")

/-- How many of the rows lie in each rank's slice. -/
def heldBy (plans : Nat → QueryShardPlan) (size : Nat) (rows : List Nat) : List Nat :=
  (List.range size).map fun r => rows.countP (· ∈ (plans r).localSlice.rows)

end QueryShardPlan

end TokenSpeed.Engine

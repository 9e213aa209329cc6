import Mathlib.Algebra.Order.Ring.Int
import Mathlib.Data.List.Sort

/-!
# What an encode rank reads of a chunk

`shard_rows` of `ts-pd/src/epd/mod.rs`, and `validate_fanout` and `shard_payload` of `epd/sender.rs`: the rows each
prefill rank asks for, the check of a room's requests, and the bytes each request reads. The integers are the
source's, which wrap in a release build. Where the rows land is left out.
-/

namespace TokenSpeed.Transfer

open List

/-- `shard_rows`: the first row and the rows of `rank`. -/
def shardRows (span rank size : Int64) : Int64 × Int64 :=
  let base := span / size
  let rem := span % size
  (rank * base + min rank rem, base + if rank < rem then 1 else 0)

structure EmbeddingChunk where
  source : UInt64
  rows : Int64
  hidden : Int64
  dtype : String
  nbytes : UInt64
  deepstackSource : UInt64
  deepstackWidth : Int64
  deepstackNbytes : UInt64

/-- The rows a `TransferInfo` asks for. -/
structure ShardInfo where
  rows : Int64
  hidden : Int64
  dtype : String
  hasDeepstack : Bool
  rowStart : Int64
  span : Int64

/-- A first row and a number of rows. -/
abbrev Shard := Int64 × Int64

def ShardInfo.shard (info : ShardInfo) : Shard := (info.rowStart, info.rows)

namespace EmbeddingChunk

variable (chunk : EmbeddingChunk) (info : ShardInfo)

/-- `rows` of `shard_payload`. -/
def rowCount : UInt64 := (max chunk.rows 1).toUInt64

/-- `shard_payload`: the first address and the bytes of the rows, and of the deepstack rows. -/
def shardPayload : (UInt64 × UInt64) × UInt64 × UInt64 :=
  let start := (max info.rowStart 0).toUInt64
  let count := (max info.rows 0).toUInt64
  let span (source nbytes : UInt64) := (source + start * (nbytes / chunk.rowCount), count * (nbytes / chunk.rowCount))
  (span chunk.source chunk.nbytes,
    if 0 < chunk.deepstackWidth ∧ 0 < chunk.deepstackNbytes then span chunk.deepstackSource chunk.deepstackNbytes
    else (0, 0))

/-- The check `validate_fanout` makes of each request. -/
def refusal : Option String :=
  if info.hidden != chunk.hidden || info.dtype != chunk.dtype then some "embedding shape/dtype contract violated"
  else if info.span != chunk.rows then
    some s!"image token-count contract violated: receiver expects {info.span} rows, encode has {chunk.rows}"
  else if info.rowStart < 0 ∨ info.rows < 0 ∨ chunk.rows < info.rowStart + info.rows then
    some s!"embedding shard out of range: rows [{info.rowStart}, {info.rowStart + info.rows}) of {chunk.rows}"
  else if info.hasDeepstack && chunk.deepstackWidth == 0 then
    some ("receiver expects deepstack but the chunk carries none (encode-side cache hit " ++
      "without its deepstack half?)")
  else if 0 < chunk.deepstackWidth ∧ info.hasDeepstack = false then
    some "chunk carries deepstack but the receiver did not allocate for it"
  else none

end EmbeddingChunk

/-- The first two of the sorted shards that do not adjoin. -/
def shardGap : List Shard → Option String
  | (start, count) :: (next, size) :: shards =>
    if start + count != next then
      some s!"embedding shard frames do not tile contiguously: [{start}, {start + count}) then [{next}, ...)"
    else shardGap ((next, size) :: shards)
  | _ => none

def PairLe (a b : Shard) : Prop := a.1 < b.1 ∨ a.1 = b.1 ∧ a.2 ≤ b.2

instance : DecidableRel PairLe := fun _ _ => inferInstanceAs (Decidable (_ ∨ _))

/-- The non-empty shards, sorted. -/
def sortedShards (infos : List ShardInfo) : List Shard :=
  ((infos.filter (0 < ·.rows)).map ShardInfo.shard).insertionSort PairLe

def validateFanout (infos : List ShardInfo) (chunk : EmbeddingChunk) : Option String :=
  match infos.findSome? chunk.refusal with
  | some reason => some reason
  | none =>
    if infos.all fun info => info.rowStart == 0 && info.rows == chunk.rows then none
    else shardGap (sortedShards infos)

/-! ## What is asked of the reads -/

/-- The rows of a request end before an `i64` does. -/
def ShardInfo.Fits (info : ShardInfo) : Prop := info.rowStart.toInt + info.rows.toInt < 2 ^ 63

instance (info : ShardInfo) : Decidable info.Fits := inferInstanceAs (Decidable (_ < _))

/-- A span of addresses, which wrap, is empty or inside `nbytes` bytes from `source`. -/
def Inside (source nbytes : UInt64) (span : UInt64 × UInt64) : Prop :=
  span.2 = 0 ∨ (span.1 - source).toNat + span.2.toNat ≤ nbytes.toNat

def Shard.holds (r : Int) (shard : Shard) : Bool :=
  decide (shard.1.toInt ≤ r ∧ r < shard.1.toInt + shard.2.toInt)

/-- The shards are the rows of one range, each in one of them. -/
def Tile (infos : List ShardInfo) : Prop :=
  ∃ low high : Int, ∀ r, infos.countP (Shard.holds r ·.shard) = if low ≤ r ∧ r < high then 1 else 0

/-- The requests read inside the chunk, and each reads all of it or no two the same row and none leaves a gap. -/
structure ReadsChunk (infos : List ShardInfo) (chunk : EmbeddingChunk) : Prop where
  rows : ∀ info ∈ infos, Inside chunk.source chunk.nbytes (chunk.shardPayload info).1
  deepstack : ∀ info ∈ infos, Inside chunk.deepstackSource chunk.deepstackNbytes (chunk.shardPayload info).2
  shards : (∀ info ∈ infos, info.rowStart = 0 ∧ info.rows = chunk.rows) ∨ Tile infos

/-- A chunk whose bytes are whole rows. -/
def EmbeddingChunk.Strided (chunk : EmbeddingChunk) : Prop :=
  chunk.rowCount.toNat ∣ chunk.nbytes.toNat ∧ chunk.rowCount.toNat ∣ chunk.deepstackNbytes.toNat

/-- The bytes and their addresses, which no check reads. -/
def EmbeddingChunk.placed (chunk : EmbeddingChunk) (source nbytes deepstackSource deepstackNbytes : UInt64) :
    EmbeddingChunk :=
  { chunk with
    source := source
    nbytes := nbytes
    deepstackSource := deepstackSource
    deepstackNbytes := deepstackNbytes }

end TokenSpeed.Transfer

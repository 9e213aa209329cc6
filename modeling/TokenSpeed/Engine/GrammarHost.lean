import Mathlib.Algebra.BigOperators.Group.Finset.Basic

/-!
# Grammars of overlapped forwards

`Batch` and `Host` of `runtime/grammar/grammar_host.py` and `resolve_grammar_completion` of `capturable_grammar.py`:
the matchers of a forward are advanced by the host node of the next one or by the thread that commits the forward.
Node `k` runs once forward `k - 1` has sampled, and forward `k` samples once node `k` has filled its masks. A matcher
is any automaton; the masks and the walk along drafts, which leaves it unchanged, are left out. The holds on a
matcher's handle are counted with the references to its native object.
-/

namespace TokenSpeed.Engine

open Function

/-- A matcher: `accept_token`, none where it rejects the token, and `is_terminated`. -/
structure Automaton (σ : Type) where
  accept : σ → Int → Option σ
  terminated : σ → Bool

structure GrammarRow where
  handle : Option Nat
  advance : Bool
  deriving DecidableEq, Repr

/-- `Batch`, as it is made. -/
structure GrammarBatch where
  rows : List GrammarRow
  numExtends : Nat
  numPrefillOutputs : Nat
  numDecodes : Nat
  decodeWidth : Nat
  deriving DecidableEq, Repr

namespace GrammarBatch

variable (b : GrammarBatch)

def valid : Bool := (b.rows.drop (b.numExtends + b.numDecodes)).all (·.handle.isNone)

def hasMatcher : Bool := b.rows.any (·.handle.isSome)

def tokenOffset (request : Nat) : Nat :=
  if request < b.numExtends then min request b.numPrefillOutputs
  else b.numPrefillOutputs + (request - b.numExtends) * b.decodeWidth

def uses (handle : Nat) : Nat := (b.rows.filter (·.handle = some handle)).length

def advances (i : Nat) : Option Nat := (b.rows[i]?).bind fun row => if row.advance then row.handle else none

end GrammarBatch

structure ForwardOutput where
  tokens : List Int
  lengths : List Nat
  deriving DecidableEq, Repr

def ForwardOutput.rowTokens (out : ForwardOutput) (b : GrammarBatch) (i : Nat) : List Int :=
  (out.tokens.drop (b.tokenOffset i)).take (out.lengths.getD i 0)

def ForwardOutput.Covers (out : ForwardOutput) (b : GrammarBatch) : Prop :=
  b.rows.length ≤ out.lengths.length ∧
    ∀ i < b.rows.length, (b.advances i).isSome → b.tokenOffset i + out.lengths.getD i 0 ≤ out.tokens.length

instance (out : ForwardOutput) (b : GrammarBatch) : Decidable (out.Covers b) := inferInstanceAs (Decidable (_ ∧ _))

/-- The tokens a matcher takes from its row: up to the first it rejects, and no further than the first that ends its
grammar, whose index comes with the state. -/
def Automaton.walk {σ : Type} (A : Automaton σ) : σ → List Int → Int → σ × Int
  | s, [], _ => (s, -1)
  | s, token :: tokens, j =>
    match A.accept s token with
    | none => (s, -1)
    | some s' => if A.terminated s' then (s', j) else A.walk s' tokens (j + 1)

def Automaton.advanced {σ : Type} (A : Automaton σ) (s : σ) (tokens : List Int) : σ × Int :=
  if A.terminated s then (s, -1) else A.walk s tokens 0

/-- The loop of `TryAdvance` over a row's tokens in a buffer. -/
def Automaton.loop {σ : Type} (A : Automaton σ) (tokens : List Int) (offset : Nat) : Nat → Nat → σ → σ × Int
  | 0, _, s => (s, -1)
  | left + 1, j, s =>
    match tokens[offset + j]? with
    | none => (s, -1)
    | some token =>
      match A.accept s token with
      | none => (s, -1)
      | some s' => if A.terminated s' then (s', j) else A.loop tokens offset left (j + 1) s'

/-! ## Runs -/

inductive GrammarThread where
  | node
  | resolver
  deriving DecidableEq, Repr

/-- `State`; the thread that took a batch on has come to a row, with the ends of those before. -/
inductive BatchStatus where
  | pending
  | advancing (by_ : GrammarThread) (row : Nat) (ends : List Int)
  | done
  deriving DecidableEq, Repr

inductive NodePhase where
  | idle
  | advance
  | fill
  deriving DecidableEq, Repr

inductive ResolvePhase where
  | idle
  | waiting
  | host
  deriving DecidableEq, Repr

structure Advance (σ : Type) where
  forward : Nat
  row : Nat
  handle : Nat
  before : σ
  after : σ
  ended : Int

/-- The forwards added, the node, the resolver, the pinned buffers and the matchers. -/
structure GrammarRun (σ : Type) where
  capacity : Nat
  matchers : Nat → σ
  batches : List GrammarBatch := []
  status : Nat → BatchStatus := fun _ => .pending
  terminatedAt : Nat → List Int := fun _ => []
  started : Nat := 0
  node : NodePhase := .idle
  outputs : List ForwardOutput := []
  bufferTokens : List Int := List.replicate capacity 0
  bufferLengths : List Nat := List.replicate capacity 0
  resolved : Nat := 0
  resolving : ResolvePhase := .idle
  known : Nat → Bool := fun _ => false
  live : Nat → Bool := fun _ => false
  holds : Nat → Nat := fun _ => 0
  dropped : Nat → Bool := fun _ => false
  log : List (Advance σ) := []

inductive GrammarEvent where
  | register (handle : Nat)
  | release (handle : Nat)
  | add (batch : GrammarBatch)
  | start
  | claim (by_ : GrammarThread)
  | row (by_ : GrammarThread)
  | finish (by_ : GrammarThread)
  /-- the node finds the forward before its own advanced -/
  | skip
  | fill
  | sample (out : ForwardOutput)
  | resolve
  | timeout
  | settled
  /-- the last reference to a batch goes -/
  | drop (forward : Nat)

namespace GrammarRun

variable {σ : Type} (A : Automaton σ) (h : GrammarRun σ)

def target : GrammarThread → Option Nat
  | .node => if h.node = .advance then some (h.started - 2) else none
  | .resolver => if h.resolving = .host then some h.resolved else none

def source : GrammarThread → List Int × List Nat
  | .node => (h.bufferTokens, h.bufferLengths)
  | .resolver => ((h.outputs[h.resolved]?).elim ([], []) fun out => (out.tokens, out.lengths))

/-- What `TryAdvance` makes of a row. -/
def rowResult (by_ : GrammarThread) (b : GrammarBatch) (i : Nat) (s : σ) : σ × Int :=
  if A.terminated s then (s, -1)
  else A.loop (h.source by_).1 (b.tokenOffset i) ((h.source by_).2.getD i 0) 0 s

def stepRow (by_ : GrammarThread) (k : Nat) (b : GrammarBatch) (i : Nat) (ends : List Int) : GrammarRun σ :=
  match b.advances i with
  | none => { h with status := update h.status k (.advancing by_ (i + 1) (ends ++ [-1])) }
  | some handle =>
    let result := h.rowResult A by_ b i (h.matchers handle)
    { h with
      matchers := update h.matchers handle result.1
      log := h.log ++ [⟨k, i, handle, h.matchers handle, result.1, result.2⟩]
      status := update h.status k (.advancing by_ (i + 1) (ends ++ [result.2])) }

def finished (by_ : GrammarThread) (k : Nat) (ends : List Int) : GrammarRun σ :=
  let h := { h with
    status := update h.status k .done
    terminatedAt := update h.terminatedAt k ends }
  match by_ with
  | .node => { h with node := .fill }
  | .resolver => { h with resolving := .idle, resolved := h.resolved + 1 }

def step : GrammarEvent → Option (GrammarRun σ)
  | .register handle =>
    if h.known handle then none
    else some { h with
      known := update h.known handle true
      live := update h.live handle true
      holds := update h.holds handle (h.holds handle + 1) }
  | .release handle =>
    if h.live handle then
      some { h with
        live := update h.live handle false
        holds := update h.holds handle (h.holds handle - 1) }
    else none
  | .add b =>
    if b.valid ∧ ∀ row ∈ b.rows, ∀ handle ∈ row.handle, h.live handle then
      some { h with
        batches := h.batches ++ [b]
        status := update h.status h.batches.length (if b.hasMatcher then .pending else .done)
        terminatedAt := update h.terminatedAt h.batches.length (List.replicate b.rows.length (-1))
        holds := fun handle => h.holds handle + b.uses handle }
    else none
  | .start =>
    if h.node = .idle ∧ h.started < h.batches.length ∧ h.outputs.length = h.started then
      some { h with started := h.started + 1, node := if h.started = 0 then .fill else .advance }
    else none
  | .claim by_ =>
    match h.target by_ with
    | none => none
    | some k =>
      if h.status k = .pending then some { h with status := update h.status k (.advancing by_ 0 []) } else none
  | .row by_ =>
    match h.target by_ with
    | none => none
    | some k =>
      match h.status k, h.batches[k]? with
      | .advancing who i ends, some b =>
        if who = by_ ∧ i < b.rows.length then some (h.stepRow A by_ k b i ends) else none
      | _, _ => none
  | .finish by_ =>
    match h.target by_ with
    | none => none
    | some k =>
      match h.status k, h.batches[k]? with
      | .advancing who i ends, some b => if who = by_ ∧ i = b.rows.length then some (h.finished by_ k ends) else none
      | _, _ => none
  | .skip => if h.node = .advance ∧ h.status (h.started - 2) = .done then some { h with node := .fill } else none
  | .fill => if h.node = .fill then some { h with node := .idle } else none
  | .sample out =>
    if h.node = .idle ∧ h.outputs.length < h.started ∧ (∀ b ∈ h.batches[h.outputs.length]?, out.Covers b) ∧
        out.tokens.length ≤ h.capacity then
      some { h with
        outputs := h.outputs ++ [out]
        bufferTokens := out.tokens ++ h.bufferTokens.drop out.tokens.length
        bufferLengths := out.lengths ++ h.bufferLengths.drop out.lengths.length }
    else none
  | .resolve =>
    if h.resolving = .idle ∧ h.resolved < h.outputs.length then some { h with resolving := .waiting } else none
  | .timeout => if h.resolving = .waiting then some { h with resolving := .host } else none
  | .settled =>
    if h.resolving ≠ .idle ∧ h.status h.resolved = .done then
      some { h with resolving := .idle, resolved := h.resolved + 1 }
    else none
  | .drop k =>
    if k + 2 ≤ h.started ∧ (h.node = .idle ∨ k + 2 < h.started) ∧ k < h.resolved ∧ h.dropped k = false then
      some { h with
        dropped := update h.dropped k true
        holds := fun handle => h.holds handle - (h.batches[k]?).elim 0 (·.uses handle) }
    else none

def Step (h h' : GrammarRun σ) : Prop := ∃ event, h.step A event = some h'

def steps : GrammarRun σ → List GrammarEvent → Option (GrammarRun σ)
  | h, [] => some h
  | h, event :: events => (h.step A event).bind fun h' => steps h' events

/-! ## What is asked of a run -/

def stateBy (initial : Nat → σ) (log : List (Advance σ)) (handle : Nat) : σ :=
  log.foldl (fun s e => if e.handle = handle then e.after else s) (initial handle)

def endedAt (log : List (Advance σ)) (k i : Nat) : Int :=
  ((log.find? fun e => e.forward = k ∧ e.row = i).map (·.ended)).getD (-1)

def used : GrammarEvent → List Nat
  | .row by_ =>
    ((h.target by_).bind fun k =>
      match h.status k, h.batches[k]? with
      | .advancing _ i _, some b => b.advances i
      | _, _ => none).toList
  | .fill => ((h.batches[h.started - 1]?).elim [] fun b => b.rows.filterMap (·.handle))
  | _ => []

/-- The advances follow the forwards: each is of a row that advances its matcher, in the order of the forwards and once,
from where the matcher was, by the row's own tokens; a batch that is done has advanced all of them and says where each
ended; a resolved forward is done. -/
structure Follows (initial : Nat → σ) : Prop where
  rows : ∀ e ∈ h.log, ∃ b out, h.batches[e.forward]? = some b ∧ h.outputs[e.forward]? = some out ∧
    b.advances e.row = some e.handle ∧ (e.after, e.ended) = A.advanced e.before (out.rowTokens b e.row)
  order : h.log.Pairwise fun e e' => e.forward < e'.forward ∨ e.forward = e'.forward ∧ e.row < e'.row
  chain : ∀ earlier e later, h.log = earlier ++ e :: later → e.before = stateBy initial earlier e.handle
  state : ∀ handle, h.matchers handle = stateBy initial h.log handle
  all : ∀ k b, h.batches[k]? = some b → h.status k = .done → ∀ i handle, b.advances i = some handle →
    ∃ e ∈ h.log, e.forward = k ∧ e.row = i ∧ e.handle = handle
  ends : ∀ k b, h.batches[k]? = some b → h.status k = .done →
    h.terminatedAt k = (List.range b.rows.length).map (endedAt h.log k)
  resolved : ∀ k < h.resolved, h.status k = .done

end GrammarRun

end TokenSpeed.Engine

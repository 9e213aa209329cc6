import TokenSpeed.Client.Lemmas.Controls
import TokenSpeed.Client.Lemmas.Streams
import TokenSpeed.Logic.Runs

/-!
# The engine client over whole runs
-/

namespace TokenSpeed.Client

open Option

/-- `EngineClient`: its streams and its control operations. -/
structure EngineClient where
  streams : StreamRun := {}
  controls : ControlRun := {}

namespace EngineClient

inductive Event where
  | stream (event : StreamEvent)
  | control (event : ControlEvent)
  | close
  deriving DecidableEq, Repr

section

variable (req : Nat → Request) (n : Nat) (tag : Nat → Nat) (c : EngineClient)

def step : Event → Option EngineClient
  | .stream event => if event = .close then none else (c.streams.step req event).map fun streams =>
    { c with streams := streams }
  | .control event =>
    if event = .close then none else (c.controls.step n tag event).map fun controls => { c with controls := controls }
  | .close => some { streams := { c.streams with closed := true }, controls := { c.controls with closed := true } }

/-- Ids and tags are used again once nothing is left of their earlier use. -/
def Orderly : Event → Prop
  | .stream event => c.streams.Orderly req event
  | .control event => c.controls.Orderly n tag event
  | .close => True

instance : (event : Event) → Decidable (c.Orderly req n tag event)
  | .stream event => inferInstanceAs (Decidable (c.streams.Orderly req event))
  | .control event => inferInstanceAs (Decidable (c.controls.Orderly n tag event))
  | .close => .isTrue trivial

def Step (c c' : EngineClient) : Prop := ∃ event, c.step req n tag event = some c' ∧ c.Orderly req n tag event

def steps : EngineClient → List Event → Option EngineClient
  | c, [] => some c
  | c, event :: events => (c.step req n tag event).bind fun c' => steps c' events

def run : EngineClient → List Event → Option EngineClient
  | c, [] => some c
  | c, event :: events =>
    if c.Orderly req n tag event then (c.step req n tag event).bind fun c' => run c' events else none

end

variable {req : Nat → Request} {n : Nat} {tag : Nat → Nat} {c c' : EngineClient}

theorem inv_step (hv : StreamRun.Inv req c.streams ∧ ControlRun.Inv n tag c.controls) (hs : Step req n tag c c') :
    StreamRun.Inv req c'.streams ∧ ControlRun.Inv n tag c'.controls := by
  obtain ⟨ev, hs, hd⟩ := hs
  cases ev with
  | stream ev =>
    obtain ⟨_, hs⟩ := ite_none_left_eq_some.mp hs
    obtain ⟨streams, ht, rfl⟩ := map_eq_some_iff.mp hs
    exact ⟨@StreamRun.Inv.step _ _ _ hv.1 ev hd ht, hv.2⟩
  | control ev =>
    obtain ⟨_, hs⟩ := ite_none_left_eq_some.mp hs
    obtain ⟨controls, hc, rfl⟩ := map_eq_some_iff.mp hs
    exact ⟨hv.1, @ControlRun.Inv.step _ _ _ _ hv.2 ev hd hc⟩
  | close =>
    cases hs
    exact ⟨@StreamRun.Inv.step _ _ _ hv.1 .close trivial rfl, @ControlRun.Inv.step _ _ _ _ hv.2 .close trivial rfl⟩

theorem steps_of_run {evs c} : run req n tag c evs = some c' → Relation.ReflTransGen (Step req n tag) c c' :=
  reaches_of_run (fun _ => rfl) fun {_ ev _ _} hn => by
    obtain ⟨hd, hn⟩ := ite_none_right_eq_some.mp hn
    obtain ⟨c1, hs, hr⟩ := bind_eq_some_iff.mp hn
    exact ⟨c1, ⟨ev, hs, hd⟩, hr⟩

/-- In every run in which an id is used again once nothing is left of its earlier submissions, a tag once its earlier
operations are answered, and requests are drained while no call is under way to the count, streams do not mix and
control calls return the replies to their own operation. -/
theorem streams_and_replies_apart (hrun : Relation.ReflTransGen (Step req n tag) {} c) :
    c.streams.Separate req ∧ c.controls.Answered n := by
  have hin : StreamRun.Inv req c.streams ∧ ControlRun.Inv n tag c.controls := by
    induction hrun with
    | refl => exact ⟨.start, .start⟩
    | tail _ hs ih => exact inv_step ih hs
  exact ⟨hin.1.separate, hin.2.answered⟩

/-- Every call has the one id and goes to the one engine. -/
def sameId (_ : Nat) : Request := ⟨7, 0⟩

/-- A submission answered with one chunk, up to its output being received. -/
def submit (s : Nat) : List Event :=
  [.stream .call, .stream (.insert s), .stream (.count s), .stream (.deliver s), .stream (.sent s)]

def answer (s : Nat) : List Event := [.stream (.take 0), .stream (.produce 0 s true), .stream (.receive 0)]

def control (op : Nat) : List Event :=
  [.control (.call op), .control (.acquire op), .control (.register op), .control (.send op), .control (.receive 0 op),
   .control (.finish op)]

/-- An id and a tag used twice, each time to the end. -/
def twice : List Event :=
  submit 0 ++ answer 0 ++ [.stream (.next 0)] ++ control 0 ++ submit 1 ++ answer 1 ++ [.stream (.next 1)] ++ control 1

theorem twice_apart : ∃ c, Relation.ReflTransGen (Step sameId 1 fun _ => 0) {} c ∧
    c.streams.yielded 1 = [.chunk 1 true] ∧
    c.controls.returned 1 = some [⟨0, 1⟩] ∧ c.streams.Separate sameId ∧ c.controls.Answered 1 := by
  obtain ⟨c, hr, hy, hre⟩ : ∃ c, run sameId 1 (fun _ => 0) {} twice = some c ∧ c.streams.yielded 1 = [.chunk 1 true] ∧
      c.controls.returned 1 = some [⟨0, 1⟩] := exists_of_any (by decide +kernel)
  have hs := steps_of_run hr
  exact ⟨c, hs, hy, hre, streams_and_replies_apart hs⟩

/-- A stream whose last chunk has come is dropped unread after its id was used again: the later submission is forgotten
and its engine is told to abort it. -/
theorem unread_drop_forgets : ∃ c c', steps sameId 1 (fun _ => 0) {} (submit 0 ++ answer 0 ++ submit 1) = some c ∧
    c.step sameId 1 (fun _ => 0) (.stream (.drop 0)) = some c' ∧ 1 ∈ c.streams.requests ∧ 1 ∉ c'.streams.requests ∧
      ¬c.streams.Separate sameId := by
  have hv : (steps sameId 1 (fun _ => 0) {} (submit 0 ++ answer 0 ++ submit 1)).any (fun c =>
      (c.step sameId 1 (fun _ => 0) (.stream (.drop 0))).any fun c' =>
        decide (1 ∈ c.streams.requests ∧ 1 ∉ c'.streams.requests)) = true := by decide +kernel
  obtain ⟨c, hst, hv⟩ := (any_eq_true ..).mp hv
  obtain ⟨c', hs, hv⟩ := (any_eq_true ..).mp hv
  obtain ⟨ht, hgone⟩ := of_decide_eq_true hv
  have hm : ((c.streams.step sameId (.drop 0)).map fun streams => { c with streams := streams }) = some c' := hs
  obtain ⟨streams, hsm, rfl⟩ := map_eq_some_iff.mp hm
  refine ⟨c, _, hst, hs, ht, hgone, fun hse => ?_⟩
  exact absurd (hse.removed _ _ hsm 1 ht hgone) (by simp [StreamRun.Removes])

end EngineClient

end TokenSpeed.Client

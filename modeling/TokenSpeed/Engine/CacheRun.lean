import TokenSpeed.Engine.Replica

/-!
# Acknowledgments over a run

`CacheOps` of `ts-control/src/cache_ops.rs` on all members of a replica of any size, round after round. What
was dispatched and what each member has polled and returned so far is kept beside it.
-/

namespace TokenSpeed.Engine

/-- `acknowledged` on every member once they hold their polls: what it returns and what the member keeps. A
replica of one has nothing to agree on and returns all it holds, in landing order. -/
def CacheOps.settled : (n : Nat) → (Fin (n + 1) → CacheOps) → Fin (n + 1) → List CacheEvent × CacheOps
  | 0, members, i => ((members i).pending, (members i).acknowledge (members i).pending)
  | _ + 1, members, i => CacheOps.settleAll members i

structure CacheRun (n : Nat) where
  members : Fin (n + 1) → CacheOps := fun _ => {}
  dispatched : List CacheEvent := []
  polled : Fin (n + 1) → List CacheEvent := fun _ => []
  returned : Fin (n + 1) → List CacheEvent := fun _ => []

inductive CacheRoundEvent (n : Nat) where
  | dispatch (ops : List CacheEvent)
  | round (polled : Fin (n + 1) → List CacheEvent)

namespace CacheRun

variable {n : Nat} (h : CacheRun n)

def acknowledged (polled : Fin (n + 1) → List CacheEvent) (held : Fin (n + 1) → CacheOps) :
    (Fin (n + 1) → List CacheEvent) × CacheRun n :=
  let settled := CacheOps.settled n held
  (fun i => (settled i).1, { h with
    members := fun i => (settled i).2
    polled := fun i => h.polled i ++ polled i
    returned := fun i => h.returned i ++ (settled i).1 })

/-- One event, if no member fails and all of them enter the collective or none does; with what a round returns
on each member. -/
def step : CacheRoundEvent n → Option ((Fin (n + 1) → List CacheEvent) × CacheRun n)
  | .dispatch ops =>
    some (fun _ => [], { h with
      members := fun i => (h.members i).dispatched ops.length
      dispatched := h.dispatched ++ ops })
  | .round polled =>
    if ∀ i, (h.members i).opened = 0 then some (fun _ => [], h)
    else if ∀ i, 0 < (h.members i).opened then
      if ready : ∀ i, ((h.members i).hold (polled i)).isSome then
        some (h.acknowledged polled fun i => ((h.members i).hold (polled i)).get (ready i))
      else none
    else none

def Once : CacheRoundEvent n → Prop
  | .dispatch ops => (h.dispatched ++ ops).Nodup
  | .round polled => ∀ i, (h.polled i ++ polled i).Nodup ∧ polled i ⊆ h.dispatched

instance (event : CacheRoundEvent n) : Decidable (h.Once event) :=
  match event with
  | .dispatch _ => inferInstanceAs (Decidable (List.Nodup _))
  | .round _ => inferInstanceAs (Decidable (∀ _, List.Nodup _ ∧ ∀ a, a ∈ _ → a ∈ _))

def Step (h h' : CacheRun n) : Prop := ∃ event out, h.Once event ∧ h.step event = some (out, h')

end CacheRun

end TokenSpeed.Engine

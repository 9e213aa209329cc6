import TokenSpeed.Transfer.Decode
import TokenSpeed.Transfer.Prefill

/-!
# The life cycle of a transfer

The two implementors of `TransferPeer` track a request from its registration to a terminal event. What they emit
depends on the polls their replica agrees on, the smallest of the members', and on how far a request has come.
-/

namespace TokenSpeed.Transfer

/-- The kinds of a `PdEvent`; `done` is `Succeeded` on a Prefill rank, `RemotePrefillDone` on a Decode rank. -/
inductive LifeKind where
  | bootstrapped
  | failed
  | done
  deriving DecidableEq, Repr

abbrev LifeEvent := LifeKind × Nat

def PdEvent.life : PdEvent → LifeEvent
  | .bootstrapped rid => (.bootstrapped, rid)
  | .failed rid => (.failed, rid)
  | .remotePrefillDone done => (.done, done.rid)

/-! ## Prefill ranks -/

namespace PrefillPeer

def emitted (p : PrefillPeer) (rid agreed : Nat) : List LifeEvent :=
  match p.senders rid with
  | none => []
  | some sender =>
    let poll := (TransferPoll.fromWire agreed).getD .failed
    if sender.localPoll = .bootstrapping ∧ poll = .bootstrapped then [(.bootstrapped, rid)]
    else if poll = .failed then [(.failed, rid)]
    else if sender.localPoll = .bootstrapped ∧ poll = .success then [(.done, rid)]
    else []

def emittedAll : PrefillPeer → List (Nat × Nat) → List LifeEvent
  | _, [] => []
  | p, (rid, agreed) :: rest => p.emitted rid agreed ++ emittedAll (p.conclude rid agreed).2 rest

/-- `poll`; `others` holds the smallest poll of the other members for each tracked request. -/
def poll (p : PrefillPeer) (now : Nat) (others : List Nat) : List LifeEvent × PrefillPeer :=
  let (own, polled) := polls now p p.order
  let agreed := p.order.zip (List.zipWith min (own.map (·.toWire)) others)
  let (ended, concluded) := concludeAll polled agreed
  (emittedAll polled agreed, ended.foldl forget concluded)

end PrefillPeer

/-! ## A replica of peers -/

/-- The trait `TransferPeer`, as far as the life cycle goes: `order` are the tracked requests, `own` the polls a
member contributes, and the state its threads share may become any. -/
structure TransferPeer (P S R : Type) where
  order : P → List Nat
  own : P → Nat → List Nat
  poll : P → Nat → List Nat → Option (List LifeEvent × P)
  register : P → Nat → R → P
  setState : P → S → P

def prefillPeers : TransferPeer PrefillPeer PrefillState (Nat × Nat) where
  order := PrefillPeer.order
  own p now := (PrefillPeer.polls now p p.order).1.map (·.toWire)
  poll p now others := some (p.poll now others)
  register p rid info := p.register rid info.1 info.2
  setState p state := { p with state := state }

/-- Decode ranks; a registration brings a room and an address. A poll with an error brings nothing. -/
def decodePeers : TransferPeer DecodePeer DecodeState (Nat × String) where
  order := DecodePeer.order
  own p now := (DecodePeer.polls now p p.order).1.map (·.toWire)
  poll p now others := (p.poll now others).toOption.map fun (events, p) => (events.map PdEvent.life, p)
  register p rid info := p.register rid info.1 info.2
  setState p state := { p with state := state }

def leastOf : (n : Nat) → (Fin (n + 1) → Nat) → Nat
  | 0, values => values 0
  | n + 1, values => min (values 0) (leastOf n fun i => values i.succ)

/-- `all_reduce` of the members' polls. -/
def agreedPolls {n : Nat} (count : Nat) (polls : Fin (n + 1) → List Nat) : List Nat :=
  (List.range count).map fun k => leastOf n fun i => (polls i).getD k 0

structure PeerReplica (P : Type) (n : Nat) where
  members : Fin (n + 1) → P
  emitted : Fin (n + 1) → List LifeEvent := fun _ => []
  since : Nat → List LifeKind := fun _ => []

inductive PeerEvent (S R : Type) (n : Nat) where
  | register (rid : Nat) (info : Fin (n + 1) → R)
  | threads (i : Fin (n + 1)) (state : S)
  | poll (now : Fin (n + 1) → Nat)

namespace PeerReplica

variable {P S R : Type} {n : Nat} (kind : TransferPeer P S R) (h : PeerReplica P n)

def polled (now : Fin (n + 1) → Nat) (i : Fin (n + 1)) : Option (List LifeEvent × P) :=
  kind.poll (h.members i) (now i)
    (agreedPolls (kind.order (h.members 0)).length fun j => kind.own (h.members j) (now j))

def kindsOf (events : List LifeEvent) (rid : Nat) : List LifeKind := (events.filter (·.2 = rid)).map Prod.fst

def step : PeerEvent S R n → Option (PeerReplica P n)
  | .register rid info =>
    some { h with
      members := fun i => kind.register (h.members i) rid (info i)
      since := Function.update h.since rid [] }
  | .threads i state => some { h with members := Function.update h.members i (kind.setState (h.members i) state) }
  | .poll now =>
    if ok : ∀ i, (h.polled kind now i).isSome then
      some { members := fun i => ((h.polled kind now i).get (ok i)).2
             emitted := fun i => h.emitted i ++ ((h.polled kind now i).get (ok i)).1
             since := fun rid => h.since rid ++ kindsOf ((h.polled kind now 0).get (ok 0)).1 rid }
    else none

def Step (h h' : PeerReplica P n) : Prop := ∃ event, h.step kind event = some h'

def steps : PeerReplica P n → List (PeerEvent S R n) → Option (PeerReplica P n)
  | h, [] => some h
  | h, event :: events => (h.step kind event).bind fun h' => steps h' events

/-- What is asked of a replica: its members have emitted the same, a request got at most one `Bootstrapped` and then
at most one terminal event since it registered, `done` only after `Bootstrapped`, and a request a member finds failed
in a round is tracked by none after it. -/
structure OneLife : Prop where
  same : ∀ i j, h.emitted i = h.emitted j
  life : ∀ rid, h.since rid ∈ [[], [.bootstrapped], [.failed], [.bootstrapped, .failed], [.bootstrapped, .done]]
  failed : ∀ now h', h.step kind (.poll now) = some h' → ∀ i rid,
    (rid, TransferPoll.failed.toWire) ∈ (kind.order (h.members i)).zip (kind.own (h.members i) (now i)) →
      (.failed ∈ h'.since rid) ∧ ∀ j, rid ∉ kind.order (h'.members j)

end PeerReplica

end TokenSpeed.Transfer

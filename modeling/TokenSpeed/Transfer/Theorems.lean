import TokenSpeed.Transfer.Lemmas.Bootstrap
import TokenSpeed.Transfer.Lemmas.CopiesRun
import TokenSpeed.Transfer.Lemmas.Embedding
import TokenSpeed.Transfer.Lemmas.Fanout
import TokenSpeed.Transfer.Lemmas.LifeCycle
import TokenSpeed.Transfer.Lemmas.PrefillRun

/-!
# Transfers over whole runs
-/

namespace TokenSpeed.Transfer

open Option Int64

/-! ## Decode rooms -/

namespace DecodeRun

variable {h h' : DecodeRun}

theorem steps_of_run {evs} : h.run evs = some h' → Relation.ReflTransGen Step h h' :=
  reaches_of_run (fun _ => rfl) fun {_ ev _ _} hn => by
    obtain ⟨hso, hn⟩ := ite_none_right_eq_some.mp hn
    obtain ⟨⟨out, h1⟩, hs, hr⟩ := bind_eq_some_iff.mp hn
    exact ⟨h1, ⟨ev, out, hso, hs⟩, hr⟩

/-- The room lands on the completions of all its expected ranks, one of them with the first token. -/
def LandsOn (h : DecodeRun) (room : Nat) : Prop :=
  ∃ ranks, h.peer.state.expected room = some ranks ∧
    (∀ rank ∈ ranks, ∃ m ∈ h.heard room, m.status = .success ∧ m.prefillRank = rank) ∧
    ∃ m ∈ h.heard room, m.status = .success ∧ m.prefillRank ∈ ranks ∧ 0 ≤ m.bootstrapToken

theorem Sane.landsOn (hsa : h.Sane) {room} (hs : h.peer.state.Answered (h.heard room) room) : h.LandsOn room := by
  obtain ⟨ranks, hp, hre, ht⟩ := hs
  refine ⟨ranks, hp, fun rn hr => ?_, ht⟩
  obtain ⟨_, _, _, m, hm, hc⟩ := (hsa.rooms room).answered rn (hre ▸ hr)
  exact ⟨m, hm, hc⟩

theorem Sane.used_of_failed (hs : h.Sane) {rm} (hf : h.peer.state.rooms.get rm = some .failed) : h.used rm = true := by
  cases hu : h.used rm with
  | true => rfl
  | false =>
    rw [(hs.rooms rm).gone (hs.unused rm hu).tracked] at hf
    cases hf

/-- In every run of sound events a request's prefill is reported done only once each rank its route expects
has sent its completion and one of them the first token; a failed room never comes to success, a forgotten
one is never tracked again, and a room that landed counts a completion it has heard without failing. -/
theorem decode_room_lands {waitingTimeout : Nat} (hrun : Relation.ReflTransGen Step (start waitingTimeout) h)
    {event : DecodeEvent} {out : List PdEvent} (hsound : h.Sound event) (hstep : h.step event = some (out, h')) :
    (∀ done, PdEvent.remotePrefillDone done ∈ out →
      ∃ receiver, h.peer.receivers done.rid = some receiver ∧ h.LandsOn receiver.room) ∧
    (∀ room, h.peer.state.rooms.get room = some .failed →
      ∀ h₁, Relation.ReflTransGen Step h h₁ → h₁.peer.state.rooms.get room ≠ some .success) ∧
    (∀ room, h.used room = true → h.peer.state.tracked room = false →
      ∀ h₁, Relation.ReflTransGen Step h h₁ → h₁.peer.state.tracked room = false) ∧
    ∀ m, event = .status m → m.status = .success → m ∈ h.heard m.room →
      h.peer.state.rooms.get m.room = some .success → h'.peer.state.rooms.get m.room = some .success := by
  have hs := sane_of_steps hrun
  refine ⟨fun done hm => ?_, fun room hf h₁ hlater hsu => ?_, fun room hu ht h₁ hlater =>
    (onward_steps hu hlater).2.untracked ht, fun m hev hstatus hh hget => ?_⟩
  · cases event with
    | poll now others =>
      obtain ⟨receiver, hr, hanswered⟩ := hs.answered ((poll_step hstep).2 done hm)
      exact ⟨receiver, hr, hs.landsOn hanswered⟩
    | connected ranks | connectFailed reason =>
      simp only [step] at hstep
      split at hstep
      · cases hstep
      · cases hstep
        cases hm
    | register | status | loseNode | prune | receive =>
      cases hstep
      cases hm
  · have hs₁ := sane_of_steps (hrun.trans hlater)
    rcases (onward_steps (hs.used_of_failed hf) hlater).2.failed hf with hst | hgone
    · rw [hst] at hsu
      cases hsu
    · rw [(hs₁.rooms room).gone hgone] at hsu
      cases hsu
  · subst hev
    cases hstep
    exact DecodeState.apply_duplicate (hs.rooms m.room) hget hh hstatus fun hto => hsound hstatus hto hget

/-- Two ranks complete room 5 of request 1; the first token comes with rank 0. -/
def twoRanks : List DecodeEvent :=
  [.register 1 5 "prefill:8998", .connected {0, 1}, .poll 0 [2], .receive 5 3 0,
   .status { room := 5, status := .success, prefillRank := 0, bootstrapToken := 7 },
   .status { room := 5, status := .success, prefillRank := 1 }]

theorem twoRanks_land : ∃ h h' out done receiver, Relation.ReflTransGen Step (start 100) h ∧
    h.step (.poll 1 [5]) = some (out, h') ∧ PdEvent.remotePrefillDone done ∈ out ∧
      h.peer.receivers done.rid = some receiver ∧ h.LandsOn receiver.room := by
  have hv : ((start 100).run twoRanks).any (fun h => (h.step (.poll 1 [5])).any fun result =>
      decide (PdEvent.remotePrefillDone ⟨1, 7, 0, none, none, 3⟩ ∈ result.1)) = true := by decide
  obtain ⟨h, hr, hv⟩ := (any_eq_true ..).mp hv
  obtain ⟨⟨out, h'⟩, hs, hdone⟩ := (any_eq_true ..).mp hv
  have hst := steps_of_run hr
  obtain ⟨receiver, hre, hlands⟩ :=
    (decode_room_lands hst (show h.Sound (.poll 1 [5]) from trivial) hs).1 _ (of_decide_eq_true hdone)
  exact ⟨h, h', out, _, receiver, hst, hs, of_decide_eq_true hdone, hre, hlands⟩

/-- The completion of rank 1 arrives twice: its payload was consumed when the room landed, and the copy
finds no first token. -/
theorem twoRanks_duplicate_fails : ∃ h h' m, Relation.ReflTransGen Step (start 100) h ∧ m.status = .success ∧
    m ∈ h.heard m.room ∧ h.peer.state.rooms.get m.room = some .success ∧ h.step (.status m) = some ([], h') ∧
      h'.peer.state.rooms.get m.room = some .failed := by
  have hv : ((start 100).run twoRanks).any (fun h =>
      let m : StatusMessage := { room := 5, status := .success, prefillRank := 1 }
      decide (m ∈ h.heard 5 ∧ h.peer.state.rooms.get 5 = some .success ∧
        (h.peer.state.apply m).rooms.get 5 = some .failed)) = true := by decide
  obtain ⟨h, hr, hv⟩ := (any_eq_true ..).mp hv
  obtain ⟨hh, hget, hf⟩ := of_decide_eq_true hv
  exact ⟨h, _, _, steps_of_run hr, rfl, hh, hget, rfl, hf⟩

end DecodeRun

/-! ## Prefill rooms -/

namespace PrefillRun

variable {h h' : PrefillRun}

theorem steps_of_run {evs} {h : PrefillRun} : h.run evs = some h' → Relation.ReflTransGen Step h h' :=
  reaches_of_run (fun _ => rfl) fun {_ ev _ _} hn => by
    obtain ⟨hd, hn⟩ := ite_none_right_eq_some.mp hn
    obtain ⟨outcome, hs, hr⟩ := bind_eq_some_iff.mp hn
    exact ⟨_, ⟨ev, outcome, hd, hs, rfl⟩, hr⟩

/-- In every run of orderly events, whenever a room's destinations are dropped every accepted destination that
has a reply route was sent exactly one terminal message. -/
theorem prefill_drop_tells {bootstrapTimeout : Nat} (hrun : Relation.ReflTransGen Step (start bootstrapTimeout) h)
    {event : PrefillEvent} {outcome : Outcome} (horderly : h.Orderly event) (hstep : h.step event = some outcome) :
    ∀ room ∈ outcome.dropped, outcome.atDrop.Told room :=
  ((balanced_of_steps hrun).step horderly hstep).2

/-- One of the two Decode ranks of a request. -/
def decodeRank (rank : Int) : Registration where
  endpoint := "decode"
  port := 7000
  decodeTpSize := 2
  decodeTpRank := rank
  isDummy := false
  expectedDecodeRanks := {0, 1}

/-- Both ranks pre-allocate room 5 of request 1 and its transfer runs. -/
def bothPreallocate : List PrefillEvent :=
  [.registration 10 (decodeRank 0) [] 0, .registration 11 (decodeRank 1) [] 0, .register 1 5 0,
   .preallocation 5 10 false none 0, .preallocation 5 11 false none 0, .transfer 5, .report 5]

theorem bothPreallocate_told : ∃ h outcome, Relation.ReflTransGen Step (start 10) h ∧
    h.step (.reported 5) = some outcome ∧
    5 ∈ outcome.dropped ∧ outcome.atDrop.accepted 5 = [10, 11] ∧
      ∀ room ∈ outcome.dropped, outcome.atDrop.Told room := by
  have hv : ((start 10).run bothPreallocate).any (fun h => (h.step (.reported 5)).any fun outcome =>
      decide (5 ∈ outcome.dropped ∧ outcome.atDrop.accepted 5 = [10, 11])) = true := by decide
  obtain ⟨h, hr, hv⟩ := (any_eq_true ..).mp hv
  obtain ⟨outcome, hs, hdrop⟩ := (any_eq_true ..).mp hv
  obtain ⟨hm, haccepted⟩ := of_decide_eq_true hdrop
  have hst := steps_of_run hr
  exact ⟨h, outcome, hst, hs, hm, haccepted, prefill_drop_tells hst (show h.Orderly (.reported 5) from trivial) hs⟩

/-- One of the two ranks pre-allocates; the other never does, and the request's bootstrap times out. -/
def onePreallocates : List PrefillEvent :=
  [.registration 10 (decodeRank 0) [] 0, .register 1 5 0, .preallocation 5 10 false none 0]

/-- The poll that times out forgets the room without a word to the rank that waits. -/
theorem onePreallocates_untold : ∃ h outcome, Relation.ReflTransGen Step (start 10) h ∧
    h.step (.poll 10 [5]) = some outcome ∧ 5 ∈ outcome.dropped ∧ ¬ outcome.atDrop.Told 5 := by
  have hv : ((start 10).run onePreallocates).any (fun h => (h.step (.poll 10 [5])).any fun outcome =>
      decide (5 ∈ outcome.dropped ∧ 10 ∈ outcome.atDrop.accepted 5 ∧
        (outcome.atDrop.peer.state.routeOf 10).isSome = true ∧
        timesTold (outcome.atDrop.told 5) 10 = 0)) = true := by decide
  obtain ⟨h, hr, hv⟩ := (any_eq_true ..).mp hv
  obtain ⟨outcome, hs, hdrop⟩ := (any_eq_true ..).mp hv
  obtain ⟨hm, haccepted, hro, ht⟩ := of_decide_eq_true hdrop
  refine ⟨h, outcome, steps_of_run hr, hs, hm, fun hal => ?_⟩
  rw [hal 10 haccepted hro] at ht
  cases ht

end PrefillRun

/-! ## Copies -/

namespace Pair

variable {h h' : Pair}

theorem steps_of_run {evs} {h : Pair} : h.run evs = some h' → Relation.ReflTransGen Step h h' :=
  reaches_of_run (fun _ => rfl) fun {_ ev _ _} hn => by
    obtain ⟨hd, hn⟩ := ite_none_right_eq_some.mp hn
    obtain ⟨h1, hs, hr⟩ := bind_eq_some_iff.mp hn
    exact ⟨h1, ⟨ev, hd, hs⟩, hr⟩

end Pair

/-! ## Embedding rows -/

namespace EmbeddingSender

variable {h h' : EmbeddingSender}

/-- Every event of a run of orderly events concludes rooms as it should. -/
theorem rooms_conclude {timeout : Nat} (hrun : Relation.ReflTransGen Step { timeout := timeout } h) {event : SendEvent}
    (horderly : h.Orderly event) (hstep : h.step event = some h') : Concludes h event h' :=
  concludes_of_at (step_concludesAt (tidy_run hrun) horderly hstep)

/-- Room 4 is begun, asked for by session 1, and sent. -/
def roomSent : List SendEvent := [.begin 4 0, .request 4 ⟨1, 1⟩ 1, .send 4 2]

theorem roomSent_written : ∃ h h', Relation.ReflTransGen Step { timeout := 100 } h ∧
    h.step (.work ⟨4, [⟨1, 1⟩]⟩ true (fun _ => true) 3) = some h' ∧
    Concludes h (.work ⟨4, [⟨1, 1⟩]⟩ true (fun _ => true) 3) h' ∧ h'.concluded 4 = 1 ∧ h'.toldTo 4 1 = [.success] := by
  have hv : (run { timeout := 100 } roomSent).any (fun h => (h.step (.work ⟨4, [⟨1, 1⟩]⟩ true (fun _ => true) 3)).any
      fun h' => decide (h'.concluded 4 = 1 ∧ h'.toldTo 4 1 = [.success])) = true := by decide
  obtain ⟨h, hr, hv⟩ := (any_eq_true ..).mp hv
  obtain ⟨h', hs, hv⟩ := (any_eq_true ..).mp hv
  have hst := steps_of_run hr
  exact ⟨h, h', hst, hs, rooms_conclude hst trivial hs, of_decide_eq_true hv⟩

/-- A second request is accepted while the room is written: the room goes, and its session is told nothing. -/
theorem roomSent_late : ∃ h h', steps { timeout := 100 } (roomSent ++ [.request 4 ⟨2, 1⟩ 3]) = some h ∧
    h.step (.work ⟨4, [⟨1, 1⟩]⟩ true (fun _ => true) 4) = some h' ∧
    ¬Concludes h (.work ⟨4, [⟨1, 1⟩]⟩ true (fun _ => true) 4) h' := by
  have hv : (steps { timeout := 100 } (roomSent ++ [.request 4 ⟨2, 1⟩ 3])).any (fun h =>
      decide (h.rooms 4 = some { infos := [⟨1, 1⟩, ⟨2, 1⟩], since := 0, begun := true, sending := true }) &&
      (h.step (.work ⟨4, [⟨1, 1⟩]⟩ true (fun _ => true) 4)).any
        fun h' => decide (h'.rooms 4 = none ∧ h'.toldTo 4 2 = [])) = true := by decide
  obtain ⟨h, hr, hv⟩ := (any_eq_true ..).mp hv
  obtain ⟨hro, hv⟩ := (Bool.and_eq_true ..).mp hv
  obtain ⟨h', hst, hv⟩ := (any_eq_true ..).mp hv
  obtain ⟨hn, hsilent⟩ := of_decide_eq_true hv
  refine ⟨h, h', hr, hst, fun hc => ?_⟩
  rcases hc.told 4 _ (of_decide_eq_true hro) hn with ⟨⟨hb, _⟩, _⟩ | ht
  · cases hb
  · have hs := ht ⟨2, 1⟩ (by simp)
    rw [hsilent] at hs
    simp at hs

end EmbeddingSender

/-! ## Life cycles -/

namespace PeerReplica

/-- The members of a replica of Prefill or of Decode ranks, whatever their threads do and whenever they time out, emit
one agreed life cycle for each request, as long as no poll returns an error. -/
theorem life_cycles_agree {n : Nat} (timeouts : Fin (n + 1) → Nat) :
    (∀ h, Relation.ReflTransGen (Step prefillPeers) { members := fun i => { bootstrapTimeout := timeouts i } } h →
      OneLife prefillPeers h) ∧
    ∀ h, Relation.ReflTransGen (Step decodePeers) { members := fun i => { waitingTimeout := timeouts i } } h →
      OneLife decodePeers h := by
  refine ⟨fun h hs => ?_, fun h hs => ?_⟩
  · obtain ⟨c, hal⟩ := alike_of_steps PrefillPeer.follows
      ⟨⟨[], fun _ => none⟩, fun _ => rfl, ⟨.nil, by simp⟩, fun _ => rfl, fun _ => by simp [LifeCycle.LifeOf]⟩ hs
    exact hal.oneLife PrefillPeer.follows
  · obtain ⟨c, hal⟩ := alike_of_steps DecodePeer.follows
      ⟨⟨[], fun _ => none⟩, fun _ => rfl, ⟨.nil, by simp⟩, fun _ => rfl, fun _ => by simp [LifeCycle.LifeOf]⟩ hs
    exact hal.oneLife DecodePeer.follows

/-- Two Decode members with request 1 in room 5 of both, bootstrapped. -/
def bothBootstrapped : List (PeerEvent DecodeState (Nat × String) 1) :=
  .register 1 (fun _ => (5, "prefill:8998")) ::
    (List.finRange 2).map (.threads · { rooms := { states := fun _ => some .bootstrapped } }) ++ [.poll fun _ => 0]

theorem bothBootstrapped_alike : ∃ h,
    Relation.ReflTransGen (Step decodePeers) { members := fun _ => { waitingTimeout := 9 } } h ∧
    h.since 1 = [.bootstrapped] ∧ OneLife decodePeers (n := 1) h := by
  have hv : (steps decodePeers { members := fun _ => { waitingTimeout := 9 } } bothBootstrapped).any
      (fun h => h.since 1 = [.bootstrapped]) = true := by decide
  obtain ⟨h, hr, hsince⟩ := (any_eq_true ..).mp hv
  have hs := reachable_of_steps hr
  exact ⟨h, hs, of_decide_eq_true hsince, (life_cycles_agree fun _ => 9).2 h hs⟩

/-- Both members find the room landed, but only the first has admitted its pages: it emits the request's end, and the
second's poll is an error. -/
theorem bothBootstrapped_unadmitted : ∃ h,
    steps decodePeers { members := fun _ => { waitingTimeout := 9 } } (bothBootstrapped ++
    [.threads 0 { rooms := { states := fun _ => some .success }, admissions := fun _ => some 3,
                  landed := fun _ => some { bootstrapToken := some 7 } },
     .threads 1
       { rooms := { states := fun _ => some .success }
         landed := fun _ => some { bootstrapToken := some 7 } }]) = some h ∧
    (h.polled decodePeers (fun _ => 1) 0).map Prod.fst = some [(.done, 1)] ∧
    (h.polled decodePeers (fun _ => 1) 1).isNone := by
  exact exists_of_any (by decide)

end PeerReplica

/-! ## Fan-out -/

variable {chunk : EmbeddingChunk} {infos : List ShardInfo}

/-- The requests of a validated fan-out read inside every chunk of its shape, and tile its rows, exactly when no
request's rows run past an `i64`; and the shards of `shard_rows` tile the span. -/
theorem fanout_reads_chunk (hvalid : validateFanout infos chunk = none) :
    ((∀ source nbytes deepstackSource deepstackNbytes,
        let placed := chunk.placed source nbytes deepstackSource deepstackNbytes
        placed.Strided → ReadsChunk infos placed) ↔
      ∀ info ∈ infos, info.Fits) ∧
    ∀ span size : Int64, 0 ≤ span → 1 ≤ size → (shardRows span 0 size).1 = 0 ∧ ∀ rank, 0 ≤ rank → rank < size →
      0 ≤ (shardRows span rank size).2.toInt ∧
      (shardRows span rank size).1.toInt + (shardRows span rank size).2.toInt =
        if rank + 1 < size then (shardRows span (rank + 1) size).1.toInt else span.toInt := by
  have hin : ∀ info ∈ infos, InRange chunk.rows info := fun info hm => inRange_of_validate hvalid hm
  refine ⟨⟨fun h info hm => ?_, fun hf source nbytes deepstackSource deepstackNbytes => ?_⟩, ?_⟩
  · have hr := hin info hm
    have hs := toNat_max_zero hr.start
    have hc := toNat_max_zero hr.count
    have hk := chunk.rowCount_eq
    have hu := info.rowStart.toInt_lt
    have hu' := chunk.rows.toInt_lt
    have hone : chunk.rowCount / chunk.rowCount = 1 := by
      rw [← UInt64.toNat_inj, UInt64.toNat_div]
      exact Nat.div_self (by omega)
    have hi := (h 0 chunk.rowCount 0 0 ⟨Nat.dvd_refl _, Nat.dvd_zero _⟩).rows info hm
    have hi : Inside 0 chunk.rowCount (0 + (max info.rowStart 0).toUInt64 * (chunk.rowCount / chunk.rowCount),
      (max info.rows 0).toUInt64 * (chunk.rowCount / chunk.rowCount)) := hi
    rw [hone, UInt64.mul_one, UInt64.mul_one, UInt64.zero_add] at hi
    unfold ShardInfo.Fits
    rcases hi with hz | hi
    · have hz : (max info.rows 0).toUInt64.toNat = 0 := by
        exact congrArg UInt64.toNat hz
      omega
    · rw [UInt64.sub_zero] at hi
      dsimp only at hi
      omega
  · intro placed hst
    have hp : 0 < placed.rowCount.toNat := by
      have := placed.rowCount_eq
      omega
    refine ⟨fun info hm => ?_, fun info hm => ?_, ?_⟩
    · exact inside_span hst.1 hp ((hin info hm).within (hf info hm))
    · unfold EmbeddingChunk.shardPayload
      split
      · exact inside_span hst.2 hp ((hin info hm).within (hf info hm))
      · exact .inl rfl
    · exact validateFanout_shards hvalid fun info hm => ⟨hin info hm, hf info hm⟩
  · intro span size hs hz
    obtain ⟨q, r, h⟩ := exists_split (le_iff_toInt_le.mp hs) (le_iff_toInt_le.mp hz)
    refine ⟨?_, fun rank hr hlt => h.next (le_iff_toInt_le.mp hr) (lt_iff_toInt_lt.mp hlt)⟩
    have h0 : (0 : Int64).toInt = 0 := rfl
    rw [← toInt_inj, (h.shardRows h0.ge (le_iff_toInt_le.mp hz)).1, h0]
    rw [Int.zero_mul, Int.zero_add, min_eq_left h.r_nonneg]

/-- Ten rows of eight bytes, and one request for the row past the last `i64`. -/
def tenRows : EmbeddingChunk := ⟨4096, 10, 4, "torch.bfloat16", 80, 0, 0, 0⟩

def shardOf (rowStart rows : Int64) : ShardInfo := ⟨rows, 4, "torch.bfloat16", false, rowStart, 10⟩

theorem fanout_reads_past_chunk : tenRows.Strided ∧ validateFanout [shardOf 9223372036854775807 1] tenRows = none ∧
    ¬ ReadsChunk [shardOf 9223372036854775807 1] tenRows := by
  refine ⟨⟨by decide, by decide⟩, by decide, fun h => ?_⟩
  rcases h.rows _ List.mem_cons_self with h | h
  · revert h
    decide
  · revert h
    decide

theorem fanout_reads_chunk_halves : validateFanout [shardOf 4 6, shardOf 0 4] tenRows = none ∧
    ReadsChunk [shardOf 4 6, shardOf 0 4] tenRows := by
  have hv : validateFanout [shardOf 4 6, shardOf 0 4] tenRows = none := by decide
  exact ⟨hv, (fanout_reads_chunk hv).1.mpr (by decide) 4096 80 0 0 ⟨by decide, by decide⟩⟩

/-! ## Registrations -/

namespace Bootstrap

variable {Value Contract : Type} [DecidableEq Contract]

/-- A rank of a Prefill node with two. -/
def prefillRank (rank : Int) : List (String × Int) :=
  [("role", 1), ("world_size", 2), ("dp_size", 1), ("rank_ip", 0), ("rank_port", 7000), ("engine_rank", rank)]

end Bootstrap

end TokenSpeed.Transfer

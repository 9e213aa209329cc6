import TokenSpeed.Logic.Ensures
import TokenSpeed.Scheduler.Storage

/-!
# The request list

What the setters of `Scheduler` leave alone, and how a request is found again after one of them.
-/

namespace TokenSpeed

open List

namespace Scheduler

variable {s : Scheduler} {r r' : Request} {id : Nat}

/-! ## Setters -/

section Setters

variable (s : Scheduler) (c : CacheCoordinator) (r : Request)

@[simp] theorem setCoord_coord : (s.setCoord c).coord = c := rfl
@[simp] theorem setCoord_config : (s.setCoord c).config = s.config := rfl
@[simp] theorem setCoord_requests : (s.setCoord c).requests = s.requests := rfl
@[simp] theorem setCoord_reqPool : (s.setCoord c).reqPool = s.reqPool := rfl
@[simp] theorem setCoord_snapshotSlots : (s.setCoord c).snapshotSlots = s.snapshotSlots := rfl
@[simp] theorem setCoord_transfers : (s.setCoord c).transfers = s.transfers := rfl
@[simp] theorem setCoord_maxSingleRequestTokens :
    (s.setCoord c).maxSingleRequestTokens = s.maxSingleRequestTokens := rfl
@[simp] theorem setCoord_findRequest : (s.setCoord c).findRequest id = s.findRequest id := rfl
@[simp] theorem setCoord_setCoord (c') : (s.setCoord c).setCoord c' = s.setCoord c' := rfl

@[simp] theorem setRequest_coord : (s.setRequest r).coord = s.coord := rfl
@[simp] theorem setRequest_config : (s.setRequest r).config = s.config := rfl
@[simp] theorem setRequest_reqPool : (s.setRequest r).reqPool = s.reqPool := rfl
@[simp] theorem setRequest_snapshotSlots : (s.setRequest r).snapshotSlots = s.snapshotSlots := rfl
@[simp] theorem setRequest_transfers : (s.setRequest r).transfers = s.transfers := rfl
@[simp] theorem setRequest_setCoord : (s.setRequest r).setCoord c = (s.setCoord c).setRequest r := rfl

end Setters

/-! ## Finding a request -/

theorem findRequest_mem (h : s.findRequest id = some r) : r ∈ s.requests := mem_of_find?_eq_some h

theorem findRequest_id (h : s.findRequest id = some r) : r.id = id := by
  simpa using find?_some h

theorem findRequest_isSome_iff : (s.findRequest id).isSome ↔ id ∈ s.requests.map (·.id) := by
  simp [findRequest, find?_isSome]

theorem findRequest_eq_none_iff : s.findRequest id = none ↔ id ∉ s.requests.map (·.id) := by
  rw [← findRequest_isSome_iff, Option.not_isSome_iff_eq_none]

theorem setRequest_ids (s : Scheduler) (r) : (s.setRequest r).requests.map (·.id) = s.requests.map (·.id) := by
  simp only [setRequest, map_map]
  refine map_congr_left fun x _ => ?_
  by_cases hx : x.id = r.id
  · simp [hx]
  · simp [hx]

theorem id_comp_replace (id) (r : Request) :
    (fun x : Request => x.id == id) ∘ (fun x => if x.id == r.id then r else x) = fun x => x.id == id := by
  funext x
  by_cases hx : x.id = r.id
  · simp [hx]
  · simp [hx]

theorem findRequest_setRequest_ne (h : id ≠ r.id) : (s.setRequest r).findRequest id = s.findRequest id := by
  simp only [findRequest, setRequest, find?_map, id_comp_replace]
  cases hf : s.requests.find? fun x => x.id == id with
  | none => rfl
  | some x =>
    have hx : x.id = id := by simpa using find?_some hf
    simp [hx, h]

theorem findRequest_setRequest_self (h : (s.findRequest r.id).isSome) : (s.setRequest r).findRequest r.id = some r := by
  obtain ⟨x, hf⟩ := Option.isSome_iff_exists.mp h
  have hx := findRequest_id hf
  rw [findRequest] at hf
  simp only [findRequest, setRequest, find?_map, id_comp_replace, hf]
  simp [hx]

theorem setRequest_setRequest (h : r'.id = r.id) : (s.setRequest r).setRequest r' = s.setRequest r' := by
  simp only [setRequest, map_map]
  congr 1
  refine map_congr_left fun x _ => ?_
  by_cases hx : x.id = r.id
  · simp [hx, h]
  · simp [hx, h]

def IdsNodup (s : Scheduler) : Prop := (s.requests.map (·.id)).Nodup

theorem IdsNodup.setRequest (h : s.IdsNodup) : (s.setRequest r).IdsNodup := by
  rw [IdsNodup, setRequest_ids]; exact h

theorem IdsNodup.find (h : s.IdsNodup) (hr : r ∈ s.requests) : s.findRequest r.id = some r := by
  obtain ⟨r', hf⟩ := Option.isSome_iff_exists.mp (findRequest_isSome_iff.mpr (mem_map_of_mem hr))
  rw [hf, inj_on_of_nodup_map h (findRequest_mem hf) hr (findRequest_id hf)]

theorem mem_setRequest {x : Request} (h : x ∈ (s.setRequest r).requests) : x = r ∨ x ∈ s.requests ∧ x.id ≠ r.id := by
  obtain ⟨y, hy, rfl⟩ := mem_map.mp h
  by_cases hd : y.id = r.id
  · simp [hd]
  · simp [hd, hy]

theorem withRequest_ensures {cl : Scheduler → Request → Result Scheduler} {Q : Scheduler → Prop} (hs : Q s)
    (hc : ∀ r, s.findRequest id = some r → Ensures (cl s r) Q) : Ensures (s.withRequest id cl) Q := by
  unfold withRequest
  split
  next => exact .pure hs
  next r hr => exact hc r hr

end Scheduler

/-! ## States -/

namespace RequestState

@[simp] theorem kind_withResources (st : RequestState) (resources) : (st.withResources resources).kind = st.kind := by
  cases st <;> rfl

theorem resources?_withResources {st : RequestState} {old} (resources)
    (h : st.resources? = some old) : (st.withResources resources).resources? = some resources := by
  cases st <;> first | rfl | exact nomatch h

theorem isSome_resources? (st : RequestState) : st.resources?.isSome ↔
    st.kind ∈ [.prefilling, .remotePrefilling, .prefillAwaitingResult, .prefillDone, .decoding, .finishing,
      .restoring] := by
  cases st <;> simp [resources?, kind]

end RequestState

namespace Request

variable {r : Request} {kind : StateKind} {kinds : List StateKind}

theorem is_iff : r.is kind = true ↔ r.state.kind = kind := by simp [is]

theorem isAnyOf_iff : r.isAnyOf kinds = true ↔ r.state.kind ∈ kinds := by simp [isAnyOf]

variable {resources : ForwardResources}

theorem forwardResources_ok {op} (h : r.forwardResources op = .ok resources) : r.state.resources? = some resources := by
  unfold forwardResources at h
  split at h
  next hq => rw [hq, Except.ok.inj h]
  next => exact nomatch h

@[simp] theorem toState_id (st) : (r.toState st).id = r.id := rfl
@[simp] theorem toState_state (state) : (r.toState state).state = state := rfl
@[simp] theorem toState_toState (st st') : (r.toState st).toState st' = r.toState st' := rfl

theorem setBlockTables_eq (h : r.state.resources? = some resources) (tbs : Nat → BlockTable) :
    r.setBlockTables tbs = r.toState (r.state.withResources { resources with blockTables := tbs }) := by
  rw [setBlockTables, h]

theorem setCacheProgress_eq (h : r.state.resources? = some resources) (pr) :
    r.setCacheProgress pr = r.toState (r.state.withResources { resources with cacheProgress := pr }) := by
  rw [setCacheProgress, h]

theorem withResources_withResources (st : RequestState) (a b) :
    (st.withResources a).withResources b = st.withResources b := by
  cases st <;> rfl

theorem writeBack_eq (h : r.state.resources? = some resources)
    (tbs : Nat → BlockTable) (pr) :
    (r.setBlockTables tbs).setCacheProgress pr = r.toState (r.state.withResources
      { resources with blockTables := tbs, cacheProgress := pr }) := by
  rw [setBlockTables_eq h, setCacheProgress_eq (RequestState.resources?_withResources _ h), toState_state,
    withResources_withResources, toState_toState]

end Request

end TokenSpeed

import TokenSpeed.Engine.StorageAgreement

/-!
# What the members hold

After any rounds a member holds the reports of exactly the operations not every owner has reported yet.
-/

namespace TokenSpeed.Engine

open List

open Logic (OrderedMap)

def StorageCompletion.ownerReport (completion : StorageCompletion) : OwnerReport :=
  ⟨completion.success, completion.retired, completion.objectFailures⟩

namespace L3

def owned (reports : OwnerReports) (opId rank : Nat) : Option OwnerReport := (reports.find? opId).bind (·.find? rank)

def Tight (reports : OwnerReports) : Prop := ∀ opId row, reports.find? opId = some row → ∃ rank, (row.find? rank).isSome

variable {l3 : L3} {rank : Nat} {reports : OwnerReports}

/-! ## Recording -/

theorem record_ok {completion : StorageCompletion} (hk : completion.success.length ≤ l3.limits.maxKeysPerOperation)
    (hn : owned reports completion.opId rank = none) :
    ∃ reports', l3.record rank reports completion = .ok reports' ∧ (Tight reports → Tight reports') ∧
      ∀ opId r, owned reports' opId r =
        if opId = completion.opId ∧ r = rank then some completion.ownerReport else owned reports opId r := by
  have hrw : ((reports.find? completion.opId).getD ∅).find? rank = none := by
    unfold owned at hn
    cases hf : reports.find? completion.opId with
    | none => rfl
    | some row => simpa [hf] using hn
  refine ⟨_, by simp only [record, if_neg (not_lt.mpr hk), hrw, Option.any_none]; rfl, fun ht opId row hf => ?_,
    fun opId r => ?_⟩
  · rw [OrderedMap.find?_set] at hf
    split at hf
    · cases hf
      exact ⟨rank, by simp⟩
    · exact ht opId row hf
  · unfold owned
    rw [OrderedMap.find?_set]
    by_cases hp : opId = completion.opId
    · subst hp
      by_cases hr : r = rank
      · simp [hr, StorageCompletion.ownerReport]
      · cases reports.find? completion.opId <;> simp [hr]
    · simp [hp]

theorem recordReport_ok : ∀ {completions : List StorageCompletion} {reports},
    (∀ c ∈ completions, c.success.length ≤ l3.limits.maxKeysPerOperation ∧ owned reports c.opId rank = none) →
    (completions.map (·.opId)).Nodup →
    ∃ reports', completions.foldlM (l3.record rank) reports = .ok reports' ∧ (Tight reports → Tight reports') ∧
      ∀ opId r, owned reports' opId r = if r = rank then
        ((completions.find? (·.opId = opId)).map (·.ownerReport)).or (owned reports opId r) else owned reports opId r
  | [], reports, _, _ => ⟨reports, rfl, id, fun opId r => by simp⟩
  | c :: rest, reports, hfi, hd => by
    obtain ⟨hs, hre⟩ := nodup_cons.mp hd
    obtain ⟨hk, hw⟩ := hfi c mem_cons_self
    obtain ⟨r1, hrc, ht1, how1⟩ := record_ok hk hw
    have hfi1 : ∀ c' ∈ rest, c'.success.length ≤ l3.limits.maxKeysPerOperation ∧ owned r1 c'.opId rank = none := by
      intro c' hc'
      have hne : c'.opId ≠ c.opId := fun hq => hs (mem_map.mpr ⟨c', hc', hq⟩)
      obtain ⟨hk', hw'⟩ := hfi c' (mem_cons_of_mem _ hc')
      exact ⟨hk', by rw [how1]; simpa [hne] using hw'⟩
    obtain ⟨r2, hf, ht2, how2⟩ := recordReport_ok hfi1 hre
    refine ⟨r2, by rw [foldlM_cons, hrc]; exact hf, fun ht => ht2 (ht1 ht), fun opId r => ?_⟩
    rw [how2, how1]
    by_cases hr : r = rank
    · by_cases hp : opId = c.opId
      · subst hp
        have hn : rest.find? (·.opId = c.opId) = none := by
          rw [find?_eq_none]
          intro c' hc' hq
          exact hs (mem_map.mpr ⟨c', hc', of_decide_eq_true hq⟩)
        simp [hn]
      · simp [hp, Ne.symm hp]
    · simp [hr]

theorem recordAll_ok : ∀ {sh rank reports},
    (∀ j report, sh[j]? = some report → report.completions.length ≤ l3.limits.maxOperations ∧
      (report.completions.map (·.opId)).Nodup ∧
      ∀ c ∈ report.completions, c.success.length ≤ l3.limits.maxKeysPerOperation ∧
        owned reports c.opId (rank + j) = none) →
    ∃ reports', l3.recordAll rank sh reports = .ok reports' ∧ (Tight reports → Tight reports') ∧
      (∀ opId r, r < rank → owned reports' opId r = owned reports opId r) ∧
      ∀ opId j, owned reports' opId (rank + j) =
        ((sh[j]?.bind fun report => report.completions.find? (·.opId = opId)).map (·.ownerReport)).or
          (owned reports opId (rank + j))
  | [], rank, reports, _ => ⟨reports, rfl, id, fun _ _ _ => rfl, fun _ _ => by simp⟩
  | report :: rest, rank, reports, hf => by
    obtain ⟨hcr, hd, hco⟩ := hf 0 report rfl
    obtain ⟨r1, hrc, ht1, hn1⟩ := recordReport_ok (by simpa using hco) hd
    have hf1 : ∀ j r, rest[j]? = some r → r.completions.length ≤ l3.limits.maxOperations ∧
      (r.completions.map (·.opId)).Nodup ∧
        ∀ c ∈ r.completions, c.success.length ≤ l3.limits.maxKeysPerOperation ∧
          owned r1 c.opId (rank + 1 + j) = none := by
      intro j r hr
      obtain ⟨hcr', hd', hco'⟩ := hf (j + 1) r hr
      refine ⟨hcr', hd', fun c hc => ⟨(hco' c hc).1, ?_⟩⟩
      rw [hn1, if_neg (by omega), Nat.add_assoc, Nat.add_comm 1 j]
      exact (hco' c hc).2
    obtain ⟨r2, hl, ht2, hb, hn2⟩ := recordAll_ok hf1
    refine ⟨r2, ?_, fun ht => ht2 (ht1 ht), fun opId r hr => ?_, fun opId j => ?_⟩
    · simp only [recordAll, recordReport, if_neg (not_lt.mpr hcr), hrc]
      exact hl
    · rw [hb opId r (by omega), hn1, if_neg (by omega)]
    · cases j with
      | zero => simp [hb opId rank (by omega), hn1]
      | succ j =>
        have hs := hn2 opId j
        rw [hn1, if_neg (by omega), Nat.add_assoc, Nat.add_comm 1 j] at hs
        simpa using hs

/-! ## Outcomes -/

def combined (opId : Nat) (row : OrderedMap Nat OwnerReport) (count : Nat) : StorageDone where
  opId := opId
  success := (List.range count).map fun key => (row.entries.map Prod.snd).all fun value => value.success.getD key false
  retired := (row.entries.map Prod.snd).all (·.retired)
  objectFailures := (List.range count).map fun key => (row.entries.map Prod.snd).any fun value =>
    value.objectFailures.getD key false

variable {row : OrderedMap Nat OwnerReport}

theorem mem_values {value} : value ∈ row.entries.map Prod.snd ↔ ∃ rank, row.find? rank = some value := by
  rw [mem_map]
  constructor
  · rintro ⟨⟨rank, v⟩, ht, rfl⟩
    exact ⟨rank, OrderedMap.mem_entries.mp ht⟩
  · rintro ⟨rank, hf⟩
    exact ⟨(rank, value), OrderedMap.mem_entries.mpr hf, rfl⟩

theorem outcome_ok {opId count} (ht : (row.find? 0).isSome)
    (hp : ∀ rank vl, row.find? rank = some vl → vl.success.length = count) :
    outcome opId row = .ok (combined opId row count) := by
  obtain ⟨first, hf⟩ := Option.isSome_iff_exists.mp ht
  have hc := hp 0 first hf
  have hs : (row.entries.map Prod.snd).any (·.success.length ≠ count) = false := by
    rw [any_eq_false]
    intro vl hv
    obtain ⟨rank, hf⟩ := mem_values.mp hv
    simp [hp rank vl hf]
  simp only [outcome, hf, hc, hs]
  rfl

theorem completed_ok {owners} {keys : Nat → Nat}
    (hr : ∀ opId row, reports.find? opId = some row → row.entries.length = owners →
      outcome opId row = .ok (combined opId row (keys opId))) :
    completed owners reports = .ok ((reports.entries.filter fun entry => entry.2.entries.length = owners).map
      fun entry => combined entry.1 entry.2 (keys entry.1)) := by
  have hl : ∀ entry ∈ reports.entries.filter (fun entry => entry.2.entries.length = owners),
      outcome entry.1 entry.2 = .ok (combined entry.1 entry.2 (keys entry.1)) := by
    intro entry ht
    obtain ⟨hm, hn⟩ := mem_filter.mp ht
    exact hr entry.1 entry.2 (OrderedMap.mem_entries.mp hm) (of_decide_eq_true hn)
  unfold completed
  revert hl
  induction reports.entries.filter (fun entry => entry.2.entries.length = owners) with
  | nil => intro _; rfl
  | cons entry rest ih =>
    intro hl
    rw [mapM_cons, hl entry mem_cons_self, map_cons, ih fun e he => hl e (mem_cons_of_mem _ he)]
    rfl

end L3

namespace StorageReplica

variable {n : Nat} {limits : StorageLimits} {keys : Nat → Nat} {past : List (StorageInput n)} {input : StorageInput n}
  {l3 : L3}

/-! ## Reports so far -/

theorem reportOf_append (i opId) :
    reportOf (past ++ [input]) i opId =
      (reportOf past i opId).or ((input.polls i).completions.find? (·.opId = opId)) := by
  simp [reportOf, completionsOf, find?_append]

variable {rounds : List (StorageInput n)} {i : Fin (n + 1)} {opId : Nat} {completion : StorageCompletion}

theorem reportOf_mem
    (hr : reportOf rounds i opId = some completion) : completion ∈ completionsOf rounds i ∧ completion.opId = opId := by
  exact ⟨mem_of_find?_eq_some hr, by simpa using find?_some hr⟩

theorem complete_append (hc : Complete past opId) : Complete (past ++ [input]) opId := by
  intro i
  rw [reportOf_append, Option.isSome_or, hc i]
  rfl

theorem unreported (hn : ∀ i, ((completionsOf (past ++ [input]) i).map (·.opId)).Nodup)
    (hm : completion ∈ (input.polls i).completions) : reportOf past i completion.opId = none := by
  cases hr : reportOf past i completion.opId with
  | none => rfl
  | some er =>
    obtain ⟨hea, hs⟩ := reportOf_mem hr
    have hp : completionsOf (past ++ [input]) i = completionsOf past i ++
      (input.polls i).completions := by simp [completionsOf]
    have hb := hn i
    rw [hp, map_append] at hb
    exact absurd hs ((nodup_append.mp hb).2.2 _ (mem_map_of_mem hea) _ (mem_map_of_mem hm))

theorem valid_poll {pl : StoragePoll} (hv : pl.invalid limits = none) :
    pl.completions.length ≤ limits.maxOperations ∧ ∀ c ∈ pl.completions, c.malformed limits = false := by
  unfold StoragePoll.invalid at hv
  split at hv
  · cases hv
  · split at hv
    · cases hv
    · next hc =>
      split at hv
      · cases hv
      · next hf => exact ⟨by omega, by simpa using hf⟩

variable {c : StorageCompletion}

theorem wellFormed (hf : c.malformed limits = false) :
    c.success.length ≤ limits.maxKeysPerOperation ∧ c.objectFailures.length = c.success.length ∧
      ∀ key : Nat, ¬(c.success[key]? = some true ∧ c.objectFailures[key]? = some true) := by
  simp only [StorageCompletion.malformed, Bool.or_eq_false_iff, decide_eq_false_iff_not, bne_eq_false_iff_eq] at hf
  obtain ⟨⟨⟨_, hk⟩, hl⟩, hp⟩ := hf
  refine ⟨by omega, hl, fun key hb => ?_⟩
  rw [any_eq_false] at hp
  exact hp (true, true) (mem_of_getElem? (getElem?_zip_eq_some.mpr hb)) rfl

/-! ## A member -/

/-- What a member holds after `past`. -/
structure Holds (limits : StorageLimits) (past : List (StorageInput n)) (l3 : L3) : Prop where
  limits : l3.limits = limits
  tight : L3.Tight l3.reports
  bound : ∀ opId r, n < r → L3.owned l3.reports opId r = none
  owned : ∀ opId (i : Fin (n + 1)), L3.owned l3.reports opId i =
    if Complete past opId then none else (reportOf past i opId).map (·.ownerReport)

theorem ready_keeps (l3 : L3) (input : StorageInput n) :
    (ready l3 input).limits = l3.limits ∧ (ready l3 input).reports = l3.reports := by
  unfold ready
  induction input.cancels generalizing l3 with
  | nil => exact ⟨rfl, rfl⟩
  | cons cl rest ih =>
    have hc : ((l3.cancel cl.1 cl.2.1 cl.2.2).1).limits = l3.limits ∧
        ((l3.cancel cl.1 cl.2.1 cl.2.2).1).reports = l3.reports := by
      unfold L3.cancel
      split <;> exact ⟨rfl, rfl⟩
    rw [foldl_cons]
    exact ⟨(ih _).1.trans hc.1, (ih _).2.trans hc.2⟩

theorem Holds.ready (hl : Holds limits past l3) (input : StorageInput n) : Holds limits past (ready l3 input) := by
  obtain ⟨ht, hreports⟩ := ready_keeps l3 input
  refine ⟨ht.trans hl.limits, ?_, ?_, ?_⟩ <;> rw [hreports]
  · exact hl.tight
  · exact hl.bound
  · exact hl.owned

structure Recorded (past : List (StorageInput n)) (input : StorageInput n) (held : OwnerReports) : Prop where
  tight : L3.Tight held
  bound : ∀ opId r, n < r → L3.owned held opId r = none
  owned : ∀ opId (i : Fin (n + 1)), L3.owned held opId i =
    if Complete past opId then none else (reportOf (past ++ [input]) i opId).map (·.ownerReport)

theorem record_round (hl : Holds limits past l3) (hv : ∀ i, (input.polls i).invalid limits = none)
    (hnd : ∀ i, ((completionsOf (past ++ [input]) i).map (·.opId)).Nodup) :
    ∃ held, l3.recordAll 0 (ofFn fun i => l3.validated (input.polls i)) l3.reports = .ok held ∧
      Recorded past input held := by
  have hs : ∀ i : Fin (n + 1), l3.validated (input.polls i) =
      ⟨(input.polls i).nowUs, (input.polls i).pressure, none, (input.polls i).completions⟩ := fun i => by
    simp only [L3.validated, hl.limits, hv i]
  have hat : ∀ (j : Nat) (report : StorageReport), (ofFn fun i => l3.validated (input.polls i))[j]? = some report →
      ∃ i : Fin (n + 1), j = i ∧ report.completions = (input.polls i).completions := by
    intro j report hrp
    rw [List.getElem?_ofFn] at hrp
    split at hrp
    · next hj =>
      refine ⟨⟨j, hj⟩, rfl, ?_⟩
      rw [← Option.some.inj hrp, hs]
    · cases hrp
  have hn : ∀ (i : Fin (n + 1)), ∀ c ∈ (input.polls i).completions, L3.owned l3.reports c.opId i = none :=
    fun i c hc => by
    rw [hl.owned, unreported hnd hc]
    simp
  have ht : ∀ j report, (List.ofFn fun i => l3.validated (input.polls i))[j]? = some report →
      report.completions.length ≤ l3.limits.maxOperations ∧ (report.completions.map (·.opId)).Nodup ∧
      ∀ c ∈ report.completions, c.success.length ≤ l3.limits.maxKeysPerOperation ∧
        L3.owned l3.reports c.opId (0 + j) = none := by
    intro j report hrp
    obtain ⟨i, rfl, hco⟩ := hat j report hrp
    obtain ⟨hcr, hm⟩ := valid_poll (hv i)
    have how := hnd i
    have hap : completionsOf (past ++ [input]) i = completionsOf past i ++
      (input.polls i).completions := by simp [completionsOf]
    rw [hap, map_append] at how
    rw [hco, hl.limits, Nat.zero_add]
    exact ⟨hcr, (nodup_append.mp how).2.1, fun c hc => ⟨(wellFormed (hm c hc)).1, hn i c hc⟩⟩
  obtain ⟨held, hrc, hg, _, hd⟩ := L3.recordAll_ok ht
  simp only [Nat.zero_add] at hd
  refine ⟨held, hrc, hg hl.tight, fun opId r hr => ?_, fun opId i => ?_⟩
  · have hb : (List.ofFn fun i => l3.validated (input.polls i))[r]? = none := by
      rw [List.getElem?_eq_none_iff, List.length_ofFn]
      omega
    rw [hd, hl.bound opId r hr, hb]
    rfl
  · have hp : (List.ofFn fun i => l3.validated (input.polls i))[i.val]? = some (l3.validated (input.polls i)) := by
      rw [List.getElem?_ofFn, dif_pos i.isLt]
    rw [hd, hl.owned, hp, hs, Option.bind_some, reportOf_append]
    -- an owner that has reported it does not again
    have hf : reportOf past i opId ≠ none → (input.polls i).completions.find? (·.opId = opId) = none := by
      rw [find?_eq_none]
      exact fun hea c hc hq => hea (of_decide_eq_true hq ▸ unreported hnd hc)
    split
    · next hcm =>
      rw [hf (Option.isSome_iff_ne_none.mp (hcm i))]
      rfl
    · cases hea : reportOf past i opId with
      | none => simp
      | some er => simp [hf (by rw [hea]; nofun)]

/-! ## The done list -/

variable {held : OwnerReports} {opId : Nat} {row : OrderedMap Nat OwnerReport}

section

variable (hh : Recorded past input held)
include hh

section

variable (hrw : held.find? opId = some row)
include hrw

theorem Recorded.find_row (i : Fin (n + 1)) :
    row.find? i = if Complete past opId then none else (reportOf (past ++ [input]) i opId).map (·.ownerReport) := by
  have hn := hh.owned opId i
  simpa [L3.owned, hrw] using hn

theorem Recorded.rank_lt {r} (hs : (row.find? r).isSome) : r < n + 1 := by
  by_contra hl
  have hn := hh.bound opId r (by omega)
  simp only [L3.owned, hrw, Option.bind_some] at hn
  rw [hn] at hs
  cases hs

theorem Recorded.fresh : ¬Complete past opId ∧ ∃ i, (reportOf (past ++ [input]) i opId).isSome := by
  obtain ⟨r, hs⟩ := hh.tight opId row hrw
  have hl := hh.rank_lt hrw hs
  rw [hh.find_row hrw ⟨r, hl⟩] at hs
  split at hs
  · cases hs
  · next hp => exact ⟨hp, _, by simpa using hs⟩

theorem Recorded.full : row.entries.length = n + 1 ↔ Complete (past ++ [input]) opId := by
  rw [OrderedMap.length_eq_iff fun r => hh.rank_lt hrw]
  have hp := (hh.fresh hrw).1
  constructor
  · intro hl i
    have hs := hl i i.isLt
    rw [hh.find_row hrw, if_neg hp, Option.isSome_map] at hs
    exact hs
  · intro hc r hr
    rw [hh.find_row hrw ⟨r, hr⟩, if_neg hp, Option.isSome_map]
    exact hc ⟨r, hr⟩

theorem Recorded.values {value} :
    value ∈ row.entries.map Prod.snd ↔ ∃ i, ∃ c ∈ reportOf (past ++ [input]) i opId, c.ownerReport = value := by
  have hp := (hh.fresh hrw).1
  rw [L3.mem_values]
  constructor
  · rintro ⟨r, hf⟩
    have hl := hh.rank_lt hrw (Option.isSome_of_eq_some hf)
    rw [hh.find_row hrw ⟨r, hl⟩, if_neg hp] at hf
    obtain ⟨c, hc, hq⟩ := Option.map_eq_some_iff.mp hf
    exact ⟨_, c, hc, hq⟩
  · rintro ⟨i, c, hc, rfl⟩
    refine ⟨i, ?_⟩
    rw [hh.find_row hrw, if_neg hp, Option.mem_def.mp hc]
    rfl

end

theorem Recorded.credits : held.entries.length ≤ (pending past input).length := by
  have hb : held.entries.map Prod.fst ⊆ pending past input := by
    intro opId hp
    obtain ⟨⟨_, row⟩, ht, rfl⟩ := mem_map.mp hp
    obtain ⟨hn, i, hs⟩ := hh.fresh (OrderedMap.mem_entries.mp ht)
    obtain ⟨c, hc⟩ := Option.isSome_iff_exists.mp hs
    obtain ⟨hm, hd⟩ := reportOf_mem hc
    simp only [pending, mem_filter, mem_dedup, mem_flatten, mem_ofFn, decide_eq_true_eq]
    exact ⟨⟨_, ⟨i, rfl⟩, mem_map.mpr ⟨c, hm, hd⟩⟩, hn⟩
  have hl := (subperm_of_subset held.nodup_keys hb).length_le
  rwa [length_map] at hl

end

def doneOf (n : Nat) (keys : Nat → Nat) (held : OwnerReports) : List StorageDone :=
  (held.entries.filter fun entry => entry.2.entries.length = n + 1).map fun entry =>
    L3.combined entry.1 entry.2 (keys entry.1)

theorem mem_doneOf {d} (hh : Recorded past input held) : d ∈ doneOf n keys held ↔
    ∃ opId row, held.find? opId = some row ∧ Complete (past ++ [input]) opId ∧
      d = L3.combined opId row (keys opId) := by
  simp only [doneOf, mem_map, mem_filter, decide_eq_true_eq]
  constructor
  · rintro ⟨⟨opId, row⟩, ⟨ht, hl⟩, rfl⟩
    have hrw := OrderedMap.mem_entries.mp ht
    exact ⟨opId, row, hrw, (hh.full hrw).mp hl, rfl⟩
  · rintro ⟨opId, row, hrw, hc, rfl⟩
    exact ⟨(opId, row), ⟨OrderedMap.mem_entries.mpr hrw, (hh.full hrw).mpr hc⟩, rfl⟩

theorem last_of_doneOf (keys : Nat → Nat) (hh : Recorded past input held) (opId) :
    opId ∈ (doneOf n keys held).map (·.opId) ↔ Complete (past ++ [input]) opId ∧ ¬Complete past opId := by
  rw [mem_map]
  constructor
  · rintro ⟨d, hd, rfl⟩
    obtain ⟨opId, row, hrw, hm, rfl⟩ := (mem_doneOf hh).mp hd
    exact ⟨hm, (hh.fresh hrw).1⟩
  · rintro ⟨hm, hp⟩
    have hn := hh.owned opId 0
    rw [if_neg hp] at hn
    obtain ⟨c, hc⟩ := Option.isSome_iff_exists.mp (hm 0)
    rw [hc, L3.owned] at hn
    obtain ⟨row, hrw, _⟩ := Option.bind_eq_some_iff.mp hn
    exact ⟨_, (mem_doneOf hh).mpr ⟨opId, row, hrw, hm, rfl⟩, rfl⟩

theorem regular_report (hr : Regular limits keys (past ++ [input]))
    (hrp : reportOf (past ++ [input]) i opId = some c) : c.malformed limits = false ∧ c.success.length = keys opId := by
  obtain ⟨hm, rfl⟩ := reportOf_mem hrp
  obtain ⟨rn, hro, hp⟩ := mem_flatMap.mp hm
  exact ⟨(valid_poll (hr.valid rn hro i)).2 c hp, hr.shape i c hm⟩

variable {key : Nat}

theorem getD_eq_true {flags : List Bool} : flags.getD key false = true ↔ flags[key]? = some true := by
  rw [getD_eq_getElem?_getD]
  cases flags[key]? <;> simp

variable {count : Nat}

theorem combined_success (hk : key < count) : (L3.combined opId row count).success[key]? = some true ↔
    ∀ vl ∈ row.entries.map Prod.snd, vl.success[key]? = some true := by
  simp only [L3.combined, getElem?_map, getElem?_range hk, Option.map_some, Option.some.injEq, all_eq_true,
    getD_eq_true]

theorem combined_failures (hk : key < count) : (L3.combined opId row count).objectFailures[key]? = some true ↔
    ∃ vl ∈ row.entries.map Prod.snd, vl.objectFailures[key]? = some true := by
  simp only [L3.combined, getElem?_map, getElem?_range hk, Option.map_some, Option.some.injEq, any_eq_true,
    getD_eq_true]

theorem Recorded.forall_values {P : OwnerReport → Prop} (hh : Recorded past input held)
    (hrw : held.find? opId = some row) (hm : Complete (past ++ [input]) opId) :
    (∀ vl ∈ row.entries.map Prod.snd, P vl) ↔ ∀ i, ∃ c ∈ reportOf (past ++ [input]) i opId, P c.ownerReport := by
  constructor
  · intro hl i
    obtain ⟨c, hc⟩ := Option.isSome_iff_exists.mp (hm i)
    exact ⟨c, hc, hl c.ownerReport ((hh.values hrw).mpr ⟨i, c, hc, rfl⟩)⟩
  · intro hl vl hv
    obtain ⟨i, c, hc, rfl⟩ := (hh.values hrw).mp hv
    obtain ⟨c', hc', ht⟩ := hl i
    cases (Option.mem_unique hc hc')
    exact ht

theorem settles_doneOf (hr : Regular limits keys (past ++ [input])) (hh : Recorded past input held) :
    Settles past input keys (doneOf n keys held) where
  last := last_of_doneOf keys hh
  once := by
    have hk : (doneOf n keys held).map (·.opId) =
        (held.entries.filter fun entry => entry.2.entries.length = n + 1).map Prod.fst := by
      simp [doneOf, L3.combined]
    rw [hk]
    exact held.nodup_keys.sublist (filter_sublist.map _)
  length := fun d hd => by
    obtain ⟨opId, row, _, _, rfl⟩ := (mem_doneOf hh).mp hd
    simp [L3.combined]
  success := fun d hd key hy => by
    obtain ⟨opId, row, hrw, hm, rfl⟩ := (mem_doneOf hh).mp hd
    change key < keys opId at hy
    rw [combined_success hy]
    exact hh.forall_values hrw hm
  objectFailures := fun d hd key hy => by
    obtain ⟨opId, row, hrw, _, rfl⟩ := (mem_doneOf hh).mp hd
    change key < keys opId at hy
    rw [combined_failures hy]
    constructor
    · rintro ⟨vl, hv, ht⟩
      obtain ⟨i, c, hc, rfl⟩ := (hh.values hrw).mp hv
      exact ⟨i, c, hc, ht⟩
    · rintro ⟨i, c, hc, ht⟩
      exact ⟨c.ownerReport, (hh.values hrw).mpr ⟨i, c, hc, rfl⟩, ht⟩
  retired := fun d hd => by
    obtain ⟨opId, row, hrw, hm, rfl⟩ := (mem_doneOf hh).mp hd
    simp only [L3.combined, all_eq_true]
    exact hh.forall_values hrw hm
  apart := fun d hd key hb => by
    obtain ⟨opId, row, hrw, _, rfl⟩ := (mem_doneOf hh).mp hd
    have hy : key < keys opId := by
      have hl := (List.getElem?_eq_some_iff.mp hb.1).1
      simpa [L3.combined] using hl
    obtain ⟨vl, hv, hf⟩ := (combined_failures hy).mp hb.2
    have hok := (combined_success hy).mp hb.1 vl hv
    obtain ⟨i, c, hc, rfl⟩ := (hh.values hrw).mp hv
    exact (wellFormed (regular_report hr hc).1).2.2 key ⟨hok, hf⟩

/-! ## A round -/

theorem holds_after (keys : Nat → Nat) (hl : l3.limits = limits) (hh : Recorded past input held) :
    Holds limits (past ++ [input])
    { l3 with
      reports := (doneOf n keys held).foldl (fun held completion => held.erase completion.opId) held
      cancellations := [] } := by
  have hf : ∀ opId, OrderedMap.find?
    ((doneOf n keys held).foldl (fun held completion => held.erase completion.opId) held) opId =
      if opId ∈ (doneOf n keys held).map (·.opId) then none else held.find? opId :=
    fun opId => OrderedMap.find?_foldl_erase (fun d : StorageDone => d.opId) opId _ _
  have hn : ∀ opId r,
      L3.owned ((doneOf n keys held).foldl (fun held completion => held.erase completion.opId) held) opId r =
      if opId ∈ (doneOf n keys held).map (·.opId) then none else L3.owned held opId r := fun opId r => by
    unfold L3.owned
    rw [hf]
    split <;> rfl
  refine ⟨hl, fun opId row hrw => ?_, fun opId r hr => ?_, fun opId i => ?_⟩
  · rw [hf] at hrw
    split at hrw
    · cases hrw
    · exact hh.tight opId row hrw
  · rw [hn, hh.bound opId r hr]
    exact ite_self none
  · rw [hn, hh.owned]
    simp only [last_of_doneOf keys hh]
    by_cases hp : Complete past opId
    · simp [hp, complete_append hp]
    · by_cases hw : Complete (past ++ [input]) opId <;> simp [hp, hw]

theorem shared_const (l3) (input : StorageInput n) :
    shared (fun _ => l3) input = ofFn fun i => (ready l3 input).validated (input.polls i) := rfl

theorem round_ok (hl : Holds limits past l3) (hg : Regular limits keys (past ++ [input])) :
    ∃ rn l3', (∀ i, agreed (fun _ => l3) input i = .ok (rn, l3')) ∧ Holds limits (past ++ [input]) l3' ∧
      Settles past input keys rn.done := by
  have hre := hl.ready input
  have hv : ∀ i, (input.polls i).invalid limits = none := hg.valid input (by simp)
  obtain ⟨held, hrc, hh⟩ := record_round hre hv hg.once
  have hcr : held.entries.length ≤ (ready l3 input).limits.maxOperations := by
    have hr := hg.credits past.length input (by simp)
    rw [take_left] at hr
    rw [hre.limits]
    exact hh.credits.trans hr
  have hd : L3.completed (n + 1) held = .ok (doneOf n keys held) := by
    refine L3.completed_ok fun opId row hrw hn => ?_
    have hm := (hh.full hrw).mp hn
    have hp := (hh.fresh hrw).1
    refine L3.outcome_ok ?_ fun rank vl hfo => ?_
    · have hf := hh.find_row hrw 0
      rw [if_neg hp] at hf
      rw [show row.find? 0 = _ from hf, Option.isSome_map]
      exact hm 0
    · obtain ⟨i, c, hc, rfl⟩ := (hh.values hrw).mp (L3.mem_values.mpr ⟨rank, hfo⟩)
      exact (regular_report hg hc).2
  have her : (List.ofFn fun i => (ready l3 input).validated (input.polls i)).filterMap (·.error) = [] := by
    rw [filterMap_eq_nil_iff]
    intro report hrp
    obtain ⟨i, rfl⟩ := (mem_ofFn ..).mp hrp
    simp only [L3.validated, hre.limits, hv i]
  cases hs : List.ofFn fun i => (ready l3 input).validated (input.polls i) with
  | nil => simp at hs
  | cons first rest =>
    have hln : (first :: rest).length = n + 1 := by rw [← hs, length_ofFn]
    refine ⟨⟨⟨first.nowUs, input.allowForward, input.allowStorage, L3.worst (first :: rest) (·.queuedOperations),
      L3.worst (first :: rest) (·.queuedBytes), L3.worst (first :: rest) (·.oldestOperationUs)⟩,
        (ready l3 input).cancellations,
      doneOf n keys held⟩, _, fun i => ?_, holds_after keys hre.limits hh, settles_doneOf hg hh⟩
    · unfold agreed L3.agree
      rw [shared_const, hs]
      rw [hs] at hrc her
      simp only [her, ne_eq, not_true_eq_false, if_false, hrc, Except.bind, if_neg (not_lt.mpr hcr), hln, hd,
        Except.map]

theorem round_fails (l3) (hv : ((input.polls i).invalid (ready l3 input).limits).isSome) :
    ∃ errors, ∀ j, agreed (fun _ => l3) input j = .error (.polling errors) := by
  refine ⟨(shared (fun _ => l3) input).filterMap (·.error), fun j => ?_⟩
  have hr : (shared (fun _ => l3) input).filterMap (·.error) ≠ [] := by
    rw [ne_eq, filterMap_eq_nil_iff]
    intro hn
    have hp := hn _ ((mem_ofFn ..).mpr ⟨i, rfl⟩)
    obtain ⟨er, her⟩ := Option.isSome_iff_exists.mp hv
    simp [L3.validated, her] at hp
  unfold agreed L3.agree
  cases hs : shared (fun _ => l3) input with
  | nil => rw [hs] at hr; exact absurd rfl hr
  | cons first rest =>
    rw [hs] at hr
    simp only [if_pos hr]

/-! ## Runs -/

theorem Regular.of_append {rest} (hg : Regular limits keys (past ++ rest)) : Regular limits keys past where
  valid := fun input hp => hg.valid input (mem_append_left _ hp)
  once := fun i => by
    have hb := hg.once i
    rw [completionsOf, flatMap_append, map_append] at hb
    exact (nodup_append.mp hb).1
  shape := fun i c hc => hg.shape i c (by rw [completionsOf, flatMap_append]; exact mem_append_left _ hc)
  credits := fun k input hp => by
    have hl : k < past.length := (List.getElem?_eq_some_iff.mp hp).1
    have hr := hg.credits k input (by rw [getElem?_append_left hl]; exact hp)
    rwa [take_append_of_le_length hl.le] at hr

theorem after_append (limits past) (input : StorageInput n) :
    after limits (past ++ [input]) = (after limits past).bind fun mms => advance mms input := by
  unfold after
  rw [foldlM_append]
  simp

theorem holds_run (rounds : List (StorageInput n)) (hr : Regular limits keys rounds) :
    ∃ l3, after limits rounds = some (fun _ => l3) ∧ Holds limits rounds l3 := by
  induction rounds using reverseRecOn with
  | nil =>
    refine ⟨{ limits := limits }, rfl, rfl, fun opId row hrw => ?_, fun _ _ _ => rfl, fun opId i => ?_⟩
    · cases hrw
    · split <;> rfl
  | append_singleton past input ih =>
    obtain ⟨l3, ht, hl⟩ := ih hr.of_append
    obtain ⟨rn, l3', hg, hl', _⟩ := round_ok hl hr
    refine ⟨l3', ?_, hl'⟩
    rw [after_append, ht]
    simp [advance, hg, Except.toOption]

variable {k : Nat}

theorem roundOf_settles (hr : Regular limits keys rounds) (hp : rounds[k]? = some input) :
    ∃ rn, (∀ i, roundOf limits rounds k i = some (.ok rn)) ∧ Settles (rounds.take k) input keys rn.done := by
  obtain ⟨hk, rfl⟩ := List.getElem?_eq_some_iff.mp hp
  have hs : rounds.take k ++ [rounds[k]] = rounds.take (k + 1) := take_concat_get' rounds k hk
  have hf : Regular limits keys (rounds.take k ++ [rounds[k]]) := by
    have hw := hr
    rw [← take_append_drop (k + 1) rounds] at hw
    rw [hs]
    exact hw.of_append
  obtain ⟨l3, ht, hl⟩ := holds_run _ hf.of_append
  obtain ⟨rn, l3', hg, _, hse⟩ := round_ok hl hf
  refine ⟨rn, fun i => ?_, hse⟩
  simp only [roundOf, ht, Option.bind_some, hp, Option.map_some, hg]
  rfl

theorem complete_take {j} (hl : j ≤ k) (hc : Complete (rounds.take j) opId) : Complete (rounds.take k) opId := by
  intro i
  have ht : rounds.take j = (rounds.take k).take j := by rw [take_take, min_eq_left hl]
  have hs := hc i
  rw [ht] at hs
  rw [← take_append_drop j (rounds.take k), reportOf, completionsOf, flatMap_append, find?_append, Option.isSome_or]
  exact Bool.or_eq_true_iff.mpr (.inl hs)

theorem settled_once (hg : Regular limits keys rounds) (hc : Complete rounds opId) :
    ∃! k, ∃ rn, roundOf limits rounds k 0 = some (.ok rn) ∧ opId ∈ rn.done.map (·.opId) := by
  have hd : ∃ m, Complete (rounds.take m) opId := ⟨rounds.length, by rwa [take_length]⟩
  -- the first round after which every owner has reported it
  obtain ⟨hf, hleast⟩ := And.intro (Nat.find_spec hd) fun m => Nat.find_min hd
  generalize Nat.find hd = m at hf hleast
  have hse : ∀ k, (∃ rn, roundOf limits rounds k 0 = some (.ok rn) ∧ opId ∈ rn.done.map (·.opId)) ↔
      k < rounds.length ∧ Complete (rounds.take (k + 1)) opId ∧ ¬Complete (rounds.take k) opId := by
    intro k
    constructor
    · rintro ⟨rn, hr, hop⟩
      obtain ⟨mms, _, hm⟩ := Option.bind_eq_some_iff.mp hr
      obtain ⟨input, hp, _⟩ := Option.map_eq_some_iff.mp hm
      obtain ⟨hk, rfl⟩ := List.getElem?_eq_some_iff.mp hp
      obtain ⟨rn', hr', hs⟩ := roundOf_settles hg hp
      cases Except.ok.inj (Option.mem_unique hr (hr' 0))
      rw [← take_concat_get' rounds k hk]
      exact ⟨hk, (hs.last opId).mp hop⟩
    · rintro ⟨hk, hn⟩
      rw [← take_concat_get' rounds k hk] at hn
      obtain ⟨rn, hr, hs⟩ := roundOf_settles hg (getElem?_eq_getElem hk)
      exact ⟨rn, hr 0, (hs.last opId).mpr hn⟩
  cases m with
  | zero => cases hf 0
  | succ k =>
    have hb := hleast k (Nat.lt_succ_self k)
    have hk : k < rounds.length := by
      by_contra hge
      rw [take_of_length_le (by omega)] at hb
      exact hb hc
    refine ⟨k, (hse k).mpr ⟨hk, hf, hb⟩, fun j hj => ?_⟩
    obtain ⟨_, hn, ht⟩ := (hse j).mp hj
    rcases lt_trichotomy j k with hl | rfl | hgt
    · exact absurd (complete_take (by omega) hn) hb
    · rfl
    · exact absurd (complete_take (by omega) hf) ht

end StorageReplica

end TokenSpeed.Engine

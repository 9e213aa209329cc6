import Mathlib.Data.Finset.Card

/-!
# Maps ordered by their keys

A map as the list of its entries in the order of their keys.
-/

namespace TokenSpeed.Logic

open List

structure OrderedMap (κ α : Type) [LinearOrder κ] where
  entries : List (κ × α)
  sorted : (entries.map Prod.fst).Pairwise (· < ·)

namespace OrderedMap

variable {κ α : Type} [LinearOrder κ]

instance : EmptyCollection (OrderedMap κ α) := ⟨⟨[], .nil⟩⟩

/-- The entries with `key` set. -/
def setEntry (key : κ) (value : α) : List (κ × α) → List (κ × α)
  | [] => [(key, value)]
  | (k, v) :: rest =>
    if key < k then (key, value) :: (k, v) :: rest
    else if key = k then (key, value) :: rest
    else (k, v) :: setEntry key value rest

def findEntry (key : κ) : List (κ × α) → Option α
  | [] => none
  | (k, v) :: rest => if key = k then some v else findEntry key rest

def find? (m : OrderedMap κ α) (key : κ) : Option α := findEntry key m.entries

theorem mem_setEntry {key k : κ} {value : α} {entries : List (κ × α)}
    (hk : k ∈ (setEntry key value entries).map Prod.fst) : k = key ∨ k ∈ entries.map Prod.fst := by
  induction entries with
  | nil => simpa [setEntry] using hk
  | cons entry rest ih =>
    obtain ⟨k', v'⟩ := entry
    unfold setEntry at hk
    split at hk
    · simpa using hk
    · split at hk
      · next hq =>
        rcases mem_cons.mp hk with rfl | hr
        · exact .inl rfl
        · exact .inr (mem_cons_of_mem _ hr)
      · rcases mem_cons.mp hk with rfl | hr
        · exact .inr mem_cons_self
        · exact (ih hr).imp_right (mem_cons_of_mem _)

theorem sorted_setEntry (key : κ) (value : α) {entries : List (κ × α)} (hs : (entries.map Prod.fst).Pairwise (· < ·)) :
    ((setEntry key value entries).map Prod.fst).Pairwise (· < ·) := by
  induction entries with
  | nil => simp [setEntry]
  | cons entry rest ih =>
    obtain ⟨k, v⟩ := entry
    obtain ⟨hf, hr⟩ := pairwise_cons.mp hs
    unfold setEntry
    split
    · next hl =>
      refine pairwise_cons.mpr ⟨fun k' hk' => ?_, hs⟩
      rcases mem_cons.mp hk' with rfl | hm
      · exact hl
      · exact hl.trans (hf k' hm)
    · next hn =>
      split
      · next hq =>
        subst hq
        exact hs
      · next hne =>
        refine pairwise_cons.mpr ⟨fun k' hk' => ?_, ih hr⟩
        rcases mem_setEntry hk' with rfl | hm
        · exact lt_of_le_of_ne (not_lt.mp hn) (Ne.symm hne)
        · exact hf k' hm

/-- The map with `key` set to `value`. -/
def set (m : OrderedMap κ α) (key : κ) (value : α) : OrderedMap κ α :=
  ⟨setEntry key value m.entries, sorted_setEntry key value m.sorted⟩

/-- The map without `key`. -/
def erase (m : OrderedMap κ α) (key : κ) : OrderedMap κ α :=
  ⟨m.entries.filter (·.1 ≠ key), m.sorted.sublist (filter_sublist.map _)⟩

@[simp] theorem find?_empty (key : κ) : find? (∅ : OrderedMap κ α) key = none := rfl

theorem findEntry_setEntry (key k : κ) (value : α) (entries) :
    findEntry k (setEntry key value entries) = if k = key then some value else findEntry k entries := by
  induction entries with
  | nil => simp [setEntry, findEntry]
  | cons entry rest ih =>
    obtain ⟨k', v'⟩ := entry
    unfold setEntry
    split
    · simp [findEntry]
    · split
      · next hq =>
        subst hq
        by_cases hk : k = key <;> simp [findEntry, hk]
      · next hn =>
        by_cases hk : k = k'
        · subst hk
          simp [findEntry, Ne.symm hn]
        · simp [findEntry, hk, ih]

@[simp] theorem find?_set (m : OrderedMap κ α) (key k : κ) (value : α) :
    (m.set key value).find? k = if k = key then some value else m.find? k := findEntry_setEntry ..

theorem findEntry_filter_ne (key k : κ) (entries : List (κ × α)) :
    findEntry k (entries.filter (·.1 ≠ key)) = if k = key then none else findEntry k entries := by
  induction entries with
  | nil => simp [findEntry]
  | cons entry rest ih =>
    obtain ⟨k', v'⟩ := entry
    by_cases hy : k' = key
    · subst hy
      rw [filter_cons_of_neg (by simp), ih]
      by_cases hk : k = k' <;> simp [findEntry, hk]
    · rw [filter_cons_of_pos (by simpa using hy)]
      by_cases hk : k = k'
      · subst hk
        simp [findEntry, hy]
      · simp only [findEntry, hk, if_false, ih]

@[simp] theorem find?_erase (m : OrderedMap κ α) (key k : κ) :
    (m.erase key).find? k = if k = key then none else m.find? k := findEntry_filter_ne ..

theorem find?_foldl_erase {β : Type} (f : β → κ) (k : κ) : ∀ (gone : List β) (m : OrderedMap κ α),
    (gone.foldl (fun m x => m.erase (f x)) m).find? k = if k ∈ gone.map f then none else m.find? k
  | [], m => by simp
  | x :: rest, m => by
    rw [foldl_cons, find?_foldl_erase f k rest, find?_erase]
    by_cases hx : k = f x <;> by_cases hr : k ∈ rest.map f <;> simp_all

theorem nodup_keys (m : OrderedMap κ α) : (m.entries.map Prod.fst).Nodup := m.sorted.imp (fun h => h.ne)

theorem mem_entries {m : OrderedMap κ α} {key : κ} {value : α} : (key, value) ∈ m.entries ↔
    m.find? key = some value := by
  have hd := m.nodup_keys
  unfold find?
  revert hd
  induction m.entries with
  | nil => simp [findEntry]
  | cons entry rest ih =>
    obtain ⟨k, v⟩ := entry
    intro hd
    obtain ⟨hf, hr⟩ := nodup_cons.mp hd
    rw [mem_cons]
    by_cases hk : key = k
    · subst hk
      have hn : (key, value) ∉ rest := fun hm => hf (mem_map.mpr ⟨_, hm, rfl⟩)
      simp [findEntry, hn, eq_comm]
    · simp [findEntry, hk, ih hr]

/-- A map with keys below `n` has `n` entries exactly when each of them has a value. -/
theorem length_eq_iff {m : OrderedMap Nat α} {n} (hb : ∀ k, (m.find? k).isSome → k < n) :
    m.entries.length = n ↔ ∀ k < n, (m.find? k).isSome := by
  have hm : ∀ k, k ∈ (m.entries.map Prod.fst).toFinset ↔ (m.find? k).isSome := fun k => by
    rw [mem_toFinset, mem_map, Option.isSome_iff_exists]
    constructor
    · rintro ⟨⟨k', v⟩, ht, rfl⟩
      exact ⟨v, mem_entries.mp ht⟩
    · rintro ⟨v, hv⟩
      exact ⟨(k, v), mem_entries.mpr hv, rfl⟩
  have hc : (m.entries.map Prod.fst).toFinset.card = m.entries.length := by
    rw [toFinset_card_of_nodup m.nodup_keys, length_map]
  have hs : (m.entries.map Prod.fst).toFinset ⊆ Finset.range n := fun k hk =>
    Finset.mem_range.mpr (hb k ((hm k).mp hk))
  constructor
  · intro hl k hk
    have hq := Finset.eq_of_subset_of_card_le hs (by rw [hc, hl, Finset.card_range])
    exact (hm k).mp (hq ▸ Finset.mem_range.mpr hk)
  · intro hal
    have hq : (m.entries.map Prod.fst).toFinset = Finset.range n := by
      ext k
      rw [hm, Finset.mem_range]
      exact ⟨hb k, hal k⟩
    rw [← hc, hq, Finset.card_range]

end OrderedMap

end TokenSpeed.Logic

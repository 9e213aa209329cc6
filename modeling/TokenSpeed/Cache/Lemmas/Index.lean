import TokenSpeed.Cache.Lemmas.Victims
import TokenSpeed.Cache.PrefixIndex

/-!
# The entries of an index

Lookups, and what registration, eviction and a hit do to the entries of one group and to the use
counts of their blocks.
-/

namespace TokenSpeed.CacheEntries

open List

variable {es es' : CacheEntries} {key : CacheKey} {l : CacheBlockLocation}

def refs (es : CacheEntries) (l : CacheBlockLocation) : Nat := es.countP (·.block == l)

def blockOf (es : CacheEntries) (key : CacheKey) : Option CacheBlockLocation :=
  (es.findKey key).map (·.block)

variable {e : CacheEntry}

theorem findKey_some (h : es.findKey key = some e) : e ∈ es ∧ e.key = key :=
  ⟨mem_of_find?_eq_some h, by simpa using find?_some h⟩

theorem findLocation_some (h : es.findLocation l = some e) : e ∈ es ∧ e.block = l :=
  ⟨mem_of_find?_eq_some h, by simpa using find?_some h⟩

theorem findLocation_none (h : es.findLocation l = none) : es.refs l = 0 := by
  rw [findLocation, find?_eq_none] at h
  exact countP_eq_zero.mpr fun e he => by simpa using h e he

theorem refs_pos (he : e ∈ es) : 0 < es.refs e.block :=
  countP_pos_iff.mpr ⟨e, he, by simp⟩

theorem containsBlock_iff : es.containsBlock l = true ↔ ∃ e ∈ es, e.block = l := by
  simp [containsBlock, findLocation]

theorem refs_pos_iff : 0 < es.refs l ↔ es.containsBlock l = true := by
  rw [containsBlock_iff, refs, countP_pos_iff]
  simp

def pairs (es : CacheEntries) : List (CacheKey × CacheBlockLocation) := es.map fun e => (e.key, e.block)

theorem refs_of_pairs (h : es'.pairs = es.pairs) : es'.refs l = es.refs l := by
  have hc : ∀ es : CacheEntries, es.refs l = es.pairs.countP fun x => x.2 == l := by
    intro es
    rw [pairs, countP_map]
    rfl
  rw [hc, hc, h]

theorem blockOf_eq_lookup (es : CacheEntries) (key) :
    es.blockOf key = (es.pairs.find? fun x => x.1 == key).map Prod.snd := by
  rw [pairs, find?_map, Option.map_map]
  rfl

theorem blockOf_of_pairs (h : es'.pairs = es.pairs) : es'.blockOf key = es.blockOf key := by
  rw [blockOf_eq_lookup, blockOf_eq_lookup, h]

theorem pairs_touch {f : CacheEntry → CacheEntry} (hf : ∀ e, (f e).key = e.key ∧ (f e).block = e.block) :
    (es.touch key f).pairs = es.pairs := by
  unfold pairs touch
  rw [map_map]
  refine map_congr_left fun e _ => ?_
  simp only [Function.comp]
  split
  · rw [(hf e).1, (hf e).2]
  · rfl

def without (es : CacheEntries) (l : CacheBlockLocation) : CacheEntries :=
  es.filter fun e => !(e.block == l)

theorem refs_without (es : CacheEntries) (l x) : (es.without l).refs x = if x = l then 0 else es.refs x := by
  unfold without refs
  rw [countP_filter]
  split
  · rename_i hx
    subst hx
    exact countP_eq_zero.mpr fun e _ => by simp
  · rename_i hx
    refine countP_congr fun e _ => ?_
    simp only [Bool.and_eq_true, beq_iff_eq, Bool.not_eq_true', beq_eq_false_iff_ne]
    constructor
    · exact fun h => h.1
    · exact fun h => ⟨h, fun h' => hx (h.symm.trans h')⟩

end TokenSpeed.CacheEntries

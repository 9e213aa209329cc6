import TokenSpeed.Transfer.Bootstrap

/-!
# Refused registrations

A body is read before the table is touched; the sizes are recorded before they are read as integers.
-/

namespace TokenSpeed.Transfer.Bootstrap

open Function

variable {Value Contract : Type} {w : Wire Value Contract} {t t' : Table Value Contract} {r r' : Registration Value}
  {data a b : Value} {registry : Registry} {e : Fault}

/-! ## Sizes -/

variable [DecidableEq Contract]

theorem register_unread {body} (h : ¬ t.Readable w registry body) : (t.register w registry body).1 = t := by
  unfold Table.register
  split
  · rfl
  · split
    · rfl
    · rename_i hr
      split
      · rfl
      · rename_i hi
        exact absurd ⟨_, _, _, rfl, hr, hi⟩ h

theorem Arrives.registerAll {bodies group} (h : Arrives w registry t bodies group) :
    t.registerAll w registry bodies = t.registerAll w registry (group.map some) := by
  induction h with
  | nil => rfl
  | member _ ih => exact ih
  | refused hr _ ih =>
    rw [← ih]
    simp only [Table.registerAll, List.foldl_cons, register_unread hr]

end TokenSpeed.Transfer.Bootstrap

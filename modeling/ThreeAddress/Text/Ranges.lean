/-!
Membership of a code point in a table of inclusive ranges.
-/

set_option autoImplicit false

namespace ThreeAddress.Text

/-- Some range of the table has the code point between its two ends. -/
def inRanges (table : List (Nat × Nat)) (code : Nat) : Bool :=
  table.any fun range => decide (range.1 ≤ code) && decide (code ≤ range.2)

@[simp] theorem inRanges_nil (code : Nat) : inRanges [] code = false := rfl

theorem inRanges_iff (table : List (Nat × Nat)) (code : Nat) :
    inRanges table code = true ↔ ∃ range ∈ table, range.1 ≤ code ∧ code ≤ range.2 := by
  simp only [inRanges, List.any_eq_true, Bool.and_eq_true, decide_eq_true_eq]

end ThreeAddress.Text

import Mathlib.Data.List.Induction
import ThreeAddress.Text.Position

/-!
Places in a text as names of offsets. From a line and a column the offset is found again by skipping
line ends and then characters within the line, and places come in the order of their offsets.
-/

set_option autoImplicit false

namespace ThreeAddress.Text

/-- The offset lies between two characters of the text, or at one of its ends. -/
def Boundary (input : List Char) (offset : Nat) : Prop :=
  ∃ before after, input = before ++ after ∧ offset = byteLength before

/-- The characters after so many line ends. -/
def skipLines : (count : Nat) → List Char → Option (List Char)
  | 0, input => some input
  | _ + 1, [] => none
  | count + 1, c :: rest => if c = '\n' then skipLines count rest else skipLines (count + 1) rest

/-- The characters after so many others in the same line. -/
def skipColumns : (count : Nat) → List Char → Option (List Char)
  | 0, input => some input
  | _ + 1, [] => none
  | count + 1, c :: rest => if c = '\n' then none else skipColumns count rest

/-- The characters from a place on. -/
def skipTo (place : LineColumn) (input : List Char) : Option (List Char) :=
  (skipLines (place.line - 1) input).bind (skipColumns (place.column - 1))

/-- The byte offset of a place, if the text has that place. -/
def offsetOf? (input : List Char) (place : LineColumn) : Option Nat :=
  (skipTo place input).map fun rest => byteLength input - byteLength rest

/-- The place is further up, or in the same line further left. -/
def LineColumn.Before (first second : LineColumn) : Prop :=
  first.line < second.line ∨ first.line = second.line ∧ first.column < second.column

theorem Boundary.le {input : List Char} {offset : Nat} (boundary : Boundary input offset) :
    offset ≤ byteLength input := by
  obtain ⟨before, after, rfl, rfl⟩ := boundary
  rw [byteLength_append]
  exact Nat.le_add_right _ _

theorem beforeOffset_append (before after : List Char) :
    beforeOffset (before ++ after) (byteLength before) = before := by
  unfold beforeOffset
  rw [Nat.min_eq_left (by simp), takeBytes_append, Option.getD_some]

/-- Of two boundaries the first cuts off less. -/
theorem exists_between {before after before' after' : List Char}
    (same : before ++ after = before' ++ after') (less : byteLength before < byteLength before') :
    ∃ c middle, before' = before ++ c :: middle := by
  rcases List.append_eq_append_iff.mp same with ⟨middle, rfl, _⟩ | ⟨middle, rfl, _⟩
  · cases middle with
    | nil =>
        rw [List.append_nil] at less
        exact absurd less (Nat.lt_irrefl _)
    | cons c middle => exact ⟨c, middle, rfl⟩
  · rw [byteLength_append] at less
    omega

namespace LineColumn

theorem after_newline (before : List Char) :
    after (before ++ ['\n']) = ⟨(after before).line + 1, 1⟩ := by
  simp [after, List.count_append]

theorem after_concat (before : List Char) {c : Char} (inside : c ≠ '\n') :
    after (before ++ [c]) = ⟨(after before).line, (after before).column + 1⟩ := by
  simp [after, List.count_append, inside]

theorem Before.trans {first second third : LineColumn} (one : first.Before second)
    (other : second.Before third) : first.Before third := by
  unfold Before at *
  omega

theorem Before.irrefl (place : LineColumn) : ¬ place.Before place := by
  unfold Before
  omega

/-- A character further on is a place further on. -/
theorem before_after_concat (before : List Char) (c : Char) :
    (after before).Before (after (before ++ [c])) := by
  by_cases ends : c = '\n'
  · subst ends
    rw [after_newline]
    exact .inl (Nat.lt_succ_self _)
  · rw [after_concat before ends]
    exact .inr ⟨rfl, Nat.lt_succ_self _⟩

theorem before_after_append (before : List Char) (c : Char) (middle : List Char) :
    (after before).Before (after (before ++ c :: middle)) := by
  induction middle generalizing before c with
  | nil => exact before_after_concat before c
  | cons next middle ih =>
      have further := ih (before ++ [c]) next
      rw [List.append_assoc] at further
      exact (before_after_concat before c).trans further

end LineColumn

section Skips

theorem skipLines_append (line rest : List Char) :
    skipLines (line.count '\n' + 1) (line ++ '\n' :: rest) = some rest := by
  induction line with
  | nil => simp [skipLines]
  | cons c line ih =>
      by_cases ends : c = '\n'
      · subst ends
        rw [List.count_cons_self, List.cons_append, skipLines, if_pos rfl, ih]
      · rw [List.count_cons_of_ne ends, List.cons_append, skipLines, if_neg ends, ih]

/-- One more character of the line can be skipped. -/
theorem skipColumns_succ {count : Nat} {input rest : List Char} {c : Char} (inside : c ≠ '\n')
    (skipped : skipColumns count input = some (c :: rest)) :
    skipColumns (count + 1) input = some rest := by
  induction count generalizing input with
  | zero =>
      cases skipped
      rw [skipColumns, if_neg inside]
      rfl
  | succ count ih =>
      cases input with
      | nil => cases skipped
      | cons first input =>
          rw [skipColumns] at skipped ⊢
          split at skipped
          · cases skipped
          · rename_i within
            rw [if_neg within]
            exact ih skipped

/-- Skipping to the place after some characters leaves what follows them. -/
theorem skipTo_after (before rest : List Char) :
    skipTo (.after before) (before ++ rest) = some rest := by
  induction before using List.reverseRecOn generalizing rest with
  | nil => simp [skipTo, LineColumn.after, skipLines, skipColumns]
  | append_singleton before c ih =>
      rw [List.append_assoc, List.singleton_append]
      by_cases ends : c = '\n'
      · subst ends
        rw [LineColumn.after_newline]
        simp only [skipTo, Nat.add_sub_cancel, LineColumn.after, skipLines_append]
        rfl
      · have earlier := ih (c :: rest)
        rw [LineColumn.after_concat before ends]
        obtain ⟨line, found, skipped⟩ := Option.bind_eq_some_iff.mp earlier
        exact Option.bind_eq_some_iff.mpr ⟨line, found, skipColumns_succ ends skipped⟩

end Skips

variable {source : String}

/-- The offset is found again from its line and column. -/
theorem offsetOf?_lineColumn {offset : Nat} (boundary : Boundary source.toList offset) :
    offsetOf? source.toList (lineColumn source offset) = some offset := by
  obtain ⟨before, after, whole, rfl⟩ := boundary
  unfold offsetOf? lineColumn
  rw [whole, beforeOffset_append, skipTo_after, Option.map_some, byteLength_append,
    Nat.add_sub_cancel]

theorem before_lineColumn {first second : Nat} (one : Boundary source.toList first)
    (other : Boundary source.toList second) (less : first < second) :
    (lineColumn source first).Before (lineColumn source second) := by
  obtain ⟨before, after, whole, rfl⟩ := one
  obtain ⟨before', after', whole', rfl⟩ := other
  obtain ⟨c, middle, rfl⟩ := exists_between (whole.symm.trans whole') less
  have left : lineColumn source (byteLength before) = .after before := by
    rw [lineColumn, whole, beforeOffset_append]
  have right : lineColumn source (byteLength (before ++ c :: middle)) =
      .after (before ++ c :: middle) := by
    rw [lineColumn, whole', beforeOffset_append]
  rw [left, right]
  exact LineColumn.before_after_append before c middle

/-- Offsets between characters and their places come in the same order. -/
theorem before_lineColumn_iff {first second : Nat} (one : Boundary source.toList first)
    (other : Boundary source.toList second) :
    (lineColumn source first).Before (lineColumn source second) ↔ first < second := by
  constructor
  · intro before
    rcases Nat.lt_trichotomy first second with less | rfl | more
    · exact less
    · exact absurd before (LineColumn.Before.irrefl _)
    · have around := before.trans (before_lineColumn other one more)
      exact absurd around (LineColumn.Before.irrefl _)
  · exact before_lineColumn one other

end ThreeAddress.Text

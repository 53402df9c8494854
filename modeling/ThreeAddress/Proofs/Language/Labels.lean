import ThreeAddress.Proofs.Language.Compiled
import ThreeAddress.Proofs.Meaning.Jumps

/-!
The labels of an accepted source. Markers hand them out before the code that they belong to, and the
rules that define them come later, but in the end none is left out and none is defined twice.
-/

set_option autoImplicit false

namespace ThreeAddress

namespace Language

/-- The code of an accepted source defines the labels up to some number, each of them once, and jumps
to no others. -/
theorem accepted_labels_defined {language : Language} (built : build = .ok language)
    {source : String} {outcome : Outcome} {compiled : Compiled}
    (halts : language.table.Halts language.actions source outcome)
    (accepted : outcome.verdict = .accepted compiled) :
    ∃ count : Nat,
      (labelsOf compiled.code.toList).Perm ((List.range count).map Label.mk) ∧
      ∀ target ∈ targetsOf compiled.code.toList, target ∈ labelsOf compiled.code.toList := by
  obtain ⟨grammar, described, rfl⟩ := build_ok built
  obtain ⟨tree, accepts⟩ := halts.accepts (Description.wellFormed_of_build described) accepted
  obtain ⟨program, _, _, translator, rfl, holds⟩ := exists_program described accepts
  have code : translator.finish.code.toList = program.code [] .first := holds.code_eq
  rw [code]
  refine ⟨(labelsOf (program.code [] .first)).length, ?_, ?_⟩
  · rw [List.range_eq_range']
    exact program.labelsOf_perm [] .first
  · intro target jumps
    exact program.targetsOf_subset [] .first (List.Subset.refl _) (List.nil_subset _) jumps

/-- An if-else with a break in a loop: the exit of the loop is handed out second and defined last. -/
theorem accepted_labels_defined_overwriting :
    ∃ language outcome compiled, build = .ok language ∧
      language.table.Halts language.actions overwriting outcome ∧
      outcome.verdict = .accepted compiled ∧
      labelsOf compiled.code.toList = [⟨0⟩, ⟨2⟩, ⟨3⟩, ⟨1⟩] ∧
      targetsOf compiled.code.toList = [⟨2⟩, ⟨1⟩, ⟨3⟩, ⟨0⟩] ∧
      ∃ count : Nat,
        (labelsOf compiled.code.toList).Perm ((List.range count).map Label.mk) ∧
        ∀ target ∈ targetsOf compiled.code.toList, target ∈ labelsOf compiled.code.toList := by
  obtain ⟨language, outcome, compiled, built, halts, accepted, code⟩ := overwriting_accepted
  refine ⟨language, outcome, compiled, built, halts, accepted, ?_, ?_,
    accepted_labels_defined built halts accepted⟩
  · rw [code]
    rfl
  · rw [code]
    rfl

end Language

end ThreeAddress

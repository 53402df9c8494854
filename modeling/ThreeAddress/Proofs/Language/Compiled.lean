import ThreeAddress.Proofs.Language.Emission
import ThreeAddress.Proofs.Meaning.Numbering

/-!
What an accepted source is compiled to: the code of the program in its syntax tree, with operators
that compute into temporaries of their own. A temporary is fresh among temporaries and addresses,
but not among the names of the source.
-/

set_option autoImplicit false

namespace ThreeAddress

namespace Language

/-- The tree of an accepted source is that of a program without stray breaks, and the translator
ends with the code of that program and with what the program leaves of the supply. -/
theorem exists_program {grammar : Grammar} (described : description.build = .ok grammar)
    {source : String} {outcome : Outcome} {compiled : Compiled} {tree : Tree Token}
    (accepts : Accepts grammar ruleActions source outcome compiled tree) :
    ∃ program : Stmt, Stmt.read (tree.map Token.text) = some program ∧
      program.Nested false ∧
      ∃ translator : Translator, compiled = translator.finish ∧
        translator.Holds (program.code [] .first) (program.after .first) [] := by
  have shaped := shaped_of_parses described accepts.parses
  rw [List.map_singleton, start_role described] at shaped
  rcases shaped.acts with _ | ⟨⟨program, emits⟩, _⟩
  obtain ⟨attributes, translator, walk, finished⟩ := accepts.walk
  have first : Translator.first.Holds [] .first [] := ⟨rfl, rfl, rfl⟩
  obtain ⟨nested, _, _, holds, done⟩ := emits.walk first walk
  obtain ⟨_, holds⟩ := done.of_nil holds
  exact ⟨program, emits.read, nested, translator, finished, holds⟩

/-- A variable that is declared twice and spelled like the next temporary, in a loop around an
if-else with a break. -/
def overwriting : String :=
  "\x7b int t1; int t1; do if (a) break; else t1 = 2 + 3 - t1; while (b); \x7d"

theorem overwriting_accepted :
    ∃ language outcome compiled, build = .ok language ∧
      language.table.Halts language.actions overwriting outcome ∧
      outcome.verdict = .accepted compiled ∧
      compiled.code.toList =
        [.label ⟨0⟩, .ifFalse "a" ⟨2⟩, .goto ⟨1⟩, .goto ⟨3⟩, .label ⟨2⟩,
          .binary "t1" .add "2" "3", .binary "t2" .sub "t1" "t1", .copy "t1" "t2", .label ⟨3⟩,
          .ifTrue "b" ⟨0⟩, .label ⟨1⟩] := by
  have ran : Direct.compile? construction (ParseTable.ofGrammar grammar).terminal?
      (rules.map Rule.action).toArray 100 overwriting =
      some ⟨#[.label ⟨0⟩, .ifFalse "a" ⟨2⟩, .goto ⟨1⟩, .goto ⟨3⟩, .label ⟨2⟩,
          .binary "t1" .add "2" "3", .binary "t2" .sub "t1" "t1", .copy "t1" "t2", .label ⟨3⟩,
          .ifTrue "b" ⟨0⟩, .label ⟨1⟩],
        ⟨[⟨"t1", .var, 1, "t0", 0, "int", 6⟩], 1, 3⟩, #[⟨⟨"t1", 1⟩, 14⟩]⟩ := by
    decide +kernel
  obtain ⟨language, outcome, built, halts, accepted⟩ := accepted_of_compile? ran
  exact ⟨language, outcome, _, built, halts, accepted, rfl⟩

/-- The code of an accepted source is the code of the program in its syntax tree, whatever its names
are. -/
theorem accepted_code_eq {language : Language} (built : build = .ok language) {source : String}
    {outcome : Outcome} {compiled : Compiled}
    (halts : language.table.Halts language.actions source outcome)
    (accepted : outcome.verdict = .accepted compiled) :
    ∃ (tree : Tree String) (program : Stmt),
      outcome.trees language.table.grammar = [tree] ∧
      Stmt.read tree = some program ∧
      program.Nested false ∧
      compiled.code.toList = program.code [] .first := by
  obtain ⟨grammar, described, rfl⟩ := build_ok built
  obtain ⟨tree, accepts⟩ := halts.accepts (Description.wellFormed_of_build described) accepted
  obtain ⟨program, read, nested, translator, rfl, holds⟩ := exists_program described accepts
  exact ⟨tree.map Token.text, program, accepts.trees, read, nested, holds.code_eq⟩

theorem accepted_code_eq_overwriting :
    ∃ language outcome compiled, build = .ok language ∧
      language.table.Halts language.actions overwriting outcome ∧
      outcome.verdict = .accepted compiled ∧
      compiled.code.toList =
        [.label ⟨0⟩, .ifFalse "a" ⟨2⟩, .goto ⟨1⟩, .goto ⟨3⟩, .label ⟨2⟩,
          .binary "t1" .add "2" "3", .binary "t2" .sub "t1" "t1", .copy "t1" "t2", .label ⟨3⟩,
          .ifTrue "b" ⟨0⟩, .label ⟨1⟩] ∧
      ∃ (tree : Tree String) (program : Stmt),
        outcome.trees language.table.grammar = [tree] ∧
        Stmt.read tree = some program ∧
        program.Nested false ∧
        compiled.code.toList = program.code [] .first := by
  obtain ⟨language, outcome, compiled, built, halts, accepted, code⟩ := overwriting_accepted
  exact ⟨language, outcome, compiled, built, halts, accepted, code,
    accepted_code_eq built halts accepted⟩

/-- Each operator of an accepted source computes into a temporary of its own, with a number below
those that are left. An identifier can only be overwritten so if it is spelled like a temporary. -/
theorem accepted_computed_fresh {language : Language} (built : build = .ok language)
    {source : String} {outcome : Outcome} {compiled : Compiled}
    (halts : language.table.Halts language.actions source outcome)
    (accepted : outcome.verdict = .accepted compiled) :
    ∃ numbers : List Nat,
      computedOf compiled.code.toList = numbers.map temporary ∧
      numbers.Pairwise (· < ·) ∧
      (∀ number ∈ numbers, number < compiled.symbols.temporaries) ∧
      ∀ token ∈ (Scan.ofString source).tokens, token.kind = .ident →
        isTemporary token.text = false → token.text ∉ computedOf compiled.code.toList := by
  obtain ⟨grammar, described, rfl⟩ := build_ok built
  obtain ⟨tree, accepts⟩ := halts.accepts (Description.wellFormed_of_build described) accepted
  obtain ⟨program, _, _, translator, rfl, holds⟩ := exists_program described accepts
  have code : translator.finish.code.toList = program.code [] .first := holds.code_eq
  have left : translator.finish.symbols.temporaries = (program.after .first).temporaries :=
    congrArg Supply.temporaries holds.supply_eq
  obtain ⟨numbers, names, rising, within⟩ := (program.numbered [] .first).exists_numbers
  rw [code, left]
  refine ⟨numbers, names, rising, fun number member => (within number member).2, ?_⟩
  intro token _ _ plain member
  rw [names] at member
  obtain ⟨number, _, same⟩ := List.mem_map.mp member
  exact ne_temporary plain number same.symm

/-- A sum is computed into the place of a variable, and the variable is read after it. -/
theorem accepted_computed_fresh_overwriting :
    ∃ language outcome compiled, build = .ok language ∧
      language.table.Halts language.actions overwriting outcome ∧
      outcome.verdict = .accepted compiled ∧
      computedOf compiled.code.toList = ["t1", "t2"] ∧
      (∃ token ∈ (Scan.ofString overwriting).tokens, token.kind = .ident ∧ token.text = "t1") ∧
      ∃ numbers : List Nat,
        computedOf compiled.code.toList = numbers.map temporary ∧
        numbers.Pairwise (· < ·) ∧
        (∀ number ∈ numbers, number < compiled.symbols.temporaries) ∧
        ∀ token ∈ (Scan.ofString overwriting).tokens, token.kind = .ident →
          isTemporary token.text = false → token.text ∉ computedOf compiled.code.toList := by
  obtain ⟨language, outcome, compiled, built, halts, accepted, code⟩ := overwriting_accepted
  refine ⟨language, outcome, compiled, built, halts, accepted, ?_, by decide +kernel,
    accepted_computed_fresh built halts accepted⟩
  rw [code]
  rfl

end Language

end ThreeAddress

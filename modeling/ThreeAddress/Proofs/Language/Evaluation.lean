import ThreeAddress.Proofs.Run.Direct

/-!
The item sets of the language, ready for evaluation. Its tables are too large to be filled in a
proof, but a run over item sets enters only a few of them.
-/

set_option autoImplicit false

namespace ThreeAddress

namespace Language

/-- The grammar that the rules describe. -/
@[irreducible] def grammar : Grammar :=
  match description.build with
  | .ok grammar => grammar
  | .error _ => ⟨[], [], [], {}, 0⟩

theorem description_build : description.build = .ok grammar := by
  have succeeds : description.build.isOk = true := by decide +kernel
  unfold grammar
  cases described : description.build with
  | ok grammar => rfl
  | error error =>
      rw [described] at succeeds
      cases succeeds

theorem wellFormed : grammar.WellFormed := Description.wellFormed_of_build description_build

/-- The nonterminals that can vanish: declarations, statements and the markers. -/
def vanishing : List Nat := [2, 6, 18, 19, 20, 21, 22]

/-- The first tokens of the nonterminals in order. -/
def beginnings : TokenSets :=
  ⟨[[0], [0]] ++ List.replicate 4 [11] ++ List.replicate 2 [0, 8, 12, 14, 15, 16] ++
    List.replicate 2 [8] ++ List.replicate 7 [5, 8, 9, 10, 17, 18, 28, 31] ++
    [[5, 8, 9, 10, 17, 18]] ++ List.replicate 5 [] ++ [[0]]⟩

/-- What the item sets are built from, with first sets that need not be computed. -/
def construction : Construction :=
  ⟨grammar.construction.grammar, grammar.construction.eof, ⟨beginnings, vanishing⟩⟩

theorem nullable_eq : grammar.construction.grammar.nullable = vanishing := by
  decide +kernel

theorem first_eq : grammar.construction.grammar.firstSets.first = beginnings := by
  -- Expressions are described from the outside in, so their productions are gone through backwards.
  refine wellFormed.construction_inRange.first_eq_of_order
    (grammar.construction.grammar.productions.reverse ++
      grammar.construction.grammar.productions.reverse) ?_ ?_ ?_
  · intro production member
    simpa using member
  · rw [nullable_eq]
    decide +kernel
  · rw [nullable_eq]
    decide +kernel

theorem construction_eq : grammar.construction = construction := by
  have sets : grammar.construction.first = ⟨beginnings, vanishing⟩ := by
    rw [← first_eq, ← nullable_eq]
    rfl
  rw [construction, ← sets]

theorem build_eq : build = .ok ⟨.ofGrammar grammar, (rules.map Rule.action).toArray⟩ := by
  unfold build
  rw [description_build]

/-- A source that a run over item sets compiles is accepted with the same result. -/
theorem accepted_of_compile? {fuel : Nat} {source : String} {compiled : Compiled}
    (ran : Direct.compile? construction (ParseTable.ofGrammar grammar).terminal?
      (rules.map Rule.action).toArray fuel source = some compiled) :
    ∃ language outcome, build = .ok language ∧
      language.table.Halts language.actions source outcome ∧
      outcome.verdict = .accepted compiled := by
  rw [← construction_eq] at ran
  obtain ⟨outcome, halts, accepted⟩ := Direct.halts_of_compile? wellFormed ran
  exact ⟨_, outcome, build_eq, halts, accepted⟩

end Language

end ThreeAddress

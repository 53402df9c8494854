import ThreeAddress.Proofs.Language.Whole
import ThreeAddress.Proofs.Run.Worth

/-!
Every run of the language comes to an end, after a number of steps that is linear in the number of
tokens. The conflicts of the tables do not matter for this: whatever is reduced is worth less
afterwards.
-/

set_option autoImplicit false

namespace ThreeAddress

namespace Language

/-- The weights of nonterminals, with zero for those that are missing. An expression weighs more the
tighter it binds, so that passing it on lowers its weight. -/
def weights : List (String × Nat) :=
  [("block", 3), ("decl", 3), ("stmt", 2), ("type_array", 1),
   ("bool", 1), ("join", 2), ("equality", 3), ("rel", 4), ("expr", 5), ("term", 6), ("unary", 7),
   ("factor", 8), ("loc", 9), ("loc_array", 10)]

/-- The room above symbols, where markers and empty lists can come. -/
def rooms : List (String × Nat) :=
  [("\x7b", 3), ("decls", 2), ("stmts", 1), (")", 2), ("if_test", 1), ("else", 2), ("if_else", 1),
   ("while", 2), ("do", 2), ("loop_enter", 1), ("loop_test", 1)]

/-- What nonterminals need that begin with an empty body. -/
def necessities : List (String × Nat) :=
  [("decls", 3), ("stmts", 2), ("stmt", 1), ("scope_enter", 1), ("if_test", 2), ("if_else", 2),
   ("loop_enter", 2), ("loop_test", 2)]

/-- The worth of the symbols of the language. A token weighs more than any nonterminal. -/
def valuation (grammar : Grammar) : Valuation where
  weight
    | .token _ => 11
    | .nonterminal id => (weights.lookup (grammar.nonterminalName id)).getD 0
  room symbol := (rooms.lookup (grammar.symbolName symbol)).getD 0
  needs
    | .token _ => 0
    | .nonterminal id => (necessities.lookup (grammar.nonterminalName id)).getD 0

theorem lowers_of_build {grammar : Grammar} (described : description.build = .ok grammar) :
    ∀ production ∈ grammar.productions, (valuation grammar).lowers production = true := by
  have checked : (description.build.map fun grammar =>
      grammar.productions.all (valuation grammar).lowers) = .ok true := by
    decide +kernel
  rw [described] at checked
  exact List.all_eq_true.mp (Except.ok.inj checked)

theorem room_le (grammar : Grammar) (symbol : Symbol) : (valuation grammar).room symbol ≤ 3 := by
  have listed : ∀ entry ∈ rooms, entry.2 ≤ 3 := by decide
  change (rooms.lookup (grammar.symbolName symbol)).getD 0 ≤ 3
  cases found : rooms.lookup (grammar.symbolName symbol) with
  | none => exact Nat.zero_le 3
  | some room =>
      obtain ⟨front, back, same, _⟩ := List.lookup_eq_some_iff.mp found
      have member : (grammar.symbolName symbol, room) ∈ rooms := by simp [same]
      exact listed _ member

theorem needs_start {grammar : Grammar} (described : description.build = .ok grammar) :
    (valuation grammar).needs (.nonterminal grammar.start) = 0 := by
  have name : grammar.nonterminalName grammar.start = "program" :=
    Description.getD_of_idxOf? "?" (start_of_build described)
  simp only [valuation, name]
  decide

/-- A source of `n` tokens keeps the translator busy for at most `15 * n + 1` steps, so there is an
outcome for every source. It is the one that `translate` gives, unless the source is so long that
this number of steps is beyond the limit. -/
theorem translate_halts :
    ∃ language, build = .ok language ∧ ∀ source, ∃ outcome,
      language.table.parse language.actions (15 * (Scan.ofString source).tokens.length + 1) source =
        .halted outcome ∧
      (language.translate source = some outcome ∨
        ParseTable.stepLimit < 15 * (Scan.ofString source).tokens.length + 1) := by
  refine ⟨_, build_eq, ?_⟩
  intro source
  have bounded : ∀ id, (valuation grammar).weight (.token id) +
      (valuation grammar).room (.token id) ≤ 14 := by
    intro id
    have room := room_le grammar (.token id)
    have weight : (valuation grammar).weight (.token id) = 11 := rfl
    omega
  obtain ⟨outcome, parsed⟩ := ParseTable.exists_parse_halted wellFormed (valuation grammar)
    (lowers_of_build description_build) bounded (rules.map Rule.action).toArray source
  rw [needs_start description_build, Nat.zero_add] at parsed
  refine ⟨outcome, parsed, ?_⟩
  by_cases within : 15 * (Scan.ofString source).tokens.length + 1 ≤ ParseTable.stepLimit
  · left
    have translated := ParseTable.parse_mono parsed within
    rw [translate, translated]
    rfl
  · right
    exact Nat.lt_of_not_le within

end Language

end ThreeAddress

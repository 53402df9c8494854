import ThreeAddress.Proofs.Language.Evaluation
import ThreeAddress.Proofs.Token

/-!
How much of a source the language reads before it accepts. The end of input has a name of its own
among the terminals, and a string literal with that name is read as the end of input: everything
after it is left unread.
-/

set_option autoImplicit false

namespace ThreeAddress

namespace Language

theorem build_ok {language : Language} (built : build = .ok language) :
    ∃ grammar, description.build = .ok grammar ∧
      language = ⟨.ofGrammar grammar, (rules.map Rule.action).toArray⟩ := by
  unfold build at built
  split at built
  · cases built
  · rename_i grammar described
    cases built
    exact ⟨grammar, described, rfl⟩

theorem tokens_of_build {grammar : Grammar} (described : description.build = .ok grammar) :
    grammar.tokens = terminals := by
  rw [(Description.build_ok described).1]
  decide +kernel

theorem start_of_build {grammar : Grammar} (described : description.build = .ok grammar) :
    grammar.nonterminal? "program" = some grammar.start := by
  have checked : (description.build.map fun grammar =>
      decide (grammar.nonterminal? "program" = some grammar.start)) = .ok true := by
    decide +kernel
  rw [described] at checked
  exact of_decide_eq_true (Except.ok.inj checked)

/-- The token for the end of input is named by a dollar sign. -/
theorem eofName_of_build {grammar : Grammar} (described : description.build = .ok grammar) :
    (ParseTable.ofGrammar grammar).grammar.tokens = terminals ++ ["$"] := by
  change grammar.tokens ++ [freshName grammar.tokens "$" grammar.tokens.length "$"] = _
  rw [tokens_of_build described]
  decide +kernel

end Language

/-- A string literal that spells the end of input. -/
def Token.SpellsEnd (token : Token) : Prop := token.kind = .str ∧ token.text = "$"

instance (token : Token) : Decidable token.SpellsEnd :=
  inferInstanceAs (Decidable (token.kind = .str ∧ token.text = "$"))

namespace Token

theorem text_ne_end {kind : TokenKind} {text : String} (spells : kind.Spells text.toList)
    (kinds : kind = .reserved ∨ kind = .operator ∨ kind = .delimiter) : text ≠ "$" := by
  rintro rfl
  rcases kinds with rfl | rfl | rfl
  · have listed : String.ofList "$".toList ∈ reservedWords := spells
    exact absurd listed (by decide)
  · obtain ⟨first, rest, same, listed⟩ := spells
    cases same
    exact absurd listed (by decide)
  · obtain ⟨first, same, listed⟩ := spells
    cases same
    exact absurd listed (by decide)

end Token

namespace Language

variable {grammar : Grammar}

/-- A token of a source is read as the end of input only if it is a string literal that spells it. -/
theorem terminal?_eq_eof_iff (described : description.build = .ok grammar) {token : Token}
    (spells : token.kind.Spells token.text.toList) :
    (ParseTable.ofGrammar grammar).terminal? token = some grammar.tokens.length ↔
      token.SpellsEnd := by
  obtain ⟨kind, text, start⟩ := token
  have found : ∀ name, (ParseTable.ofGrammar grammar).grammar.token? name =
      some grammar.tokens.length ↔ name = "$" := by
    intro name
    rw [Grammar.token?, eofName_of_build described, tokens_of_build described]
    constructor
    · intro known
      exact (Description.getD_of_idxOf? "" known).symm.trans (by decide +kernel)
    · rintro rfl
      decide +kernel
  have fixed : ∀ kind, ParseTable.terminalSpelling ⟨kind, text, start⟩ = text →
      kind = .reserved ∨ kind = .operator ∨ kind = .delimiter → kind.Spells text.toList →
      ((ParseTable.ofGrammar grammar).grammar.token? text = some grammar.tokens.length ↔
        Token.SpellsEnd ⟨kind, text, start⟩) := by
    intro kind _ kinds spells
    have different := Token.text_ne_end spells kinds
    rw [found]
    constructor
    · intro same
      exact absurd same different
    · rintro ⟨_, same⟩
      exact absurd same different
  cases kind with
  | eof => exact absurd spells id
  | ident => exact (found "id").trans (by simp [Token.SpellsEnd])
  | number => exact (found "num").trans (by simp [Token.SpellsEnd])
  | real => exact (found "real").trans (by simp [Token.SpellsEnd])
  | typeName => exact (found "basic").trans (by simp [Token.SpellsEnd])
  | reserved => exact fixed .reserved rfl (.inl rfl) spells
  | operator => exact fixed .operator rfl (.inr (.inl rfl)) spells
  | delimiter => exact fixed .delimiter rfl (.inr (.inr rfl)) spells
  | str => exact (found text).trans (by simp [Token.SpellsEnd])

/-- If a source is accepted, its tokens begin with a sentence of the language. That sentence is the
whole source, and no error stops its reading, exactly if no string literal spells the end of
input. -/
theorem accepted_whole_iff {language : Language} (built : build = .ok language) {source : String}
    {outcome : Outcome} {compiled : Compiled}
    (halts : language.table.Halts language.actions source outcome)
    (accepted : outcome.verdict = .accepted compiled) :
    ∃ (grammar : Grammar) (shifted unread : List Token) (word : List Nat),
      description.build = .ok grammar ∧
      grammar.nonterminal? "program" = some grammar.start ∧
      (Scan.ofString source).tokens = shifted ++ unread ∧
      outcome.lexemes = shifted.map Token.text ∧
      shifted.map language.table.terminal? = word.map some ∧
      grammar.Derives [.nonterminal grammar.start] (word.map .token) ∧
      ((Scan.ofString source).error = none ∧ unread = [] ↔
        ∀ token ∈ (Scan.ofString source).tokens, ¬token.SpellsEnd) := by
  obtain ⟨grammar, described, rfl⟩ := build_ok built
  have wellFormed := Description.wellFormed_of_build described
  obtain ⟨tree, accepts⟩ := halts.accepts wellFormed accepted
  obtain ⟨word, read, derivation⟩ := accepts.parses.rightmost
  rw [List.flatMap_singleton] at read derivation
  have spells : ∀ token ∈ (Scan.ofString source).tokens, token.kind.Spells token.text.toList :=
    fun token member => Scan.spells_of_mem_ofString member
  -- A token that was read is one of a body, and the end of input is not.
  have inside : ∀ token ∈ tree.leaves, token ∈ (Scan.ofString source).tokens →
      ¬token.SpellsEnd := by
    intro token member listed ends
    have known := (terminal?_eq_eof_iff described (spells token listed)).mpr ends
    have bodies : ∀ production ∈ grammar.productions, ∀ id, .token id ∈ production.body →
        id < grammar.tokens.length :=
      fun production found id inBody => wellFormed.body_has production found (.token id) inBody
    obtain ⟨id, same, bound⟩ := accepts.parses.read_of_mem bodies (by simp) token
      (by rw [List.flatMap_singleton]; exact member)
    rw [known] at same
    cases same
    exact Nat.lt_irrefl _ bound
  have shared : description.build = .ok grammar ∧
      grammar.nonterminal? "program" = some grammar.start := ⟨described, start_of_build described⟩
  rcases accepts.read with ⟨all, clean⟩ | ⟨token, rest, tokens, known⟩
  · refine ⟨grammar, tree.leaves, [], word, shared.1, shared.2, ?_, accepts.lexemes, read,
      .of_rightmost derivation, ?_⟩
    · rw [all, List.append_nil]
    · constructor
      · intro _ token member
        exact inside token (all ▸ member) member
      · intro _
        exact ⟨clean, rfl⟩
  · refine ⟨grammar, tree.leaves, token :: rest, word, shared.1, shared.2, tokens, accepts.lexemes,
      read, .of_rightmost derivation, ?_⟩
    have member : token ∈ (Scan.ofString source).tokens := by
      rw [tokens]
      exact List.mem_append_right _ List.mem_cons_self
    have ends := (terminal?_eq_eof_iff described (spells token member)).mp known
    constructor
    · rintro ⟨_, empty⟩
      cases empty
    · intro none
      exact absurd ends (none token member)

/-- Accepted at its string literal, although a character that begins no token comes later. -/
theorem accepted_whole_iff_unread :
    (Scan.ofString "\x7b \x7d \"$\" #").error ≠ none ∧
    ∃ language outcome compiled, build = .ok language ∧
      language.table.Halts language.actions "\x7b \x7d \"$\" #" outcome ∧
      outcome.verdict = .accepted compiled ∧
      ∃ (grammar : Grammar) (shifted unread : List Token) (word : List Nat),
        description.build = .ok grammar ∧
        grammar.nonterminal? "program" = some grammar.start ∧
        (Scan.ofString "\x7b \x7d \"$\" #").tokens = shifted ++ unread ∧
        outcome.lexemes = shifted.map Token.text ∧
        shifted.map language.table.terminal? = word.map some ∧
        grammar.Derives [.nonterminal grammar.start] (word.map .token) ∧
        ((Scan.ofString "\x7b \x7d \"$\" #").error = none ∧ unread = [] ↔
          ∀ token ∈ (Scan.ofString "\x7b \x7d \"$\" #").tokens, ¬token.SpellsEnd) := by
  have ran : Direct.compile? construction (ParseTable.ofGrammar grammar).terminal?
      (rules.map Rule.action).toArray 20 "\x7b \x7d \"$\" #" = some ⟨#[], ⟨[], 1, 0⟩, #[]⟩ := by
    decide +kernel
  obtain ⟨language, outcome, built, halts, accepted⟩ := accepted_of_compile? ran
  exact ⟨by decide +kernel, language, outcome, _, built, halts, accepted,
    accepted_whole_iff built halts accepted⟩

end Language

end ThreeAddress

import ThreeAddress.Proofs.Language.Evaluation
import ThreeAddress.Proofs.Language.Scopes
import ThreeAddress.Proofs.Run.Stop

/-!
Declarations are resolved by the blocks of the source, although the translator knows scopes by their
depth only and the type of a declaration by what was read last.
-/

set_option autoImplicit false

namespace ThreeAddress

/-- To accept defines nothing more. -/
theorem Config.definedOf_of_accept {table : ParseTable} {actions : Array Semantic} {config : Config}
    {outcome : Outcome} {compiled : Compiled} (step : config.step table actions = .halted outcome)
    (accepted : outcome.verdict = .accepted compiled) :
    definedOf outcome.log = definedOf config.translator.log := by
  have asked := (accepted_of_step step accepted).1
  unfold Config.step at step
  rw [asked] at step
  cases step
  simp [record, Translator.record, Event.entry?]

namespace Language

variable {grammar : Grammar} {scan : Scan} {config next last : Config} {symbols : List Symbol}
  {trees : List (Tree Token)}

/-- While a source is translated, its declarations so far are resolved by the blocks that the trees
on the stack stand for. -/
structure InScopes (grammar : Grammar) (scan : Scan) (config : Config) (symbols : List Symbol)
    (trees : List (Tree Token)) : Prop where
  sound : config.Sound grammar ruleActions scan symbols trees
  numbered : (Scopes.readAll ruleActions {} trees).Numbered
  resolves : config.translator.Resolves (Scopes.readAll ruleActions {} trees)

namespace InScopes

theorem first (wellFormed : grammar.WellFormed) {lookahead : Token} {input : Scan}
    (fetched : scan.next = .ok (lookahead, input)) :
    InScopes grammar scan (.first lookahead input) [] [] :=
  ⟨.first wellFormed fetched, .first, .first⟩

/-- To log a step defines nothing. -/
theorem logged (inScopes : InScopes grammar scan config symbols trees) (table : ParseTable)
    (action : Action) :
    (config.logged table action).Resolves (Scopes.readAll ruleActions {} trees) := by
  have same : definedOf (config.logged table action).log = definedOf config.translator.log := by
    simp [Config.logged, Translator.record, Event.entry?]
  exact inScopes.resolves.of_same rfl rfl rfl same inScopes.resolves.addressed

/-- One step keeps the declarations resolved. -/
theorem of_moves (inScopes : InScopes grammar scan config symbols trees)
    (described : description.build = .ok grammar)
    (moves : Config.Moves (.ofGrammar grammar) ruleActions config next) :
    ∃ symbols trees, InScopes grammar scan next symbols trees := by
  have wellFormed := Description.wellFormed_of_build described
  have sound := inScopes.sound
  cases moves with
  | shift state lookahead input asked fetched =>
      obtain ⟨id, after⟩ := sound.shift wellFormed asked fetched
      refine ⟨_, _, after, ?_, ?_⟩
      · simpa using inScopes.numbered
      · simpa using inScopes.logged _ _
  | reduce index production head translator target asked found ran enters =>
      have numbered := inScopes.numbered
      have resolves := inScopes.logged (.ofGrammar grammar) (.reduce index)
      obtain ⟨earlier, left, right, rfl, rfl, after⟩ :=
        sound.reduce wellFormed asked found ran enters
      obtain ⟨body, role, fits, inside⟩ := (shaped_of_parses described after.parses).exists_last
      have outermost : [0] <:+ (Scopes.readAll ruleActions {} (left ++ right)).blocks :=
        Scopes.blocks_readAll {} _
      have past : Scopes.readAll ruleActions {} (left ++ [.node index right]) =
          (Scopes.readAll ruleActions {} (left ++ right)).act
            (ruleActions.getD index .nothing) right := by
        rw [Scopes.readAll_append, Scopes.readAll_singleton, inside.read_node _ fits,
          Scopes.readAll_append]
      obtain ⟨middle, between, _, walk⟩ := sound.walk.split
      refine ⟨_, _, after, ?_, ?_⟩
      · rw [past]
        exact numbered.act outermost _ right
      · rw [past]
        apply resolves.act numbered outermost (Reduction.leaves_of_run ran)
        intro depth name names there
        exact walk.declared?_eq fits inside names there _ _

/-- A run keeps the declarations resolved. -/
theorem of_reaches (inScopes : InScopes grammar scan config symbols trees)
    (described : description.build = .ok grammar)
    (reaches : Config.Reaches (.ofGrammar grammar) ruleActions config last) :
    ∃ symbols trees, InScopes grammar scan last symbols trees := by
  apply reaches.keeps ?_ ⟨symbols, trees, inScopes⟩
  rintro config next ⟨symbols, trees, inScopes⟩ moves
  exact inScopes.of_moves described moves

end InScopes

/-- The declarations of an accepted source are resolved by its blocks: the diagnostics are those of
the repeated ones, all others are recorded with their depth, keyword and offset, and those of the
outermost block are left in the symbol table, at addresses of their own. -/
theorem accepted_declarations {language : Language} (built : build = .ok language) {source : String}
    {outcome : Outcome} {compiled : Compiled}
    (halts : language.table.Halts language.actions source outcome)
    (accepted : outcome.verdict = .accepted compiled) :
    ∃ (tree : Tree Token) (unread : List Token) (resolution : Resolution),
      (Scan.ofString source).tokens = tree.leaves ++ unread ∧
      outcome.trees language.table.grammar = [tree.map Token.text] ∧
      resolution = resolve (tree.declarations [0] 1) ∧
      compiled.diagnostics.toList = resolution.repeated ∧
      (definedOf outcome.log).map SymbolEntry.record = resolution.recorded.map Declaration.record ∧
      compiled.symbols.depth = 1 ∧
      compiled.symbols.entries.map SymbolEntry.record =
        (resolution.recorded.filter fun declaration => declaration.depth = 1).map
          Declaration.record ∧
      (compiled.symbols.entries.map SymbolEntry.addr).Nodup := by
  obtain ⟨grammar, described, rfl⟩ := build_ok built
  have wellFormed := Description.wellFormed_of_build described
  obtain ⟨lookahead, input, last, fetched, reaches, step⟩ := halts.reaches accepted
  obtain ⟨symbols, trees, inScopes⟩ :=
    (InScopes.first wellFormed fetched).of_reaches described reaches
  obtain ⟨asked, rfl, _⟩ := Config.accepted_of_step step accepted
  obtain ⟨tree, rfl, accepts⟩ := inScopes.sound.accepts wellFormed step accepted
  obtain ⟨unread, tokens⟩ := accepts.tokens
  have shaped := shaped_of_parses described accepts.parses
  rw [List.map_singleton, start_role described] at shaped
  -- The whole tree is no marker, so only the outermost block is open after it.
  have numbered := inScopes.numbered
  have resolves := inScopes.resolves
  rw [Scopes.readAll_of_closed _ (shaped.closed (by simp))] at numbered resolves
  simp only [Tree.declarationsAll, List.nil_append, List.append_nil] at numbered resolves
  refine ⟨tree, unread, _, tokens, accepts.trees, rfl, resolves.diagnostics_eq, ?_,
    resolves.depth_eq, ?_, resolves.addressed.nodup⟩
  · rw [Config.definedOf_of_accept step accepted]
    exact resolves.defined_eq
  · refine resolves.entries_eq.trans (congrArg (List.map Declaration.record) ?_)
    refine List.filter_congr fun declaration member => ?_
    have outermost := numbered.recorded_outermost declaration member
    rw [Bool.eq_iff_iff, decide_eq_true_eq, decide_eq_true_eq]
    constructor
    · intro inner
      rw [Declaration.depth, inner.eq_of_length_le outermost.length_le]
      rfl
    · intro depth
      rw [← outermost.eq_of_length depth.symm]

/-- A name declared again in its own block and in an inner one, and another name in two blocks that
are not within each other. -/
def redeclaring : String :=
  "\x7b int a; float a; \x7b int a; int b; \x7d \x7b int b; \x7d \x7d"

theorem accepted_declarations_redeclaring :
    ∃ language outcome compiled, build = .ok language ∧
      language.table.Halts language.actions redeclaring outcome ∧
      outcome.verdict = .accepted compiled ∧
      compiled.diagnostics = #[⟨⟨"a", 1⟩, 15⟩, ⟨⟨"a", 1⟩, 24⟩] ∧
      compiled.symbols.entries = [⟨"a", .var, 1, "t0", 0, "int", 6⟩] ∧
      ∃ (tree : Tree Token) (unread : List Token) (resolution : Resolution),
        (Scan.ofString redeclaring).tokens = tree.leaves ++ unread ∧
        outcome.trees language.table.grammar = [tree.map Token.text] ∧
        resolution = resolve (tree.declarations [0] 1) ∧
        compiled.diagnostics.toList = resolution.repeated ∧
        (definedOf outcome.log).map SymbolEntry.record =
          resolution.recorded.map Declaration.record ∧
        compiled.symbols.depth = 1 ∧
        compiled.symbols.entries.map SymbolEntry.record =
          (resolution.recorded.filter fun declaration => declaration.depth = 1).map
            Declaration.record ∧
        (compiled.symbols.entries.map SymbolEntry.addr).Nodup := by
  have ran : Direct.compile? construction (ParseTable.ofGrammar grammar).terminal?
      (rules.map Rule.action).toArray 100 redeclaring =
      some ⟨#[], ⟨[⟨"a", .var, 1, "t0", 0, "int", 6⟩], 1, 3⟩,
        #[⟨⟨"a", 1⟩, 15⟩, ⟨⟨"a", 1⟩, 24⟩]⟩ := by
    decide +kernel
  obtain ⟨language, outcome, built, halts, accepted⟩ := accepted_of_compile? ran
  exact ⟨language, outcome, _, built, halts, accepted, rfl, rfl,
    accepted_declarations built halts accepted⟩

end Language

end ThreeAddress

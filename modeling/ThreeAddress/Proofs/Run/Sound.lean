import ThreeAddress.Proofs.Grammar.Derivation
import ThreeAddress.Proofs.Run.Step
import ThreeAddress.Proofs.Run.Walk
import ThreeAddress.Proofs.Stack

/-!
Soundness of the run over the tables of any grammar, with or without conflicts. The stack of states
spells out symbols, the symbols have syntax trees, and the leaves of the trees are the tokens read
so far.
-/

set_option autoImplicit false

namespace ThreeAddress

namespace ParseTable

@[simp] theorem ofGrammar_grammar (grammar : Grammar) :
    (ofGrammar grammar).grammar = grammar.construction.grammar := rfl

theorem actionOn_eq_ok {table : ParseTable} {state : Nat} {token : Token} {action : Action}
    (asked : table.actionOn state token = .ok action) (acts : action ≠ .error) :
    ∃ id, table.terminal? token = some id ∧ cell table.tables.action state id = .ok action := by
  unfold actionOn at asked
  split at asked
  · cases asked
    exact absurd rfl acts
  · rename_i id known
    exact ⟨id, known, asked⟩

theorem terminal?_endOfInput (table : ParseTable) (length : Nat) :
    table.terminal? (.endOfInput length) = some table.eof := rfl

end ParseTable

namespace Config

/-- The symbols on the stack, from the top, and their trees in the order of reading. -/
structure Sound (grammar : Grammar) (actions : Array Semantic) (scan : Scan) (config : Config)
    (symbols : List Symbol) (trees : List (Tree Token)) : Prop where
  linked : grammar.construction.Linked grammar.construction.collection.sets config.states symbols
  parses : grammar.Parses (ParseTable.ofGrammar grammar).terminal? symbols.reverse trees
  walk : Walk actions trees [.none] .first config.attributes config.translator
  moves : movesOf config.translator.log = (trees.map (Tree.map Token.text)).flatMap Tree.moves
  unread : ∃ rest, config.Unread rest ∧ scan.tokens = trees.flatMap Tree.leaves ++ rest
  error : config.input.error = scan.error

namespace Sound

variable {grammar : Grammar} {actions : Array Semantic} {scan : Scan} {config : Config}
  {symbols : List Symbol} {trees : List (Tree Token)}

theorem first (wellFormed : grammar.WellFormed) {lookahead : Token} {input : Scan}
    (fetched : scan.next = .ok (lookahead, input)) :
    Sound grammar actions scan (.first lookahead input) [] [] := by
  have read := unread_of_next (.first lookahead input) fetched rfl rfl
  exact {
    linked := .bottom wellFormed.proper.collection_complete.start
    parses := .nil
    walk := .nil _ _ #[]
    moves := rfl
    unread := ⟨scan.tokens, read.1, rfl⟩
    error := read.2 }

theorem asks (wellFormed : grammar.WellFormed)
    (sound : Sound grammar actions scan config symbols trees) {action : Action}
    (asked : (ParseTable.ofGrammar grammar).actionOn config.top config.lookahead = .ok action)
    (acts : action ≠ .error) :
    ∃ state below items id, config.states = state :: below ∧
      grammar.construction.collection.sets[state]? = some items ∧
      (ParseTable.ofGrammar grammar).terminal? config.lookahead = some id ∧
      grammar.construction.Asks grammar.construction.collection.sets items id action := by
  obtain ⟨state, below, items, states, holds⟩ := sound.linked.exists_top
  obtain ⟨id, known, entry⟩ := ParseTable.actionOn_eq_ok asked acts
  rw [top, states, List.headD_cons] at entry
  exact ⟨state, below, items, id, states, holds, known,
    Tables.asks_of_cell wellFormed.proper.collection_complete holds entry acts⟩

/-- A reduction finds its item in the state on top, and under the body a state that calls for the
production. -/
theorem exists_reduced (wellFormed : grammar.WellFormed)
    (sound : Sound grammar actions scan config symbols trees) {index : Nat} {production : Production}
    (asked : (ParseTable.ofGrammar grammar).actionOn config.top config.lookahead =
      .ok (.reduce index))
    (found : grammar.construction.grammar.productions[index]? = some production) :
    grammar.productions[index]? = some production ∧ ∃ id items origin under origins earlier,
      (ParseTable.ofGrammar grammar).terminal? config.lookahead = some id ∧
      grammar.construction.collection.sets[config.top]? = some items ∧
      ⟨index, production.body.length, id⟩ ∈ items ∧
      grammar.construction.Linked grammar.construction.collection.sets (origin :: under) earlier ∧
      grammar.construction.collection.sets[origin]? = some origins ∧ ⟨index, 0, id⟩ ∈ origins ∧
      popAbove production.body.length config.states = origin :: under ∧
      symbols = production.body.reverse ++ earlier := by
  obtain ⟨state, below, items, id, states, holds, known, asks⟩ :=
    sound.asks wellFormed asked (by simp)
  have linked := sound.linked
  rw [states] at linked
  obtain ⟨old, member, origin, under, origins, earlier, bottom, originHolds, initial, popped, split⟩ :=
    wellFormed.exists_reduced linked holds asks found
  rw [top, states]
  exact ⟨old, id, items, origin, under, origins, earlier, known, holds, member, bottom, originHolds,
    initial, popped, split⟩

theorem shift (wellFormed : grammar.WellFormed)
    (sound : Sound grammar actions scan config symbols trees) {target : Nat} {lookahead : Token}
    {input : Scan}
    (asked : (ParseTable.ofGrammar grammar).actionOn config.top config.lookahead =
      .ok (.shift target))
    (fetched : config.input.next = .ok (lookahead, input)) :
    ∃ id, Sound grammar actions scan
      ⟨target :: config.states,
        .token config.lookahead.text config.lookahead.start :: config.attributes,
        lookahead, input, config.logged (.ofGrammar grammar) (.shift target), config.steps + 1⟩
      (.token id :: symbols) (trees ++ [.leaf config.lookahead]) := by
  obtain ⟨state, below, items, id, states, holds, known, asks⟩ :=
    sound.asks wellFormed asked (by simp)
  cases asks with
  | shift item _ _ member next enters =>
      have linked := sound.linked
      obtain ⟨rest, unread, tokens⟩ := sound.unread
      have read := unread_of_next ⟨target :: config.states,
        .token config.lookahead.text config.lookahead.start :: config.attributes,
        lookahead, input, config.logged (.ofGrammar grammar) (.shift target), config.steps + 1⟩
        fetched rfl rfl
      refine ⟨id, ?_, ?_, ?_, ?_, ?_, read.2.trans sound.error⟩
      · have leads := Construction.goto_ne_nil_iff.mpr ⟨item, member, next⟩
        rw [states] at linked ⊢
        exact .push target state below _ symbols items linked holds leads enters
      · rw [List.reverse_cons]
        exact sound.parses.append (.leaf config.lookahead id [] [] known .nil)
      · exact sound.walk.append (.leaf _ [] _ _ _ _ (.nil _ _ _))
      · simp [logged, Translator.record, Event.move?, sound.moves]
      · cases unread with
        | ahead =>
            refine ⟨config.input.tokens, read.1, ?_⟩
            simpa using tokens
        | finished ends _ _ =>
            -- The end of input stands in no body, so it is never read.
            rw [ends, ParseTable.terminal?_endOfInput] at known
            cases known
            exact absurd (wellFormed.has_of_nextSymbol next) (Nat.lt_irrefl _)

theorem reduce (wellFormed : grammar.WellFormed)
    (sound : Sound grammar actions scan config symbols trees) {index target : Nat}
    {production : Production} {head : Attribute} {translator : Translator}
    (asked : (ParseTable.ofGrammar grammar).actionOn config.top config.lookahead =
      .ok (.reduce index))
    (found : grammar.construction.grammar.productions[index]? = some production)
    (ran : Reduction.run (actions.getD index .nothing) config.attributes config.lookahead.start
      (config.logged (.ofGrammar grammar) (.reduce index)) = .ok head translator)
    (enters : ParseTable.cell (ParseTable.ofGrammar grammar).tables.goto
      ((popAbove production.body.length config.states).headD 0) production.head =
        .ok (some target)) :
    ∃ earlier left right, symbols = production.body.reverse ++ earlier ∧ trees = left ++ right ∧
      Sound grammar actions scan
        ⟨target :: popAbove production.body.length config.states,
          head :: popAbove production.body.length config.attributes,
          config.lookahead, config.input, translator, config.steps + 1⟩
        (.nonterminal production.head :: earlier) (left ++ [.node index right]) := by
  obtain ⟨old, _, _, origin, under, origins, earlier, _, _, _, bottom, originHolds, _, popped, rfl⟩ :=
    sound.exists_reduced wellFormed asked found
  have parses := sound.parses
  rw [List.reverse_append, List.reverse_reverse] at parses
  obtain ⟨left, right, rfl, leftParses, rightParses⟩ := parses.split
  obtain ⟨middle, between, leftWalk, rightWalk⟩ := sound.walk.split
  have poppedAttributes : popAbove production.body.length config.attributes = middle := by
    obtain ⟨added, attributes, addedLength⟩ := rightWalk.exists_added
    obtain ⟨bottomAttributes, middle_eq, _⟩ := leftWalk.exists_added
    have count : added.length = production.body.length :=
      addedLength.trans rightParses.length_eq
    have above : production.body.length < config.attributes.length := by
      rw [attributes, middle_eq]
      simp only [List.length_append, List.length_singleton]
      omega
    rw [popAbove_eq_drop _ _ above, attributes, ← count, List.drop_left]
  obtain ⟨_, leads, reached⟩ := (Tables.goto_cell_iff wellFormed.proper.collection_complete originHolds).mp
    (by rw [popped] at enters; exact enters)
  refine ⟨earlier, left, right, rfl, rfl, ?_, ?_, ?_, ?_, sound.unread.imp ?_, sound.error⟩
  · change grammar.construction.Linked _ (target :: popAbove _ config.states) _
    rw [popped]
    exact .push target origin under _ earlier origins bottom originHolds leads reached
  · rw [List.reverse_cons]
    exact leftParses.append (.node _ production right [] [] old rightParses .nil)
  · change Walk _ _ _ _ (head :: popAbove _ config.attributes) translator
    rw [poppedAttributes]
    exact leftWalk.append (.node _ right [] middle config.attributes _ between _ translator _ _
      head (rightWalk.relogged _) ran (.nil _ translator translator.log))
  · have quiet := (Reduction.quiet_run _ _ _).movesOf_eq ran
    simp only [quiet, logged, Translator.record, movesOf_push, Event.move?, sound.moves,
      List.map_append, List.flatMap_append, List.map_cons, List.map_nil, List.flatMap_cons,
      List.flatMap_nil, Tree.map_node, Tree.moves_node, Option.toList_some, List.append_nil,
      List.append_assoc]
  · rintro rest ⟨unread, tokens⟩
    refine ⟨?_, ?_⟩
    · cases unread with
      | ahead => exact .ahead
      | finished ends empty clean => exact .finished ends empty clean
    · simpa using tokens

/-- One step keeps the invariant. -/
theorem of_moves (wellFormed : grammar.WellFormed) {next : Config}
    (sound : Sound grammar actions scan config symbols trees)
    (moves : Moves (.ofGrammar grammar) actions config next) :
    ∃ symbols trees, Sound grammar actions scan next symbols trees := by
  cases moves with
  | shift state lookahead input asked fetched =>
      obtain ⟨id, after⟩ := sound.shift wellFormed asked fetched
      exact ⟨_, _, after⟩
  | reduce index production head translator target asked found ran enters =>
      obtain ⟨earlier, left, right, _, _, after⟩ := sound.reduce wellFormed asked found ran enters
      exact ⟨_, _, after⟩

/-- A run keeps the invariant. -/
theorem of_reaches (wellFormed : grammar.WellFormed) {last : Config}
    (sound : Sound grammar actions scan config symbols trees)
    (reaches : Reaches (.ofGrammar grammar) actions config last) :
    ∃ symbols trees, Sound grammar actions scan last symbols trees := by
  apply reaches.keeps ?_ ⟨symbols, trees, sound⟩
  rintro config next ⟨symbols, trees, sound⟩ moves
  exact sound.of_moves wellFormed moves

/-- No more leaves are on the stack than the source has tokens. -/
theorem leaves_le (sound : Sound grammar actions scan config symbols trees) :
    (trees.flatMap Tree.leaves).length ≤ scan.tokens.length := by
  obtain ⟨rest, _, tokens⟩ := sound.unread
  rw [tokens, List.length_append]
  exact Nat.le_add_right _ _

/-- A run accepts with the start symbol alone on the stack, and the lookahead is read as the end of
input. -/
theorem of_accept (wellFormed : grammar.WellFormed)
    (sound : Sound grammar actions scan config symbols trees)
    (asked : (ParseTable.ofGrammar grammar).actionOn config.top config.lookahead = .ok .accept) :
    symbols = [.nonterminal grammar.start] ∧
      (ParseTable.ofGrammar grammar).terminal? config.lookahead = some grammar.tokens.length := by
  have complete := wellFormed.proper.collection_complete
  obtain ⟨state, below, items, id, states, holds, known, asks⟩ :=
    sound.asks wellFormed asked (by simp)
  cases asks with
  | accept item member ended outermost _ =>
      rw [wellFormed.acceptProduction_eq] at outermost
      have linked := sound.linked
      rw [states] at linked
      obtain ⟨origin, under, origins, earlier, bottom, originHolds, initial, _, rfl⟩ :=
        linked.exists_initial holds member
      rw [outermost] at initial
      have past := Item.nextSymbol_eq_none.mp ended
      rw [wellFormed.bottom_of_initial bottom originHolds initial, List.append_nil]
      rw [outermost, Grammar.WellFormed.bodyOf_last] at past ⊢
      rw [List.take_of_length_le past]
      exact ⟨rfl, known⟩

end Sound

end Config

/-- What acceptance amounts to: the tree that was read, its walk, and where reading stopped. -/
structure Accepts (grammar : Grammar) (actions : Array Semantic) (source : String)
    (outcome : Outcome) (compiled : Compiled) (tree : Tree Token) : Prop where
  parses : grammar.Parses (ParseTable.ofGrammar grammar).terminal? [.nonterminal grammar.start] [tree]
  moves : movesOf outcome.log = (tree.map Token.text).moves
  walk : ∃ attributes translator,
    Walk actions [tree] [.none] .first attributes translator ∧ compiled = translator.finish
  read : ((Scan.ofString source).tokens = tree.leaves ∧ (Scan.ofString source).error = none) ∨
    ∃ token rest, (Scan.ofString source).tokens = tree.leaves ++ token :: rest ∧
      (ParseTable.ofGrammar grammar).terminal? token = some grammar.tokens.length

/-- A run that accepts has one tree left. -/
theorem Config.Sound.accepts {grammar : Grammar} (wellFormed : grammar.WellFormed)
    {actions : Array Semantic} {source : String} {config : Config} {symbols : List Symbol}
    {trees : List (Tree Token)} {outcome : Outcome} {compiled : Compiled}
    (sound : Sound grammar actions (.ofString source) config symbols trees)
    (step : config.step (.ofGrammar grammar) actions = .halted outcome)
    (accepted : outcome.verdict = .accepted compiled) :
    ∃ tree, trees = [tree] ∧ Accepts grammar actions source outcome compiled tree := by
  obtain ⟨asked, rfl, log⟩ := Config.accepted_of_step step accepted
  obtain ⟨rfl, known⟩ := sound.of_accept wellFormed asked
  have parses := sound.parses
  obtain ⟨tree, rfl⟩ := List.length_eq_one_iff.mp parses.length_eq
  refine ⟨tree, rfl, parses, ?_, ⟨_, _, sound.walk, rfl⟩, ?_⟩
  · rw [log, sound.moves]
    simp
  · obtain ⟨rest, unread, tokens⟩ := sound.unread
    rw [List.flatMap_singleton] at tokens
    cases unread with
    | ahead => exact .inr ⟨_, _, tokens, known⟩
    | finished _ _ clean =>
        rw [List.append_nil] at tokens
        exact .inl ⟨tokens, sound.error.symm.trans clean⟩

theorem ParseTable.Halts.accepts {grammar : Grammar} (wellFormed : grammar.WellFormed)
    {actions : Array Semantic} {source : String} {outcome : Outcome} {compiled : Compiled}
    (halts : (ParseTable.ofGrammar grammar).Halts actions source outcome)
    (accepted : outcome.verdict = .accepted compiled) :
    ∃ tree, Accepts grammar actions source outcome compiled tree := by
  obtain ⟨lookahead, input, last, fetched, reaches, step⟩ := halts.reaches accepted
  obtain ⟨symbols, trees, sound⟩ :=
    (Config.Sound.first wellFormed fetched).of_reaches wellFormed reaches
  obtain ⟨tree, _, accepts⟩ := sound.accepts wellFormed step accepted
  exact ⟨tree, accepts⟩

namespace Accepts

variable {grammar : Grammar} {actions : Array Semantic} {source : String} {outcome : Outcome}
  {compiled : Compiled} {tree : Tree Token}

theorem lexemes (accepts : Accepts grammar actions source outcome compiled tree) :
    outcome.lexemes = tree.leaves.map Token.text := by
  rw [Outcome.lexemes, accepts.moves]
  simpa using accepts.parses.texts_moves Token.text

theorem reductions (accepts : Accepts grammar actions source outcome compiled tree) :
    outcome.reductions = tree.postorder := by
  rw [Outcome.reductions, accepts.moves]
  simpa using accepts.parses.productions_moves Token.text

/-- The log shows the tree. -/
theorem trees (accepts : Accepts grammar actions source outcome compiled tree) :
    outcome.trees (ParseTable.ofGrammar grammar).grammar = [tree.map Token.text] := by
  rw [Outcome.trees, accepts.moves]
  simpa using accepts.parses.construction.foldl_grow Token.text []

/-- The tokens that were read are the first ones of the source. -/
theorem tokens (accepts : Accepts grammar actions source outcome compiled tree) :
    ∃ rest, (Scan.ofString source).tokens = tree.leaves ++ rest := by
  rcases accepts.read with ⟨all, _⟩ | ⟨token, rest, front, _⟩
  · exact ⟨[], by rw [all, List.append_nil]⟩
  · exact ⟨token :: rest, front⟩

end Accepts

/-- If a run accepts, the terminals of the tokens it read are derived from the start symbol, and the
productions it reduced by are their rightmost derivation, read backwards. -/
theorem ParseTable.accepted_rightmost {description : Description} {grammar : Grammar}
    (built : description.build = .ok grammar) {actions : Array Semantic} {source : String}
    {outcome : Outcome} {compiled : Compiled}
    (halts : (ParseTable.ofGrammar grammar).Halts actions source outcome)
    (accepted : outcome.verdict = .accepted compiled) :
    ∃ (shifted unread : List Token) (word : List Nat),
      (Scan.ofString source).tokens = shifted ++ unread ∧
      outcome.lexemes = shifted.map Token.text ∧
      shifted.map (ParseTable.ofGrammar grammar).terminal? = word.map some ∧
      grammar.Derives [.nonterminal grammar.start] (word.map .token) ∧
      grammar.Rightmost [.nonterminal grammar.start] outcome.reductions.reverse
        (word.map .token) := by
  obtain ⟨tree, accepts⟩ := halts.accepts (Description.wellFormed_of_build built) accepted
  obtain ⟨unread, tokens⟩ := accepts.tokens
  obtain ⟨word, read, derivation⟩ := accepts.parses.rightmost
  rw [List.flatMap_singleton] at read derivation
  rw [← accepts.reductions] at derivation
  exact ⟨tree.leaves, unread, word, tokens, accepts.lexemes, read, .of_rightmost derivation,
    derivation⟩

/-- Lists of semicolons, which can be joined in any order. -/
def Description.joined : Description :=
  ((Description.addTokens {} [";"]).rule "list" ["list", "list"]).rule "list" [";"]

def Grammar.joined : Grammar :=
  ⟨[";"], ["list"], [⟨0, [.nonterminal 0, .nonterminal 0]⟩, ⟨0, [.token 0]⟩],
    ⟨[(0, [0, 1])]⟩, 0⟩

/-- The tables of joined lists have conflicts, but what they accept is derived all the same. -/
theorem ParseTable.accepted_rightmost_joined :
    (ParseTable.ofGrammar .joined).conflicts ≠ [] ∧
    ∃ outcome compiled, (ParseTable.ofGrammar .joined).Halts #[] ";;" outcome ∧
      outcome.verdict = .accepted compiled ∧ outcome.reductions = [1, 1, 0] ∧
      ∃ (shifted unread : List Token) (word : List Nat),
        (Scan.ofString ";;").tokens = shifted ++ unread ∧
        outcome.lexemes = shifted.map Token.text ∧
        shifted.map (ParseTable.ofGrammar .joined).terminal? = word.map some ∧
        Grammar.joined.Derives [.nonterminal Grammar.joined.start] (word.map .token) ∧
        Grammar.joined.Rightmost [.nonterminal Grammar.joined.start] outcome.reductions.reverse
          (word.map .token) := by
  have built : Description.joined.build = .ok .joined := by decide +kernel
  have halts : (ParseTable.ofGrammar .joined).Halts #[] ";;"
      ⟨.accepted ⟨#[], ⟨[], 1, 0⟩, #[]⟩,
        #[.step 1 [0] ";" ";" (.shift 1), .step 2 [1, 0] ";" ";" (.reduce 1),
          .step 3 [2, 0] ";" ";" (.shift 1), .step 4 [1, 2, 0] "" "$" (.reduce 1),
          .step 5 [3, 2, 0] "" "$" (.reduce 0), .step 6 [2, 0] "" "$" .accept, .accepted 6]⟩ :=
    ⟨6, by decide +kernel⟩
  exact ⟨by decide +kernel, _, _, halts, rfl, rfl, accepted_rightmost built halts rfl⟩

end ThreeAddress

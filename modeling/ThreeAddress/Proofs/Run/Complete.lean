import ThreeAddress.Proofs.Run.Sound

/-!
Completeness of the run over tables without conflicts: every syntax tree of the tokens of a source is
the one that the run builds, so there is at most one. The run over a tree is followed for any tables
that do what the items of the tree ask for.
-/

set_option autoImplicit false

namespace ThreeAddress

namespace Config

/-- The item stands in the state on top, with the tokens still to be read and no error behind them. -/
structure At (grammar : Grammar) (config : Config) (item : Item) (tokens : List Token) : Prop where
  holds : ∃ items, grammar.construction.collection.sets[config.top]? = some items ∧ item ∈ items
  unread : config.Unread tokens
  clean : config.input.error = none

variable {grammar : Grammar} {config : Config} {item : Item} {tokens : List Token}

theorem Unread.terminal? (unread : config.Unread tokens) (table : ParseTable) :
    table.terminal? config.lookahead = Grammar.firstRead table.terminal? table.eof tokens := by
  cases unread with
  | ahead => rfl
  | finished ends _ _ =>
      rw [ends]
      rfl

/-- The token after the dot of an item is read, and the item moves past it. -/
theorem At.shift {token : Token} {terminal target : Nat} {items : ItemSet}
    (stands : config.At grammar item (token :: tokens)) (member : item ∈ items)
    (next : item.nextSymbol grammar.construction.grammar = some (.token terminal))
    (known : (ParseTable.ofGrammar grammar).terminal? token = some terminal)
    (enters : grammar.construction.collection.sets[target]? =
      some (grammar.construction.goto items (.token terminal)))
    (entry : ParseTable.cell (ParseTable.ofGrammar grammar).tables.action config.top terminal =
      .ok (.shift target)) :
    ∃ after, Moves (.ofGrammar grammar) #[] config after ∧
      after.states = target :: config.states ∧ after.At grammar item.advance tokens ∧
      movesOf after.translator.log = movesOf config.translator.log ++ [.read token.text] := by
  obtain ⟨lookahead, input, fetched⟩ := config.input.exists_next stands.clean
  have ahead : config.lookahead = token ∧ config.input.tokens = tokens := by
    generalize all : token :: tokens = list at stands
    cases stands.unread with
    | ahead =>
        cases all
        exact ⟨rfl, rfl⟩
    | finished _ _ _ => cases all
  obtain ⟨rfl, rfl⟩ := ahead
  have asked : (ParseTable.ofGrammar grammar).actionOn config.top config.lookahead =
      .ok (.shift target) := by
    rw [ParseTable.actionOn, known]
    exact entry
  have read := unread_of_next ⟨target :: config.states,
    .token config.lookahead.text config.lookahead.start :: config.attributes,
    lookahead, input, config.logged (.ofGrammar grammar) (.shift target), config.steps + 1⟩
    fetched rfl rfl
  refine ⟨_, .shift target lookahead input asked fetched, rfl, ⟨⟨_, enters, ?_⟩, read.1, ?_⟩, ?_⟩
  · exact Construction.advance_mem_goto member next
  · exact read.2.trans stands.clean
  · simp [logged, Translator.record, Event.move?]

/-- A body on top of the stack is replaced by its head, over which the item below moves on. -/
theorem At.reduce (wellFormed : grammar.WellFormed) {index target : Nat} {production : Production}
    {pushed states : List Nat} {items : ItemSet}
    (old : grammar.productions[index]? = some production)
    (stands : config.At grammar item tokens)
    (next : Grammar.firstRead (ParseTable.ofGrammar grammar).terminal? grammar.tokens.length tokens =
      some item.lookahead)
    (entry : ParseTable.cell (ParseTable.ofGrammar grammar).tables.action config.top
      item.lookahead = .ok (.reduce index))
    (stack : config.states = pushed ++ states) (count : pushed.length = production.body.length)
    (bottom : states ≠ [])
    (below : grammar.construction.collection.sets[states.headD 0]? = some items) {outer : Item}
    (calls : outer ∈ items)
    (across : outer.nextSymbol grammar.construction.grammar = some (.nonterminal production.head))
    (enters : grammar.construction.collection.sets[target]? =
      some (grammar.construction.goto items (.nonterminal production.head))) :
    ∃ after, Moves (.ofGrammar grammar) #[] config after ∧
      after.states = target :: states ∧ after.At grammar outer.advance tokens ∧
      movesOf after.translator.log = movesOf config.translator.log ++ [.join index] := by
  have collected := wellFormed.proper.collection_complete
  have asked : (ParseTable.ofGrammar grammar).actionOn config.top config.lookahead =
      .ok (.reduce index) := by
    rw [ParseTable.actionOn, (stands.unread.terminal? _).trans next]
    exact entry
  have found := Grammar.construction_of_found old
  have popped : popAbove production.body.length config.states = states := by
    have longer : production.body.length < config.states.length := by
      have positive := List.length_pos_iff.mpr bottom
      rw [stack, List.length_append]
      omega
    rw [popAbove_eq_drop _ _ longer, stack, ← count, List.drop_left]
  have leads := Construction.goto_ne_nil_iff.mpr ⟨outer, calls, across⟩
  have headInside : production.head < grammar.construction.grammar.nonterminals.length :=
    wellFormed.construction_inRange.head_lt production (List.mem_of_getElem? found)
  have entry := (Tables.goto_cell_iff collected below).mpr ⟨headInside, leads, enters⟩
  refine ⟨_, .reduce index production .none (config.logged (.ofGrammar grammar) (.reduce index))
    target asked found ?_ ?_, ?_, ⟨⟨_, enters, ?_⟩, ?_, stands.clean⟩, ?_⟩
  · rfl
  · rw [popped]
    exact entry
  · change target :: popAbove _ config.states = _
    rw [popped]
  · exact Construction.advance_mem_goto calls across
  · cases stands.unread with
    | ahead => exact .ahead
    | finished ends empty noError => exact .finished ends empty noError
  · simp [logged, Translator.record, Event.move?]

end Config

/-- What keeps a run on the course of a tree. Guided by an item on top of the stack, with the trees of
what follows its dot and the tokens behind them, the table does what the item asks for, and the run is
still guided after each step. -/
structure Grammar.Guide (grammar : Grammar)
    (guided : List Nat → Item → List (Tree Token) → List Token → Prop) : Prop where
  shift : ∀ (states : List Nat) (items : ItemSet) (item : Item) (token : Token) (terminal : Nat)
    (trees : List (Tree Token)) (rest : List Token) (target : Nat),
    guided states item (.leaf token :: trees) rest →
    grammar.construction.collection.sets[states.headD 0]? = some items → item ∈ items →
    item.nextSymbol grammar.construction.grammar = some (.token terminal) →
    (ParseTable.ofGrammar grammar).terminal? token = some terminal →
    grammar.construction.collection.sets[target]? =
      some (grammar.construction.goto items (.token terminal)) →
    ParseTable.cell (ParseTable.ofGrammar grammar).tables.action (states.headD 0) terminal =
        .ok (.shift target) ∧
      guided (target :: states) item.advance trees rest
  call : ∀ (states : List Nat) (items : ItemSet) (item : Item) (index terminal : Nat)
    (production : Production) (children trees : List (Tree Token)) (rest : List Token),
    guided states item (.node index children :: trees) rest →
    grammar.construction.collection.sets[states.headD 0]? = some items → item ∈ items →
    grammar.productions[index]? = some production →
    item.nextSymbol grammar.construction.grammar = some (.nonterminal production.head) →
    Item.initial index terminal ∈ grammar.construction.closureStep item →
    guided states (.initial index terminal) children (trees.flatMap Tree.leaves ++ rest)
  pass : ∀ (states : List Nat) (items : ItemSet) (item : Item) (index id : Nat)
    (children trees : List (Tree Token)) (rest : List Token) (target : Nat),
    guided states item (.node index children :: trees) rest →
    grammar.construction.collection.sets[states.headD 0]? = some items → item ∈ items →
    item.nextSymbol grammar.construction.grammar = some (.nonterminal id) →
    grammar.construction.collection.sets[target]? =
      some (grammar.construction.goto items (.nonterminal id)) →
    guided (target :: states) item.advance trees rest
  reduce : ∀ (states : List Nat) (items : ItemSet) (item : Item) (production : Production)
    (rest : List Token),
    guided states item [] rest →
    grammar.construction.collection.sets[states.headD 0]? = some items → item ∈ items →
    item.nextSymbol grammar.construction.grammar = none →
    grammar.productions[item.production]? = some production →
    firstRead (ParseTable.ofGrammar grammar).terminal? grammar.tokens.length rest =
      some item.lookahead →
    ParseTable.cell (ParseTable.ofGrammar grammar).tables.action (states.headD 0) item.lookahead =
      .ok (.reduce item.production)
  accept : ∀ (states : List Nat) (items : ItemSet) (item : Item),
    guided states item [] [] →
    grammar.construction.collection.sets[states.headD 0]? = some items → item ∈ items →
    item.nextSymbol grammar.construction.grammar = none →
    item.production = grammar.productions.length →
    item.lookahead = grammar.tokens.length →
    ParseTable.cell (ParseTable.ofGrammar grammar).tables.action (states.headD 0) item.lookahead =
      .ok .accept

/-- Without conflicts every item is a guide. -/
theorem Grammar.WellFormed.guide {grammar : Grammar} (wellFormed : grammar.WellFormed)
    (clean : (ParseTable.ofGrammar grammar).conflicts = []) : grammar.Guide fun _ _ _ _ => True where
  shift := by
    intro states items item token terminal trees rest target _ holds member next _ enters
    exact ⟨wellFormed.shift_cell clean holds member next enters, trivial⟩
  call := by
    intros
    trivial
  pass := by
    intros
    trivial
  reduce := by
    intro states items item production rest _ holds member ended old _
    exact wellFormed.reduce_cell clean holds member ended old
  accept := by
    intro states items item _ holds member ended last _
    exact wellFormed.accept_cell clean holds member ended last

namespace Grammar.Parses

open Config

/-- The trees of what follows the dot of an item are read, and the item ends up complete. -/
theorem reaches {grammar : Grammar} (wellFormed : grammar.WellFormed)
    {guided : List Nat → Item → List (Tree Token) → List Token → Prop}
    (guide : grammar.Guide guided) {symbols : List Symbol} {trees : List (Tree Token)}
    (parsed : grammar.Parses (ParseTable.ofGrammar grammar).terminal? symbols trees)
    {config : Config} {item : Item} {rest : List Token}
    (stands : config.At grammar item (trees.flatMap Tree.leaves ++ rest))
    (course : guided config.states item trees rest)
    (remains : (grammar.construction.grammar.bodyOf item.production).drop item.dot = symbols)
    (next : firstRead (ParseTable.ofGrammar grammar).terminal? grammar.tokens.length rest =
      some item.lookahead)
    (bottom : config.states ≠ []) :
    ∃ last pushed, Reaches (.ofGrammar grammar) #[] config last ∧
      last.states = pushed ++ config.states ∧ pushed.length = symbols.length ∧
      last.At grammar ⟨item.production, item.dot + symbols.length, item.lookahead⟩ rest ∧
      guided last.states ⟨item.production, item.dot + symbols.length, item.lookahead⟩ [] rest ∧
      movesOf last.translator.log = movesOf config.translator.log ++
        (trees.map (Tree.map Token.text)).flatMap Tree.moves := by
  have collected := wellFormed.proper.collection_complete
  induction parsed generalizing config item rest with
  | nil => exact ⟨config, [], .refl config, rfl, rfl, stands, course, by simp⟩
  | leaf token terminal symbols trees read _ ih =>
      have ahead := Item.nextSymbol_eq_some.mpr ⟨symbols, remains⟩
      rw [List.flatMap_cons, Tree.leaves_leaf, List.append_assoc, List.singleton_append] at stands
      obtain ⟨items, holds, member⟩ := stands.holds
      have leads := Construction.goto_ne_nil_iff.mpr ⟨item, member, ahead⟩
      obtain ⟨target, enters⟩ := collected.exists_enters holds leads
      obtain ⟨entry, further⟩ := guide.shift _ items item token terminal trees rest target course
        holds member ahead read enters
      obtain ⟨after, moves, states, past, log⟩ :=
        stands.shift member ahead read enters entry
      obtain ⟨last, pushed, reaches, lastStates, count, ends, final, lastLog⟩ :=
        ih past (by rw [states]; exact further) (Item.drop_advance remains) next (by simp [states])
      refine ⟨last, pushed ++ [target], .step config after last moves reaches, ?_, ?_, ?_, ?_, ?_⟩
      · rw [lastStates, states, List.append_assoc, List.singleton_append]
      · rw [List.length_append, count, List.length_singleton, List.length_cons]
      · rw [List.length_cons, Nat.add_comm symbols.length, ← Nat.add_assoc]
        exact ends
      · rw [List.length_cons, Nat.add_comm symbols.length, ← Nat.add_assoc]
        exact final
      · rw [lastLog, log]
        simp
  | node index production children symbols trees found body parsedRest bodyIh ih =>
      have across := Item.nextSymbol_eq_some.mpr ⟨symbols, remains⟩
      obtain ⟨items, holds, member⟩ := stands.holds
      -- The production is called for with whatever is read first after its leaves.
      obtain ⟨terminal, after, follows⟩ :=
        parsedRest.construction.lookahead wellFormed.construction_inRange next
      have called : Item.initial index terminal ∈ grammar.construction.closureStep item := by
        refine Construction.mem_closureStep.mpr ⟨production.head, symbols, index, terminal, remains,
          ?_, follows, rfl⟩
        rw [wellFormed.construction_inRange.mem_productionsOf, construction_of_found found,
          Option.map_some]
      have inner : config.At grammar (.initial index terminal)
          (children.flatMap Tree.leaves ++ (trees.flatMap Tree.leaves ++ rest)) := by
        refine ⟨⟨items, holds, ?_⟩, ?_, stands.clean⟩
        · exact (collected.reachable_of holds).closed wellFormed.proper member called
        · simpa using stands.unread
      have whole := bodyOf_eq (construction_of_found found)
      obtain ⟨middle, pushed, inside, states, count, ended, innerCourse, log⟩ :=
        bodyIh inner (guide.call _ items item index terminal production children trees rest course
          holds member found across called) (by rw [Item.initial, List.drop_zero, whole]) after bottom
      have complete : (⟨index, 0 + production.body.length, terminal⟩ : Item).nextSymbol
          grammar.construction.grammar = none := by
        rw [Item.nextSymbol_eq_none, whole]
        exact Nat.le_of_eq (Nat.zero_add _).symm
      obtain ⟨endItems, endHolds, endMember⟩ := ended.holds
      have entry := guide.reduce _ endItems _ production _ innerCourse endHolds endMember complete
        found after
      have leads := Construction.goto_ne_nil_iff.mpr ⟨item, member, across⟩
      obtain ⟨target, enters⟩ := collected.exists_enters holds leads
      have further := guide.pass _ items item index production.head children trees rest target course
        holds member across enters
      obtain ⟨joined, moves, joinedStates, past, joinedLog⟩ :=
        At.reduce wellFormed found ended after entry states count bottom holds member across enters
      obtain ⟨last, later, reaches, lastStates, laterCount, ends, final, lastLog⟩ :=
        ih past (by rw [joinedStates]; exact further) (Item.drop_advance remains) next
          (by simp [joinedStates])
      refine ⟨last, later ++ [target], inside.trans (.step middle joined last moves reaches), ?_, ?_,
        ?_, ?_, ?_⟩
      · rw [lastStates, joinedStates, List.append_assoc, List.singleton_append]
      · rw [List.length_append, laterCount, List.length_singleton, List.length_cons]
      · rw [List.length_cons, Nat.add_comm symbols.length, ← Nat.add_assoc]
        exact ends
      · rw [List.length_cons, Nat.add_comm symbols.length, ← Nat.add_assoc]
        exact final
      · rw [lastLog, joinedLog, log]
        simp

/-- A run guided along a tree of the start symbol builds that tree and accepts. -/
theorem accepted_of_guide {grammar : Grammar} (wellFormed : grammar.WellFormed)
    {guided : List Nat → Item → List (Tree Token) → List Token → Prop}
    (guide : grammar.Guide guided) {tree : Tree Token}
    (parsed : grammar.Parses (ParseTable.ofGrammar grammar).terminal? [.nonterminal grammar.start]
      [tree])
    (course : guided [0] (.initial grammar.productions.length grammar.tokens.length) [tree] [])
    (scan : Scan) (noError : scan.error = none) (tokens : scan.tokens = tree.leaves) :
    ∃ lookahead input last outcome compiled, scan.next = .ok (lookahead, input) ∧
      Reaches (.ofGrammar grammar) #[] (.first lookahead input) last ∧
      last.step (.ofGrammar grammar) #[] = .halted outcome ∧
      outcome.verdict = .accepted compiled ∧
      movesOf outcome.log = (tree.map Token.text).moves := by
  have complete := wellFormed.proper.collection_complete
  obtain ⟨lookahead, input, fetched⟩ := scan.exists_next noError
  have read := unread_of_next (.first lookahead input) fetched rfl rfl
  have stands : (Config.first lookahead input).At grammar
      (.initial grammar.productions.length grammar.tokens.length)
      ([tree].flatMap Tree.leaves ++ []) := by
    refine ⟨⟨_, complete.start, ?_⟩, ?_, read.2.trans noError⟩
    · refine Construction.subset_closure (List.mem_singleton.mpr ?_)
      rw [wellFormed.acceptProduction_eq, construction_eof]
    · rw [List.flatMap_singleton, List.append_nil, ← tokens]
      exact read.1
  obtain ⟨last, pushed, reaches, _, _, ends, final, log⟩ :=
    parsed.reaches wellFormed guide stands course (WellFormed.bodyOf_last grammar) rfl
      (by simp [Config.first])
  obtain ⟨items, holds, member⟩ := ends.holds
  have entry := guide.accept _ items _ final holds member
    (Item.nextSymbol_eq_none.mpr (Nat.le_of_eq (congrArg _ (WellFormed.bodyOf_last grammar)))) rfl rfl
  have asked : (ParseTable.ofGrammar grammar).actionOn last.top last.lookahead = .ok .accept := by
    rw [ParseTable.actionOn, ends.unread.terminal?]
    exact entry
  obtain ⟨outcome, step, verdict, lastLog⟩ := step_of_accept #[] asked
  refine ⟨lookahead, input, last, outcome, _, fetched, reaches, step, verdict, ?_⟩
  rw [lastLog, log]
  simp [Config.first, Translator.first]

/-- Without conflicts, a run over the leaves of a tree of the start symbol builds that tree and
accepts. -/
theorem accepted {grammar : Grammar} (wellFormed : grammar.WellFormed)
    (clean : (ParseTable.ofGrammar grammar).conflicts = []) {tree : Tree Token}
    (parsed : grammar.Parses (ParseTable.ofGrammar grammar).terminal? [.nonterminal grammar.start]
      [tree])
    (scan : Scan) (noError : scan.error = none) (tokens : scan.tokens = tree.leaves) :
    ∃ lookahead input last outcome compiled, scan.next = .ok (lookahead, input) ∧
      Reaches (.ofGrammar grammar) #[] (.first lookahead input) last ∧
      last.step (.ofGrammar grammar) #[] = .halted outcome ∧
      outcome.verdict = .accepted compiled ∧
      movesOf outcome.log = (tree.map Token.text).moves :=
  parsed.accepted_of_guide wellFormed (wellFormed.guide clean) trivial scan noError tokens

end Grammar.Parses

namespace Grammar.WellFormed

variable {grammar : Grammar}

/-- The token that spells a terminal. -/
def spelled (grammar : Grammar) (id : Nat) : Token := ⟨.str, grammar.tokenName id, 0⟩

theorem terminal?_spelled {id : Nat} (named : grammar.token? (grammar.tokenName id) = some id) :
    (ParseTable.ofGrammar grammar).terminal? (spelled grammar id) = some id := by
  change (grammar.tokens ++ [_]).idxOf? (grammar.tokenName id) = some id
  have found : grammar.tokens.findIdx? (· == grammar.tokenName id) = some id := named
  rw [List.idxOf?, List.findIdx?_append, found, Option.some_or]

theorem named_of_parses (wellFormed : grammar.WellFormed) {tree : Tree Nat}
    (parsed : grammar.Parses some [.nonterminal grammar.start] [tree]) {id : Nat}
    (member : id ∈ tree.leaves) : grammar.token? (grammar.tokenName id) = some id := by
  obtain ⟨_, read, holds⟩ := parsed.read_of_mem wellFormed.named (by simp) id
    (by rw [List.flatMap_singleton]; exact member)
  cases read
  exact holds

/-- A tree of terminals is also a tree of the tokens that spell them. -/
theorem parses_spelled (wellFormed : grammar.WellFormed) {tree : Tree Nat}
    (parsed : grammar.Parses some [.nonterminal grammar.start] [tree]) :
    grammar.Parses (ParseTable.ofGrammar grammar).terminal? [.nonterminal grammar.start]
      [tree.map (spelled grammar)] := by
  refine parsed.map (spelled grammar) fun id member => ?_
  rw [List.flatMap_singleton] at member
  exact terminal?_spelled (wellFormed.named_of_parses parsed member)

/-- Without conflicts two trees with the same leaves are the same. -/
theorem unambiguous (wellFormed : grammar.WellFormed)
    (clean : (ParseTable.ofGrammar grammar).conflicts = []) {left right : Tree Nat}
    (leftParsed : grammar.Parses some [.nonterminal grammar.start] [left])
    (rightParsed : grammar.Parses some [.nonterminal grammar.start] [right])
    (same : left.leaves = right.leaves) : left = right := by
  -- Both trees are built by a run over the spelled leaves, and there is only one such run.
  have built : ∀ tree, grammar.Parses some [.nonterminal grammar.start] [tree] →
      tree.leaves = left.leaves → ∃ lookahead input last outcome compiled,
      Scan.next ⟨left.leaves.map (spelled grammar), none, 0⟩ = .ok (lookahead, input) ∧
      Config.Reaches (.ofGrammar grammar) #[] (.first lookahead input) last ∧
      last.step (.ofGrammar grammar) #[] = .halted outcome ∧
      outcome.verdict = .accepted compiled ∧
      movesOf outcome.log = (tree.map grammar.tokenName).moves := by
    intro tree parsed leaves
    have found := (wellFormed.parses_spelled parsed).accepted wellFormed clean
      ⟨left.leaves.map (spelled grammar), none, 0⟩ rfl (by rw [Tree.leaves_map, leaves])
    rw [Tree.map_map] at found
    exact found
  have rebuilt : ∀ tree, grammar.Parses some [.nonterminal grammar.start] [tree] →
      ((tree.map grammar.tokenName).moves.foldl (Move.grow grammar) []).map
        (Tree.map fun name => (grammar.token? name).getD 0) = [tree] := by
    intro tree parsed
    have grown := parsed.foldl_grow grammar.tokenName []
    simp only [List.map_singleton, List.flatMap_singleton, List.reverse_singleton,
      List.append_nil] at grown
    rw [grown, List.map_singleton, Tree.map_map, Tree.map_eq_self]
    intro id member
    rw [wellFormed.named_of_parses parsed member, Option.getD_some]
  obtain ⟨lookahead, input, last, outcome, _, fetched, reaches, step, _, log⟩ :=
    built left leftParsed rfl
  obtain ⟨otherLookahead, otherInput, otherLast, other, _, otherFetched, otherReaches, otherStep, _,
    otherLog⟩ := built right rightParsed same.symm
  rw [fetched] at otherFetched
  cases otherFetched
  have outcomes := reaches.halted_unique otherReaches step otherStep
  subst outcomes
  have trees := rebuilt left leftParsed
  rw [← log, otherLog, rebuilt right rightParsed] at trees
  cases trees
  rfl

end Grammar.WellFormed

/-- Over tables without conflicts, a source with a syntax tree is accepted, and the run reduces by
the productions of the tree in post-order. A word has no two syntax trees. -/
theorem ParseTable.complete_of_no_conflicts {description : Description} {grammar : Grammar}
    (built : description.build = .ok grammar)
    (clean : (ParseTable.ofGrammar grammar).conflicts = []) :
    (∀ (source : String) (word : List Nat), (Scan.ofString source).error = none →
      (Scan.ofString source).tokens.map (ParseTable.ofGrammar grammar).terminal? = word.map some →
      ∀ tree : Tree Nat, grammar.Parses some [.nonterminal grammar.start] [tree] →
        tree.leaves = word →
        ∃ outcome compiled, (ParseTable.ofGrammar grammar).Halts #[] source outcome ∧
          outcome.verdict = .accepted compiled ∧ outcome.reductions = tree.postorder ∧
          grammar.Rightmost [.nonterminal grammar.start] outcome.reductions.reverse
            (word.map .token)) ∧
    ∀ left right : Tree Nat, grammar.Parses some [.nonterminal grammar.start] [left] →
      grammar.Parses some [.nonterminal grammar.start] [right] → left.leaves = right.leaves →
      left = right := by
  have wellFormed := Description.wellFormed_of_build built
  refine ⟨?_, fun left right => wellFormed.unambiguous clean⟩
  rintro source _ noError read tree parsed rfl
  obtain ⟨others, parses, leaves, order⟩ := parsed.relabel
    (ParseTable.ofGrammar grammar).terminal? (by rw [List.flatMap_singleton]; exact read)
  obtain ⟨other, rfl⟩ := List.length_eq_one_iff.mp parses.length_eq
  rw [List.flatMap_singleton] at leaves
  rw [List.flatMap_singleton, List.flatMap_singleton] at order
  obtain ⟨lookahead, input, last, outcome, compiled, fetched, reaches, step, verdict, log⟩ :=
    parses.accepted wellFormed clean (.ofString source) noError leaves.symm
  have reductions : outcome.reductions = tree.postorder := by
    rw [Outcome.reductions, log, ← order]
    simpa using parses.productions_moves Token.text
  refine ⟨outcome, compiled, halts_of_reaches fetched reaches step, verdict, reductions, ?_⟩
  obtain ⟨word, same, derivation⟩ := parsed.rightmost
  rw [List.flatMap_singleton] at same derivation
  rw [reductions, List.map_injective_iff.mpr (Option.some_injective _) same]
  exact derivation

/-- Lists of semicolons that grow at the end. -/
def Description.chained : Description :=
  ((Description.addTokens {} [";"]).rule "list" [";", "list"]).rule "list" []

def Grammar.chained : Grammar :=
  ⟨[";"], ["list"], [⟨0, [.token 0, .nonterminal 0]⟩, ⟨0, []⟩], ⟨[(0, [0, 1])]⟩, 0⟩

theorem ParseTable.complete_of_no_conflicts_chained :
    (∃ outcome compiled, (ParseTable.ofGrammar .chained).Halts #[] ";;" outcome ∧
      outcome.verdict = .accepted compiled ∧ outcome.reductions = [1, 0, 0] ∧
      Grammar.chained.Rightmost [.nonterminal Grammar.chained.start] outcome.reductions.reverse
        [.token 0, .token 0]) ∧
    ∀ left right : Tree Nat, Grammar.chained.Parses some [.nonterminal 0] [left] →
      Grammar.chained.Parses some [.nonterminal 0] [right] → left.leaves = right.leaves →
      left = right := by
  have built : Description.chained.build = .ok .chained := by decide +kernel
  have complete := complete_of_no_conflicts built (by decide +kernel)
  have ending : Grammar.chained.Parses some [.nonterminal 0] [.node 1 []] :=
    .node 1 ⟨0, []⟩ [] [] [] rfl .nil .nil
  have once : Grammar.chained.Parses some [.nonterminal 0] [.node 0 [.leaf 0, .node 1 []]] :=
    .node 0 ⟨0, [.token 0, .nonterminal 0]⟩ _ [] [] rfl (.leaf 0 0 _ _ rfl ending) .nil
  have twice : Grammar.chained.Parses some [.nonterminal 0]
      [.node 0 [.leaf 0, .node 0 [.leaf 0, .node 1 []]]] :=
    .node 0 ⟨0, [.token 0, .nonterminal 0]⟩ _ [] [] rfl (.leaf 0 0 _ _ rfl once) .nil
  exact ⟨complete.1 ";;" [0, 0] (by decide +kernel) (by decide +kernel) _ twice rfl, complete.2⟩

end ThreeAddress

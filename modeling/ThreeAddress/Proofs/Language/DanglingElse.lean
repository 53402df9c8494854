import ThreeAddress.Proofs.Language.Defer
import ThreeAddress.Proofs.Language.Plain
import ThreeAddress.Proofs.Run.Complete

/-!
Which sources the tables of the language accept, although they have conflicts: those with a tree in
which no conditional in then-tail position has an `else`. An `else` thus belongs to the outermost
conditional that can still take it. Such a tree, once it is plain, is followed by the run step by
step.
-/

set_option autoImplicit false

namespace ThreeAddress

namespace Language

/-- The stack does not wait for a number and a semicolon where these come next. -/
def Untempted (states : List Nat) (tokens : List Token) : Prop :=
  ∀ past ahead, grammar.Stands states ⟨12, past + 2, ahead⟩ →
    ¬[some 9, some 2].drop past <+: tokens.map (ParseTable.ofGrammar grammar).terminal?

section Untempted

variable {target past ahead id : Nat} {states : List Nat} {symbol : Symbol} {token : Token}
  {tokens : List Token}

theorem number_before (entered : grammar.Entered target states symbol)
    (stands : grammar.Stands (target :: states) ⟨12, past + 2, ahead⟩) :
    grammar.Stands states ⟨12, past + 1, ahead⟩ ∧
      [.token 7, .token 9, .token 2][past]? = some symbol := by
  obtain ⟨under, next⟩ := entered.before stands
  rw [statement_body 3 rfl] at next
  exact ⟨under, next⟩

theorem untempted_of_nonterminal (entered : grammar.Entered target states (.nonterminal id)) :
    Untempted (target :: states) tokens := by
  intro past ahead stands
  have listed := List.mem_of_getElem? (number_before entered stands).2
  simp at listed

theorem Untempted.shift (before : Untempted states (token :: tokens))
    (entered : grammar.Entered target states (.token id))
    (read : (ParseTable.ofGrammar grammar).terminal? token = some id)
    (value : id = 7 → ¬[some 9, some 2] <+: tokens.map (ParseTable.ofGrammar grammar).terminal?) :
    Untempted (target :: states) tokens := by
  intro past ahead stands waits
  obtain ⟨under, next⟩ := number_before entered stands
  -- Unless the equals sign was read, what the stack waits for now it waited for before.
  match past with
  | 0 =>
      cases next
      exact value rfl waits
  | 1 =>
      cases next
      refine before 0 ahead under ?_
      rw [List.map_cons, read]
      exact List.cons_prefix_cons.mpr ⟨rfl, waits⟩
  | 2 =>
      cases next
      refine before 1 ahead under ?_
      rw [List.map_cons, read]
      exact List.cons_prefix_cons.mpr ⟨rfl, waits⟩
  | past + 3 => cases next

end Untempted

/-- An expression that is no number alone does not begin with a number and a semicolon. -/
theorem not_prefix_of_expression {trees : List (Tree Token)} {rest : List Token}
    (parsed : grammar.Parses (ParseTable.ofGrammar grammar).terminal? [.nonterminal 10, .token 2]
      trees)
    (value : ∀ tree, trees[0]? = some tree → ¬IsNumber tree) :
    ¬[some 9, some 2] <+:
      (trees.flatMap Tree.leaves ++ rest).map (ParseTable.ofGrammar grammar).terminal? := by
  obtain ⟨index, production, children, _, rfl, found, head, body, last⟩ := parsed.exists_node
  obtain ⟨semicolon, _, rfl, readSemicolon, ends⟩ := last.exists_leaf
  cases ends
  have alone : ¬IsNumber (.node index children) := value _ rfl
  have kept : ∀ token ∈ children.flatMap Tree.leaves, ∃ id,
      (ParseTable.ofGrammar grammar).terminal? token = some id ∧ InExpression (.token id) := by
    refine body.kept_of_mem inExpression_of_head ?_
    refine inExpression_of_head production (List.mem_of_getElem? found) ?_
    rw [head]
    decide
  intro begins
  rw [IsNumber, Tree.leaves_node] at alone
  simp only [List.flatMap_cons, Tree.leaves_node, Tree.leaves_leaf, List.flatMap_nil,
    List.append_nil, List.append_assoc, List.map_append, List.map_cons, readSemicolon] at begins
  generalize children.flatMap Tree.leaves = leaves at alone kept begins
  match leaves with
  | [] => cases (List.cons_prefix_cons.mp begins).1
  | [token] =>
      refine alone ?_
      rw [List.map_singleton, ← (List.cons_prefix_cons.mp begins).1]
  | _ :: token :: _ =>
      have second := (List.cons_prefix_cons.mp (List.cons_prefix_cons.mp begins).2).1
      obtain ⟨id, read, inside⟩ := kept token (List.mem_cons_of_mem _ List.mem_cons_self)
      rw [read] at second
      cases second
      exact inside rfl

/-- The run is on the course of trees without an `else` in then-tail position, and no other course
that comes first leads from here. -/
structure Guided (states : List Nat) (item : Item) (trees : List (Tree Token)) (rest : List Token) :
    Prop where
  stands : grammar.Stands states item
  parsed : grammar.Parses (ParseTable.ofGrammar grammar).terminal?
    ((grammar.construction.grammar.bodyOf item.production).drop item.dot) trees
  short : ∃ tail, Agrees (states.drop item.dot) item.production tail ∧
    (tail = true → item.production ≠ 14) ∧
    Tree.noElseInTailFrom ruleActions (ruleActions.getD item.production .nothing) tail item.dot
      trees = true
  plain : Plain trees
  -- An expression to be assigned is more than a number, so production 12 does not fit it.
  value : item.production = 11 → item.dot ≤ 2 → ∀ tree, trees[2 - item.dot]? = some tree →
    ¬IsNumber tree
  apart : (item.production = 12 ∧ 2 ≤ item.dot) ∨
    Untempted states (trees.flatMap Tree.leaves ++ rest)

namespace Guided

variable {states : List Nat} {items : ItemSet} {item : Item} {tree : Tree Token}
  {trees children : List (Tree Token)} {token : Token} {rest : List Token} {symbol : Symbol}
  {index id target : Nat} {production : Production}

/-- A tree is passed, if the run is not led astray by it. -/
theorem advance (guided : Guided states item (tree :: trees) rest)
    (entered : grammar.Entered target states symbol)
    (next : item.nextSymbol grammar.construction.grammar = some symbol)
    (apart : (item.production = 12 ∧ 2 ≤ item.dot + 1) ∨
      Untempted (target :: states) (trees.flatMap Tree.leaves ++ rest)) :
    Guided (target :: states) item.advance trees rest where
  stands := entered.after guided.stands next
  parsed := by
    obtain ⟨symbols, remains⟩ := Item.nextSymbol_eq_some.mp next
    have parsed := guided.parsed
    rw [remains] at parsed
    rw [Item.drop_advance remains]
    exact parsed.tail
  short := by
    obtain ⟨tail, agrees, short, allowed⟩ := guided.short
    exact ⟨tail, agrees, short, (Tree.noElseInTailFrom_cons.mp allowed).2⟩
  plain := by
    cases guided.plain with
    | leaf _ _ later => exact later
    | node _ _ _ _ _ later => exact later
  value := by
    intro same bound tree found
    have bound : item.dot + 1 ≤ 2 := bound
    refine guided.value same (by omega) tree ?_
    rw [show 2 - item.dot = 2 - (item.dot + 1) + 1 by omega, List.getElem?_cons_succ]
    exact found
  apart := apart

theorem pass (guided : Guided states item (tree :: trees) rest)
    (entered : grammar.Entered target states (.nonterminal id))
    (next : item.nextSymbol grammar.construction.grammar = some (.nonterminal id)) :
    Guided (target :: states) item.advance trees rest :=
  guided.advance entered next (.inr (untempted_of_nonterminal entered))

theorem shift (guided : Guided states item (.leaf token :: trees) rest)
    (entered : grammar.Entered target states (.token id))
    (next : item.nextSymbol grammar.construction.grammar = some (.token id))
    (read : (ParseTable.ofGrammar grammar).terminal? token = some id) :
    Guided (target :: states) item.advance trees rest := by
  refine guided.advance entered next ?_
  by_cases number : item.production = 12 ∧ 2 ≤ item.dot + 1
  · exact .inl number
  · refine .inr ?_
    have before : Untempted states (token :: (trees.flatMap Tree.leaves ++ rest)) := by
      rcases guided.apart with ⟨same, later⟩ | before
      · exact absurd ⟨same, Nat.le_succ_of_le later⟩ number
      · exact before
    refine before.shift entered read ?_
    rintro rfl
    have place : item.core ∈ _ := mem_equalsPlaces next
    obtain ⟨production, dot, ahead⟩ := item
    simp only [Item.core, List.mem_cons, Core.mk.injEq, List.not_mem_nil, or_false] at place
    rcases place with ⟨rfl, rfl⟩ | ⟨rfl, rfl⟩
    · have parsed := guided.parsed
      rw [statement_body 2 rfl] at parsed
      exact not_prefix_of_expression parsed.tail (guided.value rfl (Nat.le_succ 1))
    · exact absurd ⟨rfl, Nat.le_refl 2⟩ number

/-- The tree of a nonterminal is begun. -/
theorem call {terminal : Nat} (guided : Guided states item (.node index children :: trees) rest)
    (found : grammar.productions[index]? = some production)
    (next : item.nextSymbol grammar.construction.grammar = some (.nonterminal production.head))
    (called : Item.initial index terminal ∈ grammar.construction.closureStep item) :
    Guided states (.initial index terminal) children (trees.flatMap Tree.leaves ++ rest) where
  stands := guided.stands.called wellFormed called
  parsed := by
    obtain ⟨symbols, remains⟩ := Item.nextSymbol_eq_some.mp next
    have parsed := guided.parsed
    rw [remains] at parsed
    obtain ⟨_, _, _, _, same, root, _, body, _⟩ := parsed.exists_node
    cases same
    rw [Item.initial, List.drop_zero, Grammar.bodyOf_eq (Grammar.construction_of_found root)]
    exact body
  short := by
    obtain ⟨tail, agrees, _, allowed⟩ := guided.short
    obtain ⟨short, inside⟩ :=
      Tree.noElseInTail_node.mp (Tree.noElseInTailFrom_cons.mp allowed).1
    refine ⟨_, agrees.called guided.stands found next, ?_, inside⟩
    rintro opened rfl
    exact short opened rfl
  plain := by
    cases guided.plain with
    | node _ _ _ _ inside _ => exact inside
  value := by
    intro same _
    cases guided.plain with
    | node _ _ _ value _ _ => exact value same
  apart := by
    refine .inr ?_
    rcases guided.apart with ⟨same, later⟩ | before
    · -- Past the equals sign an assignment of a number has no more nonterminals.
      obtain ⟨past, dot⟩ := Nat.exists_eq_add_of_le' later
      rw [Item.nextSymbol, same, dot, statement_body 3 rfl] at next
      have listed : Symbol.nonterminal production.head ∈ [.token 9, .token 2] :=
        List.mem_of_getElem? next
      simp at listed
    · simpa using before

theorem shift_cell (guided : Guided states item trees rest)
    (holds : grammar.construction.collection.sets[states.headD 0]? = some items)
    (next : item.nextSymbol grammar.construction.grammar = some (.token id))
    (enters : grammar.construction.collection.sets[target]? =
      some (grammar.construction.goto items (.token id))) :
    ParseTable.cell (ParseTable.ofGrammar grammar).tables.action (states.headD 0) id =
      .ok (.shift target) := by
  rcases cell_of_wish? guided.stands holds (wellFormed.token_lt next)
    (Construction.wish?_of_token next) (.shift target enters) with kept | ⟨ends, _⟩ | ⟨conditional, ended⟩
  · exact kept
  · rw [next] at ends
    cases ends
  · obtain ⟨production, dot, ahead⟩ := item
    cases conditional
    obtain ⟨tail, agrees, short, _⟩ := guided.short
    have opens : Opens (states.drop 6) := ended.fall
    have opened := (agrees (congrArg (Option.map Production.head) (statement_found 5 rfl))).mpr opens
    exact absurd rfl (short opened)

theorem reduce_cell (guided : Guided states item [] rest)
    (holds : grammar.construction.collection.sets[states.headD 0]? = some items)
    (ends : item.nextSymbol grammar.construction.grammar = none)
    (found : grammar.productions[item.production]? = some production)
    (follows : Grammar.firstRead (ParseTable.ofGrammar grammar).terminal? grammar.tokens.length rest =
      some item.lookahead) :
    ParseTable.cell (ParseTable.ofGrammar grammar).tables.action (states.headD 0) item.lookahead =
      .ok (.reduce item.production) := by
  have bound : item.production < grammar.productions.length :=
    (List.getElem?_eq_some_iff.mp found).1
  have inner : item.production ≠ grammar.construction.acceptProduction := by
    rw [wellFormed.acceptProduction_eq]
    exact Nat.ne_of_lt bound
  rcases cell_of_wish? guided.stands holds (guided.stands.lookahead_lt wellFormed)
    (Construction.wish?_of_ended ends inner) (.reduce item.production) with
    kept | ⟨_, factor, semicolon, ahead, waits⟩ | ⟨conditional, _⟩
  · exact kept
  · exfalso
    rw [semicolon] at follows
    rcases guided.apart with ⟨same, _⟩ | untempted
    · rw [show item.production = 45 from congrArg Core.production factor] at same
      cases same
    · refine untempted 1 ahead waits ?_
      cases rest with
      | nil =>
          rw [Grammar.firstRead, tokens_of_build description_build] at follows
          cases follows
      | cons token rest =>
          have read : (ParseTable.ofGrammar grammar).terminal? token = some 2 := follows
          rw [List.flatMap_nil, List.nil_append, List.map_cons, read]
          exact List.cons_prefix_cons.mpr ⟨rfl, List.nil_prefix⟩
  · obtain ⟨production, dot, ahead⟩ := item
    cases conditional
    rw [Item.nextSymbol, statement_body 5 rfl] at ends
    cases ends

theorem accept_cell (guided : Guided states item [] [])
    (holds : grammar.construction.collection.sets[states.headD 0]? = some items)
    (ends : item.nextSymbol grammar.construction.grammar = none)
    (last : item.production = grammar.productions.length)
    (ahead : item.lookahead = grammar.tokens.length) :
    ParseTable.cell (ParseTable.ofGrammar grammar).tables.action (states.headD 0) item.lookahead =
      .ok .accept := by
  have number : item.production = 54 := last.trans productions_length
  rcases cell_of_wish? guided.stands holds (guided.stands.lookahead_lt wellFormed)
    (Construction.wish?_of_outermost ends (last.trans wellFormed.acceptProduction_eq.symm) ahead)
    .accept with kept | ⟨_, factor, _⟩ | ⟨conditional, _⟩
  · exact kept
  · cases number.symm.trans (congrArg Core.production factor)
  · cases number.symm.trans (congrArg Core.production conditional)

end Guided

/-- The tables keep the run on its course. -/
theorem guide : grammar.Guide Guided where
  shift := by
    intro states items item token terminal trees rest target guided holds member next read enters
    have entered := guided.stands.enters holds member next enters
    exact ⟨guided.shift_cell holds next enters, guided.shift entered next read⟩
  call := by
    intro states items item index terminal production children trees rest guided _ _ found next called
    exact guided.call found next called
  pass := by
    intro states items item index id children trees rest target guided holds member next enters
    exact guided.pass (guided.stands.enters holds member next enters) next
  reduce := by
    intro states items item production rest guided holds _ ends found follows
    exact guided.reduce_cell holds ends found follows
  accept := by
    intro states items item guided holds _ ends last ahead
    exact guided.accept_cell holds ends last ahead

section Source

variable {tree : Tree Token} {source : String} {outcome : Outcome} {compiled : Compiled}

theorem guided_first
    (parsed : grammar.Parses (ParseTable.ofGrammar grammar).terminal? [.nonterminal grammar.start]
      [tree])
    (plain : Plain [tree]) (allowed : tree.noElseInTail ruleActions false = true) :
    Guided [0] (.initial grammar.productions.length grammar.tokens.length) [tree] [] where
  stands := by
    have complete := wellFormed.proper.collection_complete
    refine ⟨⟨[], .bottom complete.start⟩, _, complete.start,
      Construction.subset_closure (List.mem_singleton.mpr ?_)⟩
    rw [wellFormed.acceptProduction_eq, Grammar.construction_eof]
  parsed := by
    rw [Item.initial, List.drop_zero, Grammar.WellFormed.bodyOf_last]
    exact parsed
  short := by
    refine ⟨false, ?_, ?_, ?_⟩
    · intro statement
      rw [Item.initial, List.getElem?_eq_none (Nat.le_refl _)] at statement
      cases statement
    · intro impossible
      cases impossible
    · rw [Item.initial, productions_length]
      exact Tree.noElseInTailFrom_cons.mpr ⟨allowed, rfl⟩
  plain := plain
  value := by
    intro same
    rw [Item.initial, productions_length] at same
    cases same
  apart := by
    refine .inr fun past ahead stands => ?_
    obtain ⟨_, _, _, stack, symbols, linked⟩ := stands.exists_entered
    cases stack
    cases linked

/-- A source with a tree without an `else` in then-tail position is accepted. -/
theorem exists_accepted (noError : (Scan.ofString source).error = none)
    (parsed : grammar.Parses (ParseTable.ofGrammar grammar).terminal? [.nonterminal grammar.start]
      [tree])
    (leaves : tree.leaves = (Scan.ofString source).tokens)
    (allowed : tree.noElseInTail ruleActions false = true) :
    ∃ outcome compiled, (ParseTable.ofGrammar grammar).Halts #[] source outcome ∧
      outcome.verdict = .accepted compiled := by
  obtain ⟨others, parses, sameLeaves, plain, kept⟩ := exists_plain parsed
  obtain ⟨other, rfl⟩ := List.length_eq_one_iff.mp parses.length_eq
  have otherLeaves : other.leaves = tree.leaves := by simpa using sameLeaves
  have otherAllowed : other.noElseInTail ruleActions false = true :=
    (Tree.noElseInTailFrom_cons.mp
      (kept .nothing false 0 (Tree.noElseInTailFrom_cons.mpr ⟨allowed, rfl⟩))).1
  obtain ⟨lookahead, input, last, outcome, compiled, fetched, reaches, step, verdict, _⟩ :=
    parses.accepted_of_guide wellFormed guide (guided_first parses plain otherAllowed)
      (.ofString source) noError (leaves.symm.trans otherLeaves.symm)
  exact ⟨outcome, compiled, ParseTable.halts_of_reaches fetched reaches step, verdict⟩

/-- The tree of a run that accepts has the tokens of the source, and no `else` in then-tail
position. -/
theorem exists_tree (noEnd : ∀ token ∈ (Scan.ofString source).tokens, ¬token.SpellsEnd)
    (halts : (ParseTable.ofGrammar grammar).Halts #[] source outcome)
    (accepted : outcome.verdict = .accepted compiled) :
    ∃ tree : Tree Token,
      grammar.Parses (ParseTable.ofGrammar grammar).terminal? [.nonterminal grammar.start] [tree] ∧
      tree.leaves = (Scan.ofString source).tokens ∧
      tree.noElseInTail ruleActions false = true ∧ outcome.reductions = tree.postorder ∧
      outcome.trees (ParseTable.ofGrammar grammar).grammar = [tree.map Token.text] := by
  obtain ⟨tree, accepts, allowed⟩ := noElseInTail_of_halts halts accepted
  refine ⟨tree, accepts.parses, ?_, allowed, accepts.reductions, accepts.trees⟩
  rcases accepts.read with ⟨all, _⟩ | ⟨token, rest, tokens, known⟩
  · exact all.symm
  · have member : token ∈ (Scan.ofString source).tokens := by
      rw [tokens]
      exact List.mem_append_right _ List.mem_cons_self
    have spells := Scan.spells_of_mem_ofString member
    exact absurd ((terminal?_eq_eof_iff description_build spells).mp known) (noEnd token member)

end Source

/-- A source that lexes without an error, and has no string literal that spells the end of input, is
accepted exactly if its tokens have a tree in which no conditional in then-tail position has an
`else`. The tree that the run builds is such a tree. -/
theorem accepted_iff_noElseInTail {language : Language} (built : build = .ok language)
    {source : String} (noError : (Scan.ofString source).error = none)
    (noEnd : ∀ token ∈ (Scan.ofString source).tokens, ¬token.SpellsEnd) :
    ∃ grammar : Grammar, description.build = .ok grammar ∧
      ((∃ outcome compiled, language.table.Halts #[] source outcome ∧
          outcome.verdict = .accepted compiled) ↔
        ∃ tree : Tree Token,
          grammar.Parses language.table.terminal? [.nonterminal grammar.start] [tree] ∧
          tree.leaves = (Scan.ofString source).tokens ∧
          tree.noElseInTail language.actions false = true) ∧
      ∀ outcome compiled, language.table.Halts #[] source outcome →
        outcome.verdict = .accepted compiled →
        ∃ tree : Tree Token,
          grammar.Parses language.table.terminal? [.nonterminal grammar.start] [tree] ∧
          tree.leaves = (Scan.ofString source).tokens ∧
          tree.noElseInTail language.actions false = true ∧ outcome.reductions = tree.postorder ∧
          outcome.trees language.table.grammar = [tree.map Token.text] := by
  rw [build_eq] at built
  cases built
  refine ⟨grammar, description_build, ⟨?_, ?_⟩, ?_⟩
  · rintro ⟨outcome, compiled, halts, accepted⟩
    obtain ⟨tree, parsed, leaves, allowed, _⟩ := exists_tree noEnd halts accepted
    exact ⟨tree, parsed, leaves, allowed⟩
  · rintro ⟨tree, parsed, leaves, allowed⟩
    exact exists_accepted noError parsed leaves allowed
  · intro outcome compiled halts accepted
    exact exists_tree noEnd halts accepted

/-- A conditional within a conditional, and one `else`. -/
theorem accepted_iff_noElseInTail_nested :
    (Scan.ofString "\x7b if (true) if (true) break; else break; \x7d").error = none ∧
    (∀ token ∈ (Scan.ofString "\x7b if (true) if (true) break; else break; \x7d").tokens,
      ¬token.SpellsEnd) ∧
    ∃ language outcome compiled, build = .ok language ∧
      language.table.Halts #[] "\x7b if (true) if (true) break; else break; \x7d" outcome ∧
      outcome.verdict = .accepted compiled ∧
      ∃ (grammar : Grammar) (tree : Tree Token), description.build = .ok grammar ∧
        grammar.Parses language.table.terminal? [.nonterminal grammar.start] [tree] ∧
        tree.leaves =
          (Scan.ofString "\x7b if (true) if (true) break; else break; \x7d").tokens ∧
        tree.noElseInTail language.actions false = true ∧ outcome.reductions = tree.postorder ∧
        outcome.trees language.table.grammar = [tree.map Token.text] := by
  have ran : Direct.compile? construction (ParseTable.ofGrammar grammar).terminal? #[] 70
      "\x7b if (true) if (true) break; else break; \x7d" = some ⟨#[], ⟨[], 1, 0⟩, #[]⟩ := by
    decide +kernel
  rw [← construction_eq] at ran
  obtain ⟨outcome, halts, accepted⟩ := Direct.halts_of_compile? wellFormed ran
  have scanned : (Scan.ofString "\x7b if (true) if (true) break; else break; \x7d").error = none ∧
      ∀ token ∈ (Scan.ofString "\x7b if (true) if (true) break; else break; \x7d").tokens,
        ¬token.SpellsEnd := by
    decide +kernel
  obtain ⟨grammar, described, _, built⟩ :=
    accepted_iff_noElseInTail build_eq scanned.1 scanned.2
  obtain ⟨tree, shown⟩ := built outcome _ halts accepted
  exact ⟨scanned.1, scanned.2, _, outcome, _, build_eq, halts, accepted, grammar, tree, described,
    shown⟩

end Language

end ThreeAddress

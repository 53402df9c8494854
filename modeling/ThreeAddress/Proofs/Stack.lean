import ThreeAddress.Proofs.Table

/-!
Stacks of states. Every state above the bottom is entered over a symbol from the one below it, so an
item of the top state tells which symbols were read last.
-/

set_option autoImplicit false

namespace ThreeAddress

/-- The states, from the top, were entered one after the other over the symbols, from the last. -/
inductive Construction.Linked (construction : Construction) (sets : Array ItemSet) :
    List Nat → List Symbol → Prop where
  | bottom (start : sets[0]? = some construction.startItems) : Linked construction sets [0] []
  | push (target state : Nat) (states : List Nat) (symbol : Symbol) (symbols : List Symbol)
      (items : ItemSet) (below : Linked construction sets (state :: states) symbols)
      (holds : sets[state]? = some items) (leads : construction.goto items symbol ≠ [])
      (enters : sets[target]? = some (construction.goto items symbol)) :
      Linked construction sets (target :: state :: states) (symbol :: symbols)

namespace Construction

variable {construction : Construction} {sets : Array ItemSet} {states : List Nat}
  {symbols : List Symbol}

theorem dot_of_mem_startItems {item : Item} (member : item ∈ construction.startItems) :
    item.dot = 0 := by
  rcases dot_eq_zero_of_mem_closure member with given | atStart
  · rw [List.mem_singleton.mp given]
    rfl
  · exact atStart

namespace Linked

theorem length_eq (linked : construction.Linked sets states symbols) :
    states.length = symbols.length + 1 := by
  induction linked with
  | bottom _ => rfl
  | push _ _ _ _ _ _ _ _ _ _ ih => simp only [List.length_cons, ih]

theorem exists_top (linked : construction.Linked sets states symbols) :
    ∃ state below items, states = state :: below ∧ sets[state]? = some items := by
  cases linked with
  | bottom start => exact ⟨0, [], _, rfl, start⟩
  | push target state states symbol symbols items _ _ _ enters => exact ⟨target, _, _, rfl, enters⟩

/-- The bottom is never reached by popping what was read. -/
theorem popAbove_eq {body earlier : List Symbol}
    (linked : construction.Linked sets states (body.reverse ++ earlier)) :
    popAbove body.length states = states.drop body.length := by
  have length := linked.length_eq
  rw [List.length_append, List.length_reverse] at length
  exact popAbove_eq_drop _ _ (by omega)

/-- Under the part of a body that an item is past stands a state with that item at its beginning. -/
theorem exists_initial {state : Nat} {items : ItemSet} {item : Item}
    (linked : construction.Linked sets (state :: states) symbols)
    (holds : sets[state]? = some items) (member : item ∈ items) :
    ∃ origin under origins earlier,
      construction.Linked sets (origin :: under) earlier ∧
      sets[origin]? = some origins ∧ ⟨item.production, 0, item.lookahead⟩ ∈ origins ∧
      (state :: states).drop item.dot = origin :: under ∧
      symbols = ((construction.grammar.bodyOf item.production).take item.dot).reverse ++ earlier := by
  obtain ⟨production, dot, lookahead⟩ := item
  simp only
  induction dot generalizing state states symbols items with
  | zero => exact ⟨state, states, items, symbols, linked, holds, member, rfl, rfl⟩
  | succ dot ih =>
      cases linked with
      | bottom start =>
          rw [start] at holds
          cases holds
          cases dot_of_mem_startItems member
      | push _ below rest symbol front belowItems under belowHolds _ enters =>
          rw [enters] at holds
          cases holds
          rcases mem_goto member with ⟨before, beforeMember, next, same⟩ | atStart
          · have before_eq : before = ⟨production, dot, lookahead⟩ := by
              cases before
              simpa [Item.advance, eq_comm] using same
            subst before_eq
            obtain ⟨origin, bottom, origins, earlier, linked', found, initial, drop, rfl⟩ :=
              ih under belowHolds beforeMember
            refine ⟨origin, bottom, origins, earlier, linked', found, initial, drop, ?_⟩
            -- The symbol on top is the one between the two places of the dot.
            rw [Item.nextSymbol] at next
            rw [List.take_add_one, next, Option.toList_some, List.reverse_append,
              List.reverse_singleton, List.singleton_append, List.cons_append]
          · cases atStart

end Linked

end Construction

namespace Grammar.WellFormed

variable {grammar : Grammar} {sets : Array ItemSet} {states : List Nat} {symbols : List Symbol}

theorem has_of_mem_construction (wellFormed : grammar.WellFormed) {index : Nat} {symbol : Symbol}
    (inBody : symbol ∈ grammar.construction.grammar.bodyOf index) : grammar.Has symbol := by
  cases found : grammar.construction.grammar.productions[index]? with
  | none =>
      rw [bodyOf, found] at inBody
      cases inBody
  | some production =>
      rw [bodyOf_eq found] at inBody
      exact wellFormed.construction_body_has (List.mem_of_getElem? found) inBody

theorem has_of_nextSymbol (wellFormed : grammar.WellFormed) {item : Item} {symbol : Symbol}
    (next : item.nextSymbol grammar.construction.grammar = some symbol) : grammar.Has symbol := by
  obtain ⟨tail, drop⟩ := Item.nextSymbol_eq_some.mp next
  exact wellFormed.has_of_mem_construction (List.mem_of_mem_drop (drop ▸ List.mem_cons_self))

theorem token_lt (wellFormed : grammar.WellFormed) {item : Item} {id : Nat}
    (next : item.nextSymbol grammar.construction.grammar = some (.token id)) :
    id < grammar.construction.grammar.tokens.length := by
  have known : id < grammar.tokens.length := wellFormed.has_of_nextSymbol next
  rw [construction_tokens_length]
  omega

/-- The production of the new start symbol is never called for. -/
theorem called_ne_accept (wellFormed : grammar.WellFormed) {item next : Item}
    (called : next ∈ grammar.construction.closureStep item) :
    next.production ≠ grammar.productions.length := by
  obtain ⟨target, rest, index, token, drop, headed, _, rfl⟩ :=
    Construction.mem_closureStep.mp called
  rintro (rfl : index = _)
  have inBody : Symbol.nonterminal target ∈ grammar.construction.grammar.bodyOf item.production :=
    List.mem_of_mem_drop (drop ▸ List.mem_cons_self)
  have known : target < grammar.nonterminals.length := wellFormed.has_of_mem_construction inBody
  rw [wellFormed.construction_inRange.mem_productionsOf, construction_last] at headed
  simp only [Option.map_some, Option.some.injEq] at headed
  omega

/-- An item that is called for begins a production of the nonterminal after the dot. -/
theorem exists_called (wellFormed : grammar.WellFormed) {item next : Item}
    (called : next ∈ grammar.construction.closureStep item) :
    ∃ (production : Production) (rest : List Symbol),
      (grammar.construction.grammar.bodyOf item.production).drop item.dot =
        .nonterminal production.head :: rest ∧
      grammar.productions[next.production]? = some production ∧ next.dot = 0 ∧
      next.lookahead ∈ grammar.construction.first.lookahead rest item.lookahead := by
  have inner := wellFormed.called_ne_accept called
  obtain ⟨target, rest, index, token, drop, headed, follows, rfl⟩ :=
    Construction.mem_closureStep.mp called
  obtain ⟨production, found, rfl⟩ := Option.map_eq_some_iff.mp
    (wellFormed.construction_inRange.mem_productionsOf.mp headed)
  refine ⟨production, rest, drop, ?_, rfl, follows⟩
  rcases wellFormed.construction_found found with ⟨old, _⟩ | ⟨last, _⟩
  · exact old
  · exact absurd last inner

/-- Where a production begins, an item of the same set has its head after the dot and calls for it. -/
theorem exists_calling (wellFormed : grammar.WellFormed) {items : ItemSet} {index lookahead : Nat}
    {production : Production} (reachable : grammar.construction.Reachable items)
    (old : grammar.productions[index]? = some production) (member : ⟨index, 0, lookahead⟩ ∈ items) :
    ∃ caller ∈ items, ⟨index, 0, lookahead⟩ ∈ grammar.construction.closureStep caller ∧
      caller.nextSymbol grammar.construction.grammar = some (.nonterminal production.head) := by
  have bound : index < grammar.productions.length := (List.getElem?_eq_some_iff.mp old).1
  rcases reachable.exists_caller wellFormed.proper member rfl with start | ⟨caller, inside, called⟩
  · have last := congrArg Item.production start
    rw [wellFormed.acceptProduction_eq] at last
    exact absurd last (Nat.ne_of_lt bound)
  · obtain ⟨found, rest, drop, known, _⟩ := wellFormed.exists_called called
    rw [old] at known
    cases known
    exact ⟨caller, inside, called, Item.nextSymbol_eq_some.mpr ⟨rest, drop⟩⟩

/-- Only the end of input is expected after the outermost production. -/
theorem outermost (wellFormed : grammar.WellFormed) {items : ItemSet}
    (reachable : grammar.construction.Reachable items) :
    ∀ item ∈ items, item.production = grammar.productions.length →
      item.lookahead = grammar.tokens.length := by
  induction reachable with
  | start =>
      refine Construction.closure_least wellFormed.construction_inRange ?_ ?_
      · intro item _ next called same
        exact absurd same (wellFormed.called_ne_accept called)
      · intro item member _
        rw [List.mem_singleton.mp member]
        rfl
  | goto items symbol _ _ ih =>
      refine Construction.goto_least wellFormed.construction_inRange ?_ ?_
      · intro item _ next called same
        exact absurd same (wellFormed.called_ne_accept called)
      · intro item member _ same
        exact ih item member same

theorem lookahead_lt (wellFormed : grammar.WellFormed) {items : ItemSet}
    (reachable : grammar.construction.Reachable items) {item : Item} (member : item ∈ items) :
    item.lookahead < grammar.construction.grammar.tokens.length := by
  obtain ⟨_, _, _, alphabet⟩ := reachable.fits wellFormed.proper item member
  rcases List.mem_append.mp alphabet with token | ending
  · exact mem_alphabet.mp token
  · rw [List.mem_singleton.mp ending, construction_eof, construction_tokens_length]
    exact Nat.lt_succ_self _

section Clean

variable (wellFormed : grammar.WellFormed) (clean : (ParseTable.ofGrammar grammar).conflicts = [])
  {state : Nat} {items : ItemSet} {item : Item}
  (holds : grammar.construction.collection.sets[state]? = some items) (member : item ∈ items)

include wellFormed clean holds member

/-- Without conflicts the token after the dot of an item is read. -/
theorem shift_cell {terminal target : Nat}
    (next : item.nextSymbol grammar.construction.grammar = some (.token terminal))
    (enters : grammar.construction.collection.sets[target]? =
      some (grammar.construction.goto items (.token terminal))) :
    ParseTable.cell (ParseTable.ofGrammar grammar).tables.action state terminal =
      .ok (.shift target) := by
  exact Tables.cell_of_asks wellFormed.proper.collection_complete clean holds
    (wellFormed.token_lt next) (.shift item terminal target member next enters)

/-- Without conflicts an item at its end is reduced on its lookahead. -/
theorem reduce_cell (ended : item.nextSymbol grammar.construction.grammar = none)
    {production : Production} (old : grammar.productions[item.production]? = some production) :
    ParseTable.cell (ParseTable.ofGrammar grammar).tables.action state item.lookahead =
      .ok (.reduce item.production) := by
  have complete := wellFormed.proper.collection_complete
  have bound : item.production < grammar.productions.length := (List.getElem?_eq_some_iff.mp old).1
  refine Tables.cell_of_asks complete clean holds
    (wellFormed.lookahead_lt (complete.reachable_of holds) member) (.reduce item member ended ?_)
  rintro ⟨last, _⟩
  rw [wellFormed.acceptProduction_eq] at last
  omega

/-- Without conflicts the outermost item accepts at its end. -/
theorem accept_cell (ended : item.nextSymbol grammar.construction.grammar = none)
    (last : item.production = grammar.productions.length) :
    ParseTable.cell (ParseTable.ofGrammar grammar).tables.action state item.lookahead =
      .ok .accept := by
  have complete := wellFormed.proper.collection_complete
  have reachable := complete.reachable_of holds
  have inside := wellFormed.lookahead_lt reachable member
  have ends := wellFormed.outermost reachable item member last
  rw [ends] at inside ⊢
  exact Tables.cell_of_asks complete clean holds inside
    (.accept item member ended (by rw [last, wellFormed.acceptProduction_eq]) ends)

end Clean

/-- Past a symbol the production of the new start symbol is not at its beginning. -/
theorem dot_ne_zero_of_goto (wellFormed : grammar.WellFormed) {items : ItemSet} {symbol : Symbol}
    {item : Item} (member : item ∈ grammar.construction.goto items symbol)
    (outer : item.production = grammar.productions.length) : item.dot ≠ 0 := by
  have later : ∀ item ∈ grammar.construction.goto items symbol,
      item.production = grammar.productions.length → item.dot ≠ 0 := by
    refine Construction.goto_least wellFormed.construction_inRange ?_ ?_
    · intro item _ next called same
      exact absurd same (wellFormed.called_ne_accept called)
    · intro item _ _ _
      exact Nat.succ_ne_zero _
  exact later item member outer

theorem bottom_of_initial (wellFormed : grammar.WellFormed) {state : Nat} {items : ItemSet}
    {lookahead : Nat} (linked : grammar.construction.Linked sets (state :: states) symbols)
    (holds : sets[state]? = some items)
    (member : ⟨grammar.productions.length, 0, lookahead⟩ ∈ items) : symbols = [] := by
  cases linked with
  | bottom _ => rfl
  | push _ below rest symbol front belowItems _ _ _ enters =>
      rw [enters] at holds
      cases holds
      exact absurd rfl (wellFormed.dot_ne_zero_of_goto member rfl)

/-- A reduction finds the whole body on top of the stack, and under it a state that calls for the
production, which is never the outermost one. -/
theorem exists_reduced (wellFormed : grammar.WellFormed) {state id index : Nat} {items : ItemSet}
    {production : Production}
    (linked : grammar.construction.Linked grammar.construction.collection.sets (state :: states)
      symbols)
    (holds : grammar.construction.collection.sets[state]? = some items)
    (asks : grammar.construction.Asks grammar.construction.collection.sets items id (.reduce index))
    (found : grammar.construction.grammar.productions[index]? = some production) :
    grammar.productions[index]? = some production ∧ ⟨index, production.body.length, id⟩ ∈ items ∧
      ∃ origin under origins earlier,
        grammar.construction.Linked grammar.construction.collection.sets (origin :: under) earlier ∧
        grammar.construction.collection.sets[origin]? = some origins ∧ ⟨index, 0, id⟩ ∈ origins ∧
        popAbove production.body.length (state :: states) = origin :: under ∧
        symbols = production.body.reverse ++ earlier := by
  have reachable := wellFormed.proper.collection_complete.reachable_of holds
  cases asks with
  | reduce item member ended inner =>
      have old : grammar.productions[item.production]? = some production := by
        rcases wellFormed.construction_found found with ⟨old, _⟩ | ⟨last, _⟩
        · exact old
        · refine absurd ⟨?_, wellFormed.outermost reachable item member last⟩ inner
          rw [last, wellFormed.acceptProduction_eq]
      -- The dot is at the end, so the item is past the whole body.
      have dot : item.dot = production.body.length := by
        obtain ⟨same, known, inside, _⟩ := reachable.fits wellFormed.proper item member
        rw [found] at known
        cases known
        have past := Item.nextSymbol_eq_none.mp ended
        rw [Grammar.bodyOf_eq found] at past
        omega
      have whole : ⟨item.production, production.body.length, item.lookahead⟩ ∈ items := by
        rw [← dot]
        exact member
      obtain ⟨origin, under, origins, earlier, bottom, originHolds, initial, drop, rfl⟩ :=
        linked.exists_initial holds whole
      rw [Grammar.bodyOf_eq found, List.take_length] at linked ⊢
      refine ⟨old, whole, origin, under, origins, earlier, bottom, originHolds, initial, ?_, rfl⟩
      rw [linked.popAbove_eq, drop]

theorem bodyOf_last (grammar : Grammar) :
    grammar.construction.grammar.bodyOf grammar.productions.length =
      [.nonterminal grammar.start] :=
  bodyOf_eq (construction_last grammar)

end Grammar.WellFormed

end ThreeAddress

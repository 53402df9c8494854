import ThreeAddress.Proofs.Table.Conflicts

/-!
Where the entries of tables can stand. The production of the new start symbol is complete in one
state only and there only at the end of input, so it is accepted in one cell or lost to a conflict
in that cell, and it is never reduced by.
-/

set_option autoImplicit false

namespace ThreeAddress

/-- The entries of a table are where they belong, the last state being the one in which all that is
read can be accepted. -/
structure ParseTable.Confined (table : ParseTable) (final : Nat) : Prop where
  shift : ∀ state token target, cell table.tables.action state token = .ok (.shift target) →
    target < table.stateCount ∧ token ≠ table.eof
  goto : ∀ state nonterminal target,
    cell table.tables.goto state nonterminal = .ok (some target) → target < table.stateCount
  reduce : ∀ state token production,
    cell table.tables.action state token = .ok (.reduce production) →
      production < table.acceptProduction
  accept : ∀ state token, cell table.tables.action state token = .ok .accept →
    state = final ∧ token = table.eof
  /-- If nothing is accepted, the record of a conflict says which reduction is done instead. -/
  lost : cell table.tables.action final table.eof ≠ .ok .accept →
    ∃ clash, .reduceReduce clash ∈ table.conflicts ∧ clash.state = final ∧
      clash.lookahead = table.grammar.tokenName table.eof ∧
      clash.production2 = table.acceptProduction ∧ clash.kept = .reduce clash.production1 ∧
      cell table.tables.action final table.eof = .ok clash.kept
  /-- No other token has the name of the end of input. -/
  named : ∀ token < table.grammar.tokens.length,
    table.grammar.tokenName token = table.grammar.tokenName table.eof → token = table.eof

theorem Construction.Asks.ne_error {construction : Construction} {sets : Array ItemSet}
    {items : ItemSet} {token : Nat} {action : Action}
    (asks : construction.Asks sets items token action) : action ≠ .error := by
  cases asks <;> simp

theorem ParseTable.ofGrammar_tables (grammar : Grammar) : (ofGrammar grammar).tables =
    .fill grammar.construction grammar.construction.collection := rfl

/-- The end of input has a name of its own. -/
theorem Grammar.eq_eof_of_tokenName {grammar : Grammar} {token : Nat}
    (inside : token < grammar.augment.grammar.tokens.length)
    (same : grammar.augment.grammar.tokenName token =
      grammar.augment.grammar.tokenName grammar.augment.eof) : token = grammar.augment.eof := by
  by_contra other
  have length : grammar.augment.grammar.tokens.length = grammar.tokens.length + 1 :=
    List.length_append
  have old : token < grammar.tokens.length := by
    change token ≠ grammar.tokens.length at other
    omega
  have first : grammar.augment.grammar.tokenName token = grammar.tokens[token] := by
    simp [tokenName, augment, List.getElem?_append_left old, old]
  have last : grammar.augment.grammar.tokenName grammar.augment.eof =
      freshName grammar.tokens "$" grammar.tokens.length "$" := by
    simp [tokenName, augment]
  rw [first, last] at same
  have fresh : freshName grammar.tokens "$" grammar.tokens.length "$" ∉ grammar.tokens :=
    freshName_not_mem (by decide) grammar.tokens "$"
  rw [← same] at fresh
  exact fresh (List.getElem_mem old)

namespace Grammar.WellFormed

variable {grammar : Grammar} {items : ItemSet} {item : Item}

/-- The production of the new start symbol begins at the start only. -/
theorem eq_startItems (wellFormed : grammar.WellFormed)
    (reachable : grammar.construction.Reachable items) (member : item ∈ items)
    (outer : item.production = grammar.productions.length) (atStart : item.dot = 0) :
    items = grammar.construction.startItems := by
  cases reachable with
  | start => rfl
  | goto earlier symbol _ _ => exact absurd atStart (wellFormed.dot_ne_zero_of_goto member outer)

/-- The production of the new start symbol is complete in one set only. -/
theorem eq_goto_start (wellFormed : grammar.WellFormed)
    (reachable : grammar.construction.Reachable items) (member : item ∈ items)
    (outer : item.production = grammar.productions.length)
    (ended : item.nextSymbol grammar.construction.grammar = none) :
    items = grammar.construction.goto grammar.construction.startItems
      (.nonterminal grammar.start) := by
  have past := Item.nextSymbol_eq_none.mp ended
  rw [outer, bodyOf_last, List.length_singleton] at past
  cases reachable with
  | start =>
      rw [Construction.dot_of_mem_startItems member] at past
      omega
  | goto earlier symbol before _ =>
      rcases Construction.mem_goto member with ⟨previous, listed, next, rfl⟩ | atStart
      · rw [Item.advance_production] at outer
        rw [Item.nextSymbol, outer, bodyOf_last] at next
        obtain ⟨bound, same⟩ := List.getElem?_eq_some_iff.mp next
        have first : previous.dot = 0 := by
          rw [List.length_singleton] at bound
          omega
        rw [wellFormed.eq_startItems before listed outer first]
        simp only [first, List.getElem_cons_zero] at same
        rw [same]
      · omega

/-- The item that accepts is in the set entered over the start symbol. -/
theorem accepting_mem (wellFormed : grammar.WellFormed) :
    ⟨grammar.productions.length, 1, grammar.tokens.length⟩ ∈
      grammar.construction.goto grammar.construction.startItems (.nonterminal grammar.start) := by
  have begins : .initial grammar.construction.acceptProduction grammar.construction.eof ∈
      grammar.construction.startItems :=
    Construction.subset_closure (List.mem_singleton.mpr rfl)
  rw [wellFormed.acceptProduction_eq] at begins
  refine Construction.advance_mem_goto begins ?_
  rw [Item.nextSymbol, Item.initial, bodyOf_last]
  rfl

/-- In that set accepting is asked for at the end of input. -/
theorem asks_accept (wellFormed : grammar.WellFormed) {sets : Array ItemSet} :
    grammar.construction.Asks sets
      (grammar.construction.goto grammar.construction.startItems (.nonterminal grammar.start))
      grammar.tokens.length .accept := by
  have ended : (⟨grammar.productions.length, 1, grammar.tokens.length⟩ : Item).nextSymbol
      grammar.construction.grammar = none := by
    rw [Item.nextSymbol, bodyOf_last]
    rfl
  exact .accept _ wellFormed.accepting_mem ended wellFormed.acceptProduction_eq.symm rfl

section Cell

variable (wellFormed : grammar.WellFormed) {state token : Nat}

include wellFormed

/-- An entry is asked for by an item of a set that can be reached. -/
theorem exists_asks {action : Action}
    (entry : ParseTable.cell (ParseTable.ofGrammar grammar).tables.action state token = .ok action)
    (acts : action ≠ .error) :
    ∃ items, grammar.construction.collection.sets[state]? = some items ∧
      grammar.construction.Reachable items ∧
      grammar.construction.Asks grammar.construction.collection.sets items token action := by
  have complete := wellFormed.proper.collection_complete
  have holds := Array.getElem?_eq_getElem (Tables.lt_size_of_cell entry)
  exact ⟨_, holds, complete.reachable_of holds, Tables.asks_of_cell complete holds entry acts⟩

/-- The end of input is never read, since no production mentions it. -/
theorem shift_confined {target : Nat}
    (entry : ParseTable.cell (ParseTable.ofGrammar grammar).tables.action state token =
      .ok (.shift target)) :
    target < grammar.construction.collection.size ∧ token ≠ grammar.tokens.length := by
  obtain ⟨items, _, _, asks⟩ := wellFormed.exists_asks entry (by simp)
  cases asks with
  | shift item _ _ _ next enters =>
      have known : token < grammar.tokens.length := wellFormed.has_of_nextSymbol next
      exact ⟨(Array.getElem?_eq_some_iff.mp enters).1, Nat.ne_of_lt known⟩

theorem goto_confined {nonterminal target : Nat}
    (entry : ParseTable.cell (ParseTable.ofGrammar grammar).tables.goto state nonterminal =
      .ok (some target)) : target < grammar.construction.collection.size := by
  have holds := Array.getElem?_eq_getElem (Tables.lt_size_of_goto_cell entry)
  obtain ⟨_, _, enters⟩ :=
    (Tables.goto_cell_iff wellFormed.proper.collection_complete holds).mp entry
  exact (Array.getElem?_eq_some_iff.mp enters).1

/-- The production of the new start symbol has no lookahead but the end of input, where it does not
ask to reduce. -/
theorem reduce_confined {production : Nat}
    (entry : ParseTable.cell (ParseTable.ofGrammar grammar).tables.action state token =
      .ok (.reduce production)) : production < grammar.productions.length := by
  obtain ⟨items, _, reachable, asks⟩ := wellFormed.exists_asks entry (by simp)
  cases asks with
  | reduce item member _ inner =>
      obtain ⟨rule, found, _⟩ := reachable.fits wellFormed.proper item member
      rcases wellFormed.construction_found found with ⟨old, _⟩ | ⟨last, _⟩
      · exact (List.getElem?_eq_some_iff.mp old).1
      · refine absurd ⟨?_, wellFormed.outermost reachable item member last⟩ inner
        rw [last, wellFormed.acceptProduction_eq]

theorem accept_confined
    (entry : ParseTable.cell (ParseTable.ofGrammar grammar).tables.action state token =
      .ok .accept) :
    grammar.construction.collection.sets[state]? =
        some (grammar.construction.goto grammar.construction.startItems
          (.nonterminal grammar.start)) ∧
      token = grammar.tokens.length := by
  obtain ⟨items, holds, reachable, asks⟩ := wellFormed.exists_asks entry (by simp)
  cases asks with
  | accept item member ended outer _ =>
      rw [wellFormed.acceptProduction_eq] at outer
      exact ⟨wellFormed.eq_goto_start reachable member outer ended ▸ holds, rfl⟩

/-- Where all that is read could be accepted and is not, a reduction was kept and accepting is
reported as turned away. -/
theorem exists_clash {final : Nat}
    (holds : grammar.construction.collection.sets[final]? =
      some (grammar.construction.goto grammar.construction.startItems
        (.nonterminal grammar.start)))
    (lost : ParseTable.cell (ParseTable.ofGrammar grammar).tables.action final
      grammar.tokens.length ≠ .ok .accept) :
    ∃ clash, .reduceReduce clash ∈ (ParseTable.ofGrammar grammar).conflicts ∧
      clash.state = final ∧
      clash.lookahead = grammar.construction.grammar.tokenName grammar.tokens.length ∧
      clash.production2 = grammar.construction.acceptProduction ∧
      clash.kept = .reduce clash.production1 ∧
      ParseTable.cell (ParseTable.ofGrammar grammar).tables.action final grammar.tokens.length =
        .ok clash.kept := by
  have complete := wellFormed.proper.collection_complete
  have written := (Tables.mem_actionWrites complete holds).mpr wellFormed.asks_accept
  obtain ⟨kept, first⟩ := Write.exists_kept? written
  have inside : grammar.tokens.length < grammar.construction.grammar.tokens.length := by simp
  have entry : ParseTable.cell (ParseTable.ofGrammar grammar).tables.action final
      grammar.tokens.length = .ok kept := by
    rw [ParseTable.ofGrammar_tables]
    exact (Tables.action_cell holds).mpr ⟨inside, by rw [first, Option.getD_some]⟩
  have apart : Action.accept ≠ kept := by
    rintro rfl
    exact lost entry
  have refused : ⟨final, grammar.tokens.length, kept, .accept⟩ ∈
      Tables.refusals grammar.construction grammar.construction.collection :=
    Tables.mem_refusals.mpr ⟨(Array.getElem?_eq_some_iff.mp holds).1, first, written, apart⟩
  have reported := List.mem_map_of_mem refused
    (f := fun refusal => grammar.construction.actionConflict refusal.state
      (grammar.construction.collection.itemTexts grammar.construction.grammar refusal.state)
      ⟨refusal.token, (refusal.kept, refusal.refused)⟩)
  rw [← Tables.conflicts_eq complete wellFormed.actionWrites_lt] at reported
  cases kept with
  | error =>
      have asks := (Tables.mem_actionWrites complete holds).mp (Write.mem_of_kept? first)
      exact absurd rfl asks.ne_error
  | shift target => exact absurd rfl (wellFormed.shift_confined entry).2
  | accept => exact absurd rfl apart
  | reduce production => exact ⟨_, reported, rfl, rfl, rfl, rfl, entry⟩

end Cell

end Grammar.WellFormed

/-- The tables of a grammar that was built are confined, the last state being the one entered over
the start symbol of that grammar. -/
theorem ParseTable.ofGrammar_confined {description : Description} {grammar : Grammar}
    (built : description.build = .ok grammar) :
    ∃ final, (grammar.construction.collection.transitionsAt 0).lookup
        (.nonterminal grammar.start) = some final ∧
      cell (ofGrammar grammar).tables.goto 0 grammar.start = .ok (some final) ∧
      (ofGrammar grammar).Confined final := by
  have wellFormed := Description.wellFormed_of_build built
  have complete := wellFormed.proper.collection_complete
  have leads := List.ne_nil_of_mem wellFormed.accepting_mem
  obtain ⟨final, enters⟩ := complete.exists_enters complete.start leads
  have entered := (complete.lookup_iff complete.start).mpr ⟨leads, enters⟩
  have known : grammar.start < grammar.construction.grammar.nonterminals.length := by
    rw [Grammar.construction_nonterminals_length]
    exact Nat.lt_succ_of_lt wellFormed.start_lt
  have last : (ofGrammar grammar).acceptProduction = grammar.productions.length :=
    wellFormed.acceptProduction_eq
  have count : (ofGrammar grammar).stateCount = grammar.construction.collection.size := by
    rw [stateCount, ofGrammar_tables, Tables.fill_eq, Array.size_map, Array.size_range]
  refine ⟨final, entered, ?_, ?_⟩
  · rw [ofGrammar_tables, Tables.goto_cell_eq_lookup complete complete.start known, entered]
  constructor
  case shift =>
    intro state token target entry
    rw [count]
    exact wellFormed.shift_confined entry
  case goto =>
    intro state nonterminal target entry
    rw [count]
    exact wellFormed.goto_confined entry
  case reduce =>
    intro state token production entry
    rw [last]
    exact wellFormed.reduce_confined entry
  case accept =>
    intro state token entry
    obtain ⟨holds, ending⟩ := wellFormed.accept_confined entry
    exact ⟨complete.eq_of_holds holds enters, ending⟩
  case lost => exact wellFormed.exists_clash enters
  case named =>
    intro token inside same
    exact Grammar.eq_eof_of_tokenName inside same

/-- The rule that leads nowhere is done at the end of input, and what it costs is reported. -/
theorem ParseTable.ofGrammar_confined_idle :
    (Description.ofCalls Description.idle).build = .ok .idle ∧
    (Grammar.idle.construction.collection.transitionsAt 0).lookup (.nonterminal 0) = some 1 ∧
    (ofGrammar .idle).Confined 1 ∧
    cell (ofGrammar .idle).tables.action 1 (ofGrammar .idle).eof = .ok (.reduce 1) ∧
    ∃ clash, .reduceReduce clash ∈ (ofGrammar .idle).conflicts ∧ clash.state = 1 ∧
      clash.lookahead = "$" ∧ clash.production2 = 3 ∧ clash.kept = .reduce 1 := by
  have built : (Description.ofCalls Description.idle).build = .ok .idle := by decide +kernel
  have second : (Grammar.idle.construction.collection.transitionsAt 0).lookup (.nonterminal 0) =
      some 1 := by decide +kernel
  have reduced : cell (ofGrammar .idle).tables.action 1 (ofGrammar .idle).eof =
      .ok (.reduce 1) := by decide +kernel
  obtain ⟨final, entered, _, confined⟩ := ofGrammar_confined built
  cases second.symm.trans entered
  obtain ⟨clash, member, state, token, refused, kept, entry⟩ :=
    confined.lost (by rw [reduced]; simp)
  rw [reduced] at entry
  exact ⟨built, second, confined, reduced, clash, member, state, token, refused,
    (Except.ok.inj entry).symm⟩

end ThreeAddress

import ThreeAddress.Proofs.Grammar.Begins
import ThreeAddress.Proofs.Run.Sound

/-!
Reductions on one lookahead come to an end if the tables have no conflicts and every symbol that
occurs can vanish or begin with a token. What a state waits for on the lookahead is either a token
to read or the end of a body, and both are reached along finite derivations.
-/

set_option autoImplicit false

namespace ThreeAddress

namespace ParseTable

/-- A reduction on a terminal, as far as the stack of states shows it. -/
inductive Reduces (table : ParseTable) (terminal : Nat) (states : List Nat) : List Nat → Prop where
  | intro (index target : Nat) (production : Production)
      (asked : cell table.tables.action (states.headD 0) terminal = .ok (.reduce index))
      (found : table.grammar.productions[index]? = some production)
      (enters : cell table.tables.goto ((popAbove production.body.length states).headD 0)
        production.head = .ok (some target)) :
      Reduces table terminal states (target :: popAbove production.body.length states)

/-- Reductions on the terminal do not go on for ever from the stack. -/
def Settles (table : ParseTable) (terminal : Nat) (states : List Nat) : Prop :=
  Acc (fun after before => table.Reduces terminal before after) states

variable {table : ParseTable} {terminal : Nat} {states after : List Nat}

theorem Reduces.unique {other : List Nat} (first : table.Reduces terminal states after)
    (second : table.Reduces terminal states other) : after = other := by
  cases first with
  | intro index target production asked found enters =>
      cases second with
      | intro index' target' production' asked' found' enters' =>
          rw [asked] at asked'
          cases asked'
          rw [found] at found'
          cases found'
          rw [enters] at enters'
          cases enters'
          rfl

theorem Settles.of_reduces (reduces : table.Reduces terminal states after)
    (settles : table.Settles terminal after) : table.Settles terminal states :=
  .intro states fun _ others => reduces.unique others ▸ settles

theorem settles_of_cell {action : Action}
    (asked : cell table.tables.action (states.headD 0) terminal = .ok action)
    (other : ∀ index, action ≠ .reduce index) : table.Settles terminal states := by
  refine .intro states fun after reduces => ?_
  cases reduces with
  | intro index target production reducing found enters =>
      rw [asked] at reducing
      exact absurd (Except.ok.inj reducing) (other index)

end ParseTable

/-- What an item calls for has only nonterminals that occur, if the item has. -/
theorem Grammar.occurs_of_called {grammar : Grammar} (wellFormed : grammar.WellFormed) {item : Item}
    (occurring : ∀ id, Symbol.nonterminal id ∈
      grammar.construction.grammar.bodyOf item.production → grammar.Occurs id) :
    ∀ next ∈ grammar.construction.closureStep item, ∀ id, Symbol.nonterminal id ∈
      grammar.construction.grammar.bodyOf next.production → grammar.Occurs id := by
  intro next called id inBody
  obtain ⟨production, rest, drop, old, _⟩ := wellFormed.exists_called called
  have head := occurring production.head (List.mem_of_mem_drop (drop ▸ List.mem_cons_self))
  rw [bodyOf_eq (construction_of_found old)] at inBody
  exact head.body old inBody

/-- The item is in the state on top of a linked stack. -/
structure Grammar.Stands (grammar : Grammar) (states : List Nat) (item : Item) : Prop where
  linked : ∃ symbols,
    grammar.construction.Linked grammar.construction.collection.sets states symbols
  holds : ∃ items, grammar.construction.collection.sets[states.headD 0]? = some items ∧
    item ∈ items

namespace Grammar.Stands

open ParseTable

variable {grammar : Grammar} {states : List Nat} {item next : Item}

theorem fits (stands : grammar.Stands states item) (wellFormed : grammar.WellFormed) :
    grammar.construction.Fits item := by
  obtain ⟨items, holds, member⟩ := stands.holds
  exact (wellFormed.proper.collection_complete.reachable_of holds).fits wellFormed.proper item member

theorem lookahead_lt (stands : grammar.Stands states item) (wellFormed : grammar.WellFormed) :
    item.lookahead < grammar.construction.grammar.tokens.length := by
  obtain ⟨items, holds, member⟩ := stands.holds
  exact wellFormed.lookahead_lt (wellFormed.proper.collection_complete.reachable_of holds) member

theorem called (stands : grammar.Stands states item) (wellFormed : grammar.WellFormed)
    (called : next ∈ grammar.construction.closureStep item) : grammar.Stands states next := by
  obtain ⟨items, holds, member⟩ := stands.holds
  have reachable := wellFormed.proper.collection_complete.reachable_of holds
  exact ⟨stands.linked, items, holds, reachable.closed wellFormed.proper member called⟩

/-- A production of the nonterminal after the dot is called for with any token that may follow. -/
theorem call (stands : grammar.Stands states item) (wellFormed : grammar.WellFormed)
    {index token : Nat} {production : Production} {rest : List Symbol}
    (remains : (grammar.construction.grammar.bodyOf item.production).drop item.dot =
      .nonterminal production.head :: rest)
    (found : grammar.construction.grammar.productions[index]? = some production)
    (expected : token ∈ grammar.construction.first.lookahead rest item.lookahead) :
    grammar.Stands states ⟨index, 0, token⟩ ∧ grammar.productions[index]? = some production := by
  have calls : (⟨index, 0, token⟩ : Item) ∈ grammar.construction.closureStep item := by
    refine Construction.mem_closureStep.mpr
      ⟨production.head, rest, index, token, remains, ?_, expected, rfl⟩
    rw [wellFormed.construction_inRange.mem_productionsOf, found, Option.map_some]
  refine ⟨stands.called wellFormed calls, ?_⟩
  rcases wellFormed.construction_found found with ⟨old, _⟩ | ⟨last, _⟩
  · exact old
  · exact absurd last (wellFormed.called_ne_accept calls)

/-- Over a nonterminal after the dot the goto table leads on. -/
theorem exists_goto (stands : grammar.Stands states item) (wellFormed : grammar.WellFormed)
    {id : Nat} (across : item.nextSymbol grammar.construction.grammar = some (.nonterminal id)) :
    ∃ target, cell (ParseTable.ofGrammar grammar).tables.goto (states.headD 0) id =
      .ok (some target) := by
  have complete := wellFormed.proper.collection_complete
  obtain ⟨items, holds, member⟩ := stands.holds
  have leads := Construction.goto_ne_nil_iff.mpr ⟨item, member, across⟩
  obtain ⟨target, enters⟩ := complete.exists_enters holds leads
  have known : id < grammar.nonterminals.length := wellFormed.has_of_nextSymbol across
  have inside : id < grammar.construction.grammar.nonterminals.length := by
    rw [construction_nonterminals_length]
    omega
  exact ⟨target, (Tables.goto_cell_iff complete holds).mpr ⟨inside, leads, enters⟩⟩

theorem goto (stands : grammar.Stands states item) (wellFormed : grammar.WellFormed)
    {id target : Nat}
    (across : item.nextSymbol grammar.construction.grammar = some (.nonterminal id))
    (entered : cell (ParseTable.ofGrammar grammar).tables.goto (states.headD 0) id =
      .ok (some target)) : grammar.Stands (target :: states) item.advance := by
  obtain ⟨items, holds, member⟩ := stands.holds
  obtain ⟨_, leads, enters⟩ :=
    (Tables.goto_cell_iff wellFormed.proper.collection_complete holds).mp entered
  obtain ⟨symbols, linked⟩ := stands.linked
  obtain ⟨state, below, _, rfl, _⟩ := linked.exists_top
  exact ⟨⟨_, .push target state below _ symbols items linked holds leads enters⟩, _, enters,
    Construction.advance_mem_goto member across⟩

/-- The bottom stays below the body of an item that is complete. -/
theorem popAbove_eq (stands : grammar.Stands states item) {production : Production}
    (found : grammar.construction.grammar.productions[item.production]? = some production)
    (ended : item.dot = production.body.length) :
    popAbove production.body.length states = states.drop item.dot := by
  obtain ⟨symbols, linked⟩ := stands.linked
  obtain ⟨items, holds, member⟩ := stands.holds
  obtain ⟨state, below, _, rfl, _⟩ := linked.exists_top
  obtain ⟨_, _, _, earlier, _, _, _, _, rfl⟩ := linked.exists_initial holds member
  rw [bodyOf_eq found, ended, List.take_length] at linked
  rw [ended]
  exact linked.popAbove_eq

/-- The nonterminals in the body of an item occur. -/
theorem occurs (stands : grammar.Stands states item) (wellFormed : grammar.WellFormed) {id : Nat}
    (inBody : Symbol.nonterminal id ∈ grammar.construction.grammar.bodyOf item.production) :
    grammar.Occurs id := by
  obtain ⟨items, holds, member⟩ := stands.holds
  have reachable := wellFormed.proper.collection_complete.reachable_of holds
  suffices every : ∀ item ∈ items, ∀ id, Symbol.nonterminal id ∈
      grammar.construction.grammar.bodyOf item.production → grammar.Occurs id by
    exact every item member id inBody
  clear holds member inBody stands
  induction reachable with
  | start =>
      refine Construction.closure_least wellFormed.construction_inRange
        (fun _ => occurs_of_called wellFormed) ?_
      intro item member id inBody
      rw [List.mem_singleton.mp member, wellFormed.acceptProduction_eq, Item.initial,
        WellFormed.bodyOf_last, List.mem_singleton] at inBody
      cases inBody
      exact grammar.occurs_start
  | goto items symbol _ _ ih =>
      refine Construction.goto_least wellFormed.construction_inRange
        (fun _ => occurs_of_called wellFormed) ?_
      intro item member _
      exact ih item member

/-- Every production of the nonterminal after the dot is called for, with some lookahead that the
rest of the body allows. -/
theorem exists_call (stands : grammar.Stands states item) (wellFormed : grammar.WellFormed)
    (live : ∀ id, grammar.Occurs id → grammar.Live id) {index : Nat} {production : Production}
    {rest : List Symbol}
    (remains : (grammar.construction.grammar.bodyOf item.production).drop item.dot =
      .nonterminal production.head :: rest)
    (found : grammar.construction.grammar.productions[index]? = some production) :
    ∃ token, grammar.Stands states ⟨index, 0, token⟩ := by
  have occurring : ∀ id, Symbol.nonterminal id ∈ rest → grammar.Live id := by
    intro id member
    have inDrop : Symbol.nonterminal id ∈
        (grammar.construction.grammar.bodyOf item.production).drop item.dot := by
      rw [remains]
      exact List.mem_cons_of_mem _ member
    exact live id (stands.occurs wellFormed (List.mem_of_mem_drop inDrop))
  obtain ⟨token, expected⟩ := wellFormed.exists_mem_lookahead occurring item.lookahead
  exact ⟨token, (stands.call wellFormed remains found expected).1⟩

section Clean

variable (wellFormed : grammar.WellFormed) (clean : (ParseTable.ofGrammar grammar).conflicts = [])

include wellFormed clean

theorem shift_cell (stands : grammar.Stands states item) {terminal : Nat}
    (next : item.nextSymbol grammar.construction.grammar = some (.token terminal)) :
    ∃ target, cell (ParseTable.ofGrammar grammar).tables.action (states.headD 0) terminal =
      .ok (.shift target) := by
  obtain ⟨items, holds, member⟩ := stands.holds
  have leads := Construction.goto_ne_nil_iff.mpr ⟨item, member, next⟩
  obtain ⟨target, enters⟩ := wellFormed.proper.collection_complete.exists_enters holds leads
  exact ⟨target, wellFormed.shift_cell clean holds member next enters⟩

theorem reduce_cell (stands : grammar.Stands states item)
    (ended : item.nextSymbol grammar.construction.grammar = none) {production : Production}
    (old : grammar.productions[item.production]? = some production) :
    cell (ParseTable.ofGrammar grammar).tables.action (states.headD 0) item.lookahead =
      .ok (.reduce item.production) := by
  obtain ⟨items, holds, member⟩ := stands.holds
  exact wellFormed.reduce_cell clean holds member ended old

theorem accept_cell (stands : grammar.Stands states item)
    (ended : item.nextSymbol grammar.construction.grammar = none)
    (last : item.production = grammar.productions.length) :
    cell (ParseTable.ofGrammar grammar).tables.action (states.headD 0) item.lookahead =
      .ok .accept := by
  obtain ⟨items, holds, member⟩ := stands.holds
  exact wellFormed.accept_cell clean holds member ended last

/-- A sequence after the dot that vanishes is passed by reductions on what may follow it. -/
theorem exists_vanished {terminal : Nat} {front back : List Symbol}
    (vanishes : grammar.construction.grammar.Vanishes front) (stands : grammar.Stands states item)
    (remains : (grammar.construction.grammar.bodyOf item.production).drop item.dot = front ++ back)
    (follows : terminal ∈ grammar.construction.first.lookahead back item.lookahead) :
    ∃ grown, grammar.Stands grown ⟨item.production, item.dot + front.length, item.lookahead⟩ ∧
      grown.drop front.length = states ∧
      ((ParseTable.ofGrammar grammar).Settles terminal grown →
        (ParseTable.ofGrammar grammar).Settles terminal states) := by
  induction vanishes generalizing states item back with
  | nil => exact ⟨states, stands, rfl, fun settles => settles⟩
  | cons index production rest found _ later bodyIh ih =>
      have across := Item.nextSymbol_eq_some.mpr ⟨rest ++ back, remains⟩
      -- The body of the symbol can be reduced on the terminal, which follows the rest as well.
      have expected : terminal ∈ grammar.construction.first.lookahead (rest ++ back)
          item.lookahead := wellFormed.mem_lookahead_append later follows
      obtain ⟨called, old⟩ := stands.call wellFormed remains found expected
      obtain ⟨filled, complete, dropped, settled⟩ := bodyIh called
        (by rw [bodyOf_eq found, List.drop_zero, List.append_nil])
        (wellFormed.mem_lookahead_iff.mpr (.inr ⟨.nil, rfl⟩))
      rw [Nat.zero_add] at complete
      obtain ⟨target, entered⟩ := stands.exists_goto wellFormed across
      have reduces : (ParseTable.ofGrammar grammar).Reduces terminal filled (target :: states) := by
        have popped := complete.popAbove_eq found rfl
        rw [dropped] at popped
        have asked := complete.reduce_cell wellFormed clean
          (Item.nextSymbol_eq_none.mpr (by rw [bodyOf_eq found])) old
        have step := Reduces.intro index target production asked found (by rw [popped]; exact entered)
        rwa [popped] at step
      obtain ⟨grown, advanced, under, passes⟩ := ih (stands.goto wellFormed across entered)
        (Item.drop_advance remains) follows
      refine ⟨grown, ?_, ?_, fun settles => settled (.of_reduces reduces (passes settles))⟩
      · rw [List.length_cons, Nat.add_comm rest.length, ← Nat.add_assoc]
        exact advanced
      · rw [List.length_cons, ← List.drop_drop, under, List.drop_one, List.tail_cons]

/-- If the lookahead can begin what is after the dot, reductions stop where it is read. -/
theorem settles_of_begins (live : ∀ id, grammar.Occurs id → grammar.Live id) {terminal : Nat}
    {sequence : List Symbol} (begins : grammar.construction.grammar.Begins terminal sequence)
    (stands : grammar.Stands states item)
    (remains : (grammar.construction.grammar.bodyOf item.production).drop item.dot = sequence) :
    (ParseTable.ofGrammar grammar).Settles terminal states := by
  induction begins generalizing states item with
  | token rest =>
      obtain ⟨target, shifts⟩ := stands.shift_cell wellFormed clean
        (Item.nextSymbol_eq_some.mpr ⟨rest, remains⟩)
      exact settles_of_cell shifts (by simp)
  | inside index production rest found _ ih =>
      obtain ⟨token, called⟩ := stands.exists_call wellFormed live remains found
      exact ih called (by rw [bodyOf_eq found, List.drop_zero])
  | past index production rest found body later ih =>
      have vanishes : grammar.construction.grammar.Vanishes [.nonterminal production.head] :=
        .cons index production [] found body .nil
      obtain ⟨grown, advanced, _, passes⟩ := stands.exists_vanished wellFormed clean vanishes remains
        (wellFormed.mem_lookahead_iff.mpr (.inl later))
      exact passes (ih advanced (Item.drop_advance remains))

end Clean

end Grammar.Stands

/-- If the item comes to its end on the terminal, what its reduction leads to settles. -/
def Grammar.Returns (grammar : Grammar) (terminal : Nat) (states : List Nat) (item : Item) : Prop :=
  item.lookahead = terminal → ∀ (production : Production) (target : Nat),
    grammar.productions[item.production]? = some production →
    ParseTable.cell (ParseTable.ofGrammar grammar).tables.goto ((states.drop item.dot).headD 0)
      production.head = .ok (some target) →
    (ParseTable.ofGrammar grammar).Settles terminal (target :: states.drop item.dot)

namespace Grammar

open ParseTable

variable {grammar : Grammar} {states : List Nat} {item : Item} {terminal : Nat}
  (wellFormed : grammar.WellFormed) (clean : (ParseTable.ofGrammar grammar).conflicts = [])
  (live : ∀ id, grammar.Occurs id → grammar.Live id)

include wellFormed clean

/-- A stack settles if an item on top of it is complete on the terminal and returns. -/
theorem Returns.settles_of_complete (returns : grammar.Returns terminal states item)
    (stands : grammar.Stands states item) (ahead : item.lookahead = terminal)
    {production : Production}
    (found : grammar.construction.grammar.productions[item.production]? = some production)
    (ended : item.dot = production.body.length) :
    (ParseTable.ofGrammar grammar).Settles terminal states := by
  have complete : item.nextSymbol grammar.construction.grammar = none :=
    Item.nextSymbol_eq_none.mpr (by rw [bodyOf_eq found, ended])
  rcases wellFormed.construction_found found with ⟨old, _⟩ | ⟨last, _⟩
  · have asked := stands.reduce_cell wellFormed clean complete old
    refine .intro states fun after reduces => ?_
    cases reduces with
    | intro index target production' asked' found' enters =>
        rw [← ahead, asked] at asked'
        cases asked'
        rw [ofGrammar_grammar, found] at found'
        cases found'
        rw [stands.popAbove_eq found ended] at enters ⊢
        exact returns ahead production target old enters
  · have accepts := stands.accept_cell wellFormed clean complete last
    rw [ahead] at accepts
    exact settles_of_cell accepts (by simp)

include live

/-- A stack settles if an item on top of it returns and the terminal may come after the dot. -/
theorem Returns.settles (returns : grammar.Returns terminal states item)
    (stands : grammar.Stands states item)
    (expected : terminal ∈ grammar.construction.first.lookahead
      ((grammar.construction.grammar.bodyOf item.production).drop item.dot) item.lookahead) :
    (ParseTable.ofGrammar grammar).Settles terminal states := by
  rcases wellFormed.mem_lookahead_iff.mp expected with begins | ⟨vanishes, same⟩
  · exact stands.settles_of_begins wellFormed clean live begins rfl
  · obtain ⟨grown, complete, dropped, passes⟩ := stands.exists_vanished wellFormed clean vanishes
      (List.append_nil _).symm (wellFormed.mem_lookahead_iff.mpr (.inr ⟨.nil, same⟩))
    obtain ⟨production, found, inside, _⟩ := stands.fits wellFormed
    -- What is left of the body has been pushed, so the item returns to where it did before.
    have again : grammar.Returns terminal grown ⟨item.production,
        item.dot + ((grammar.construction.grammar.bodyOf item.production).drop item.dot).length,
        item.lookahead⟩ := by
      unfold Returns
      rw [Nat.add_comm, ← List.drop_drop, dropped]
      exact returns
    refine passes (again.settles_of_complete wellFormed clean complete same.symm found ?_)
    simp only [bodyOf_eq found, List.length_drop]
    omega

/-- What an item that returns calls for returns as well. -/
theorem Returns.called (returns : grammar.Returns terminal states item)
    (stands : grammar.Stands states item) {next : Item}
    (called : next ∈ grammar.construction.closureStep item) :
    grammar.Returns terminal states next := by
  obtain ⟨production, rest, remains, old, atStart, expected⟩ := wellFormed.exists_called called
  intro ahead other target found enters
  rw [old] at found
  cases found
  rw [atStart, List.drop_zero] at enters ⊢
  rw [ahead] at expected
  have advanced := stands.goto wellFormed (Item.nextSymbol_eq_some.mpr ⟨rest, remains⟩) enters
  have again : grammar.Returns terminal (target :: states) item.advance := returns
  refine again.settles wellFormed clean live advanced ?_
  rw [Item.drop_advance remains]
  exact expected

/-- Every item on top of a linked stack returns. -/
theorem returns_of_linked {symbols : List Symbol} {items : ItemSet}
    (linked : grammar.construction.Linked grammar.construction.collection.sets states symbols)
    (holds : grammar.construction.collection.sets[states.headD 0]? = some items) :
    ∀ item ∈ items, grammar.Returns terminal states item := by
  have called : ∀ stack item, grammar.Stands stack item ∧ grammar.Returns terminal stack item →
      ∀ next ∈ grammar.construction.closureStep item,
        grammar.Stands stack next ∧ grammar.Returns terminal stack next := by
    rintro stack item ⟨stands, returns⟩ next calls
    exact ⟨stands.called wellFormed calls, returns.called wellFormed clean live stands calls⟩
  -- Items past their symbol return to where they did before, and the rest are called for by them.
  induction linked generalizing items with
  | bottom start =>
      have same : items = grammar.construction.startItems := Option.some.inj (holds.symm.trans start)
      subst same
      intro item member
      refine (Construction.closure_least wellFormed.construction_inRange (called [0]) ?_ item member).2
      intro first listed
      refine ⟨⟨⟨[], .bottom start⟩, _, start, Construction.subset_closure listed⟩, ?_⟩
      intro _ production target old
      rw [List.mem_singleton.mp listed, wellFormed.acceptProduction_eq] at old
      simp [Item.initial] at old
  | push target state below symbol symbols belowItems linked belowHolds leads enters ih =>
      have same : items = grammar.construction.goto belowItems symbol :=
        Option.some.inj (holds.symm.trans enters)
      subst same
      intro item member
      refine (Construction.goto_least wellFormed.construction_inRange
        (called (target :: state :: below)) ?_ item member).2
      intro earlier listed next
      refine ⟨⟨⟨_, .push target state below symbol symbols belowItems linked belowHolds leads enters⟩,
        _, enters, Construction.advance_mem_goto listed next⟩, ?_⟩
      exact ih belowHolds earlier listed

/-- Reductions come to an end from every linked stack. -/
theorem settles_of_linked {symbols : List Symbol}
    (linked : grammar.construction.Linked grammar.construction.collection.sets states symbols) :
    (ParseTable.ofGrammar grammar).Settles terminal states := by
  obtain ⟨state, below, items, rfl, holds⟩ := linked.exists_top
  by_cases reducible : ∃ after, (ParseTable.ofGrammar grammar).Reduces terminal (state :: below) after
  · obtain ⟨_, index, target, production, asked, found, _⟩ := reducible
    have asks := Tables.asks_of_cell wellFormed.proper.collection_complete holds asked (by simp)
    obtain ⟨_, complete, _⟩ := wellFormed.exists_reduced linked holds asks found
    have returns : grammar.Returns terminal (state :: below)
        ⟨index, production.body.length, terminal⟩ :=
      returns_of_linked wellFormed clean live linked holds _ complete
    exact returns.settles_of_complete wellFormed clean
      ⟨⟨symbols, linked⟩, items, holds, complete⟩ rfl found rfl
  · exact .intro _ fun after reduces => absurd ⟨after, reduces⟩ reducible

end Grammar

end ThreeAddress

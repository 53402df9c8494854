import ThreeAddress.Proofs.Run.Settle

/-!
Items up and down a stack of states. An item past a symbol was before it one state below, and every
item before the symbol is past it one state above, so items with the same part of a body behind them
rise together.
-/

set_option autoImplicit false

namespace ThreeAddress

/-- The state on top of the stack was entered over the symbol. -/
def Grammar.Entered (grammar : Grammar) (target : Nat) (states : List Nat) (symbol : Symbol) :
    Prop :=
  ∃ symbols, grammar.construction.Linked grammar.construction.collection.sets (target :: states)
    (symbol :: symbols)

namespace Grammar

variable {grammar : Grammar} {target : Nat} {states : List Nat} {symbol : Symbol} {item : Item}
  {index other dot lookahead ahead : Nat}

/-- An item past the symbol comes from below. -/
theorem Entered.before (entered : grammar.Entered target states symbol)
    (stands : grammar.Stands (target :: states) ⟨index, dot + 1, lookahead⟩) :
    grammar.Stands states ⟨index, dot, lookahead⟩ ∧
      (grammar.construction.grammar.bodyOf index)[dot]? = some symbol := by
  obtain ⟨symbols, linked⟩ := entered
  obtain ⟨items, holds, member⟩ := stands.holds
  cases linked with
  | push _ state below _ _ belowItems linked belowHolds _ enters =>
      rw [List.headD_cons, enters] at holds
      cases holds
      rcases Construction.mem_goto member with ⟨before, belongs, next, same⟩ | atStart
      · obtain ⟨production, place, token⟩ := before
        cases same
        exact ⟨⟨⟨_, linked⟩, belowItems, belowHolds, belongs⟩, next⟩
      · cases atStart

/-- An item before the symbol goes on above. -/
theorem Entered.after (entered : grammar.Entered target states symbol)
    (stands : grammar.Stands states item)
    (next : item.nextSymbol grammar.construction.grammar = some symbol) :
    grammar.Stands (target :: states) item.advance := by
  obtain ⟨symbols, linked⟩ := entered
  refine ⟨⟨_, linked⟩, ?_⟩
  obtain ⟨items, holds, member⟩ := stands.holds
  cases linked with
  | push _ state below _ _ belowItems _ belowHolds _ enters =>
      rw [List.headD_cons, belowHolds] at holds
      cases holds
      exact ⟨_, enters, Construction.advance_mem_goto member next⟩

namespace Stands

/-- Where an item has something behind its dot, the state on top was entered. -/
theorem exists_entered (stands : grammar.Stands states ⟨index, dot + 1, lookahead⟩) :
    ∃ target below symbol, states = target :: below ∧ grammar.Entered target below symbol := by
  obtain ⟨items, holds, member⟩ := stands.holds
  obtain ⟨symbols, linked⟩ := stands.linked
  cases linked with
  | bottom start =>
      rw [List.headD_cons, start] at holds
      cases holds
      cases Construction.dot_of_mem_startItems member
  | push target state below symbol symbols belowItems linked belowHolds leads enters =>
      exact ⟨target, _, symbol, rfl, symbols,
        .push target state below symbol symbols belowItems linked belowHolds leads enters⟩

/-- A state reached over the symbol after the dot can be entered. -/
theorem enters (stands : grammar.Stands states item) {items : ItemSet}
    (holds : grammar.construction.collection.sets[states.headD 0]? = some items)
    (member : item ∈ items)
    (next : item.nextSymbol grammar.construction.grammar = some symbol)
    (reached : grammar.construction.collection.sets[target]? =
      some (grammar.construction.goto items symbol)) : grammar.Entered target states symbol := by
  obtain ⟨symbols, linked⟩ := stands.linked
  obtain ⟨state, below, _, rfl, _⟩ := linked.exists_top
  have leads := Construction.goto_ne_nil_iff.mpr ⟨item, member, next⟩
  exact ⟨symbols, .push target state below symbol symbols items linked holds leads reached⟩

/-- An item that is past some symbols was before them further down. -/
theorem fall {count : Nat} (stands : grammar.Stands states ⟨index, dot + count, lookahead⟩) :
    grammar.Stands (states.drop count) ⟨index, dot, lookahead⟩ := by
  induction count generalizing states with
  | zero => exact stands
  | succ count ih =>
      obtain ⟨target, below, symbol, rfl, entered⟩ := exists_entered stands
      exact ih (entered.before stands).1

/-- An item at its beginning rises with another one if both bodies begin with the symbols on top. -/
theorem rise (stands : grammar.Stands states ⟨other, dot, lookahead⟩)
    (begins : grammar.Stands (states.drop dot) ⟨index, 0, ahead⟩)
    (same : (grammar.construction.grammar.bodyOf index).take dot =
      (grammar.construction.grammar.bodyOf other).take dot) :
    grammar.Stands states ⟨index, dot, ahead⟩ := by
  induction dot generalizing states with
  | zero => exact begins
  | succ dot ih =>
      obtain ⟨target, below, symbol, rfl, entered⟩ := exists_entered stands
      obtain ⟨under, next⟩ := entered.before stands
      have shorter := congrArg (List.take dot) same
      rw [List.take_take, List.take_take, Nat.min_eq_left (Nat.le_succ dot)] at shorter
      have last := congrArg (fun body => body[dot]?) same
      simp only [List.getElem?_take_of_lt (Nat.lt_succ_self dot)] at last
      exact entered.after (ih under begins shorter) (last.trans next)

/-- Two items on top of a stack are past the same symbol. -/
theorem symbol_unique {place : Nat} (stands : grammar.Stands states ⟨index, dot + 1, lookahead⟩)
    (also : grammar.Stands states ⟨other, place + 1, ahead⟩) :
    (grammar.construction.grammar.bodyOf index)[dot]? =
      (grammar.construction.grammar.bodyOf other)[place]? := by
  obtain ⟨target, below, symbol, rfl, entered⟩ := exists_entered stands
  rw [(entered.before stands).2, (entered.before also).2]

/-- Where a production begins, an item calls for it. -/
theorem exists_calling (stands : grammar.Stands states ⟨index, 0, lookahead⟩)
    (wellFormed : grammar.WellFormed) {production : Production}
    (found : grammar.productions[index]? = some production) :
    ∃ caller rest, grammar.Stands states caller ∧
      (grammar.construction.grammar.bodyOf caller.production).drop caller.dot =
        .nonterminal production.head :: rest ∧
      lookahead ∈ grammar.construction.first.lookahead rest caller.lookahead := by
  obtain ⟨items, holds, member⟩ := stands.holds
  have reachable := wellFormed.proper.collection_complete.reachable_of holds
  obtain ⟨caller, inside, called, _⟩ := wellFormed.exists_calling reachable found member
  obtain ⟨calling, rest, drop, known, _, follows⟩ := wellFormed.exists_called called
  rw [found] at known
  cases known
  exact ⟨caller, rest, ⟨stands.linked, items, holds, inside⟩, drop, follows⟩

/-- The productions of a nonterminal begin together. -/
theorem sibling (stands : grammar.Stands states ⟨index, 0, lookahead⟩)
    (wellFormed : grammar.WellFormed) {production also : Production}
    (found : grammar.productions[index]? = some production)
    (alsoFound : grammar.productions[other]? = some also) (same : also.head = production.head) :
    grammar.Stands states ⟨other, 0, lookahead⟩ := by
  obtain ⟨caller, rest, calling, drop, follows⟩ := stands.exists_calling wellFormed found
  rw [← same] at drop
  exact (calling.call wellFormed drop (construction_of_found alsoFound) follows).1

end Stands

end Grammar

end ThreeAddress

import ThreeAddress.Proofs.Item.Outline
import ThreeAddress.Proofs.Language.Evaluation
import ThreeAddress.Proofs.Run.Climb

/-!
Which items of the language compete for a cell of the action table. There are two pairs of them: a
number before a semicolon can be a factor or the value of an assignment, and after the branch of a
conditional an `else` can end the conditional or go on with it. All other items get what they ask
for, and of the two pairs the one with the smaller production does.

Symbols and productions are numbered as in the rules: nonterminal 7 is `stmt`, 8 is `loc` and 10 is
`bool`; token 2 is `;`, 7 is `=`, 9 is `num` and 13 is `else`; production 12 assigns a number, 13 and
14 are the conditionals without and with `else`, and 45 is `factor -> num`.
-/

set_option autoImplicit false

namespace ThreeAddress

namespace Construction

variable {construction : Construction} {items : ItemSet} {item other : Item} {id : Nat}
  {choice different : Choice}

/-- An item asks for the token after its dot, or for what the lookahead lets it end with. -/
theorem wish?_cases (wish : construction.wish? id item = some choice) :
    (item.nextSymbol construction.grammar = some (.token id) ∧ choice = .shift) ∨
      (item.nextSymbol construction.grammar = none ∧ item.lookahead = id ∧
        choice = if item.production = construction.acceptProduction ∧
          id = construction.eof then .accept else .reduce item.production) := by
  unfold wish? at wish
  split at wish
  · rename_i token next
    split at wish
    · rename_i same
      cases wish
      exact .inl ⟨same ▸ next, rfl⟩
    · cases wish
  · cases wish
  · rename_i next
    split at wish
    · rename_i same
      subst same
      refine .inr ⟨next, rfl, ?_⟩
      split at wish
      · rename_i last
        cases wish
        rw [if_pos last]
      · rename_i inner
        cases wish
        rw [if_neg inner]
    · cases wish

theorem wish?_of_token (next : item.nextSymbol construction.grammar = some (.token id)) :
    construction.wish? id item = some .shift := by
  rw [wish?, next]
  exact if_pos rfl

theorem wish?_of_ended (ends : item.nextSymbol construction.grammar = none)
    (inner : item.production ≠ construction.acceptProduction) :
    construction.wish? item.lookahead item = some (.reduce item.production) := by
  rw [wish?, ends]
  simp only [↓reduceIte, inner, false_and]

theorem wish?_of_outermost (ends : item.nextSymbol construction.grammar = none)
    (last : item.production = construction.acceptProduction)
    (ahead : item.lookahead = construction.eof) :
    construction.wish? item.lookahead item = some .accept := by
  rw [wish?, ends]
  simp only [↓reduceIte, last, ahead, and_self]

theorem eq_of_wish?_token {token : Nat}
    (next : item.nextSymbol construction.grammar = some (.token token))
    (wish : construction.wish? id item = some choice) : id = token := by
  rcases wish?_cases wish with ⟨same, _⟩ | ⟨ends, _⟩
  · rw [next] at same
    cases same
    rfl
  · rw [next] at ends
    cases ends

theorem lookahead_of_wish? (ends : item.nextSymbol construction.grammar = none)
    (wish : construction.wish? id item = some choice) : item.lookahead = id := by
  rcases wish?_cases wish with ⟨next, _⟩ | ⟨_, ahead, _⟩
  · rw [ends] at next
    cases next
  · exact ahead

/-- An item decides unless one before it asks for something else. -/
theorem choice?_of_first (strict : Ascending.Strict items) (member : item ∈ items)
    (wish : construction.wish? id item = some choice)
    (first : ∀ other ∈ items, compare other item = .lt → ∀ different,
      construction.wish? id other = some different → different = choice) :
    construction.choice? items id = some choice := by
  unfold choice?
  induction items with
  | nil => cases member
  | cons head rest ih =>
      obtain ⟨before, strictRest⟩ := (Ascending.strict_cons head rest).mp strict
      rw [List.findSome?_cons]
      rcases List.mem_cons.mp member with rfl | later
      · rw [wish]
      · cases asked : construction.wish? id head with
        | none =>
            exact ih strictRest later fun other inside =>
              first other (List.mem_cons_of_mem head inside)
        | some different =>
            rw [first head List.mem_cons_self (before item later) different asked]

/-- Items of a set that ask for different things are rivals. -/
theorem Reachable.mem_rivals_of_wish? (proper : construction.Proper)
    (reachable : construction.Reachable items) {followers : TokenSets} {fuel : Nat}
    {rivals : List (Core × Core)} (followed : construction.followedBy followers = true)
    (starts : construction.startsBefore followers = true)
    (competing : construction.competes followers fuel rivals = true) (member : item ∈ items)
    (otherMember : other ∈ items) (wish : construction.wish? id item = some choice)
    (otherWish : construction.wish? id other = some different) (apart : different ≠ choice) :
    (item.nextSymbol construction.grammar = none ∧ (item.core, other.core) ∈ rivals) ∨
      (other.nextSymbol construction.grammar = none ∧ (other.core, item.core) ∈ rivals) := by
  rcases wish?_cases wish with ⟨next, chosen⟩ | ⟨ends, ahead, chosen⟩
  · rcases wish?_cases otherWish with ⟨_, otherChosen⟩ | ⟨otherEnds, otherAhead, _⟩
    · exact absurd (otherChosen.trans chosen.symm) apart
    · subst otherAhead
      exact .inr ⟨otherEnds, reachable.mem_rivals proper followed starts competing otherMember member
        otherEnds (.inl next)⟩
  · subst ahead
    rcases wish?_cases otherWish with ⟨otherNext, _⟩ | ⟨otherEnds, otherAhead, otherChosen⟩
    · exact .inl ⟨ends, reachable.mem_rivals proper followed starts competing member otherMember ends
        (.inl otherNext)⟩
    · refine .inl ⟨ends, reachable.mem_rivals proper followed starts competing member otherMember ends
        (.inr ⟨otherEnds, otherAhead, ?_⟩)⟩
      intro same
      rw [same, ← chosen] at otherChosen
      exact apart otherChosen

end Construction

namespace Choice

/-- A choice means one action only. -/
theorem Means.unique {construction : Construction} {collection : Collection}
    (complete : Collection.Complete construction collection) {state id : Nat} {items : ItemSet}
    (holds : collection.sets[state]? = some items) {item : Item} (member : item ∈ items)
    {choice : Choice} (wish : construction.wish? id item = some choice) {action other : Action}
    (means : choice.Means construction collection.sets items id action)
    (also : choice.Means construction collection.sets items id other) : action = other := by
  cases means with
  | shift target enters =>
      cases also with
      | shift reached otherEnters =>
          rcases Construction.wish?_cases wish with ⟨next, _⟩ | ⟨_, _, chosen⟩
          · have leads := Construction.goto_ne_nil_iff.mpr ⟨item, member, next⟩
            have first := (complete.lookup_iff holds).mpr ⟨leads, enters⟩
            have second := (complete.lookup_iff holds).mpr ⟨leads, otherEnters⟩
            rw [first] at second
            cases second
            rfl
          · split at chosen <;> cases chosen
  | reduce _ =>
      cases also
      rfl
  | accept =>
      cases also
      rfl

end Choice

namespace Language

/-- The tokens that can follow the nonterminals, in order. -/
def followers : TokenSets :=
  ⟨[[32], [0, 1, 8, 12, 13, 14, 15, 16, 32]] ++ List.replicate 2 [0, 1, 8, 11, 12, 14, 15, 16] ++
    List.replicate 2 [3, 8] ++ [[0, 1, 8, 12, 14, 15, 16], [0, 1, 8, 12, 13, 14, 15, 16]] ++
    List.replicate 2 ([2, 3, 6, 7] ++ List.range' 19 12) ++ [[2, 6, 19], [2, 6, 19, 20]] ++
    List.replicate 2 [2, 6, 19, 20, 21, 22] ++ [[2, 6] ++ List.range' 19 10] ++
    List.replicate 3 ([2, 6] ++ List.range' 19 12) ++ List.replicate 2 [0, 8, 12, 14, 15, 16] ++
    [[0, 5, 8, 12, 14, 15, 16], [0, 8, 12, 14, 15, 16], [0], [32]]⟩

/-- The pairs that compete: `factor -> num .` with `stmt -> loc = num . ;`, and the short conditional
at its end with the long one before `else`. -/
def rivals : List (Core × Core) := [(⟨45, 1⟩, ⟨12, 3⟩), (⟨13, 6⟩, ⟨14, 6⟩)]

/-- The productions from `stmts -> stmts stmt` to `stmt -> do ...`, which are numbers 9 to 16. -/
def statements : List Production :=
  [⟨6, [.nonterminal 6, .nonterminal 7]⟩,
   ⟨6, []⟩,
   ⟨7, [.nonterminal 8, .token 7, .nonterminal 10, .token 2]⟩,
   ⟨7, [.nonterminal 8, .token 7, .token 9, .token 2]⟩,
   ⟨7, [.token 12, .token 5, .nonterminal 10, .token 6, .nonterminal 18, .nonterminal 7]⟩,
   ⟨7, [.token 12, .token 5, .nonterminal 10, .token 6, .nonterminal 18, .nonterminal 7, .token 13,
     .nonterminal 19, .nonterminal 7]⟩,
   ⟨7, [.token 14, .nonterminal 20, .token 5, .nonterminal 10, .token 6, .nonterminal 21,
     .nonterminal 7]⟩,
   ⟨7, [.token 15, .nonterminal 20, .nonterminal 7, .token 14, .token 5, .nonterminal 10, .token 6,
     .token 2]⟩]

/-- Where a statement can come next: in a sequence, in the branches of conditionals and in loops. -/
def statementPlaces : List Core := [⟨9, 1⟩, ⟨13, 5⟩, ⟨14, 5⟩, ⟨14, 8⟩, ⟨15, 6⟩, ⟨16, 2⟩]

/-- The symbols that expressions are made of. A semicolon is not among them. -/
def InExpression : Symbol → Prop
  | .token id => id ≠ 2
  | .nonterminal id => 8 ≤ id ∧ id ≤ 17

instance : DecidablePred InExpression
  | .token id => inferInstanceAs (Decidable (id ≠ 2))
  | .nonterminal id => inferInstanceAs (Decidable (8 ≤ id ∧ id ≤ 17))

/-- What is computed from the rules. All of it is in one check, since most of the work is to build
the grammar. -/
theorem computed :
    construction.followedBy followers = true ∧ construction.startsBefore followers = true ∧
      construction.competes followers 1000 rivals = true ∧
      construction.grammar.productions.length = 55 ∧
      (construction.grammar.productions.drop 9).take 8 = statements ∧
      construction.grammar.places (.nonterminal 7) = statementPlaces ∧
      construction.grammar.places (.token 7) = [⟨11, 1⟩, ⟨12, 1⟩] ∧ grammar.start = 0 ∧
      ∀ production ∈ grammar.productions, InExpression (.nonterminal production.head) →
        ∀ symbol ∈ production.body, InExpression symbol := by
  decide +kernel

theorem followed : grammar.construction.followedBy followers = true := by
  rw [construction_eq]
  exact computed.1

theorem starts : grammar.construction.startsBefore followers = true := by
  rw [construction_eq]
  exact computed.2.1

theorem competing : grammar.construction.competes followers 1000 rivals = true := by
  rw [construction_eq]
  exact computed.2.2.1

/-- Where a statement comes next is listed. -/
theorem mem_statementPlaces {core : Core}
    (next : core.next grammar.construction.grammar = some (.nonterminal 7)) :
    core ∈ statementPlaces := by
  rw [← computed.2.2.2.2.2.1]
  exact Grammar.mem_places next

theorem mem_equalsPlaces {core : Core}
    (next : core.next grammar.construction.grammar = some (.token 7)) :
    core ∈ ([⟨11, 1⟩, ⟨12, 1⟩] : List Core) := by
  rw [← computed.2.2.2.2.2.2.1]
  exact Grammar.mem_places next

theorem start_eq : grammar.start = 0 := computed.2.2.2.2.2.2.2.1

theorem inExpression_of_head : ∀ production ∈ grammar.productions,
    InExpression (.nonterminal production.head) → ∀ symbol ∈ production.body, InExpression symbol :=
  computed.2.2.2.2.2.2.2.2

theorem productions_length : grammar.productions.length = 54 := by
  have length := computed.2.2.2.1
  change grammar.construction.grammar.productions.length = 55 at length
  rw [Grammar.construction_productions, List.length_append, List.length_singleton] at length
  omega

/-- The productions of statements are where they are listed. -/
theorem statement_found (index : Nat) {production : Production}
    (listed : statements[index]? = some production) :
    grammar.productions[9 + index]? = some production := by
  have bound : index < 8 := (List.getElem?_eq_some_iff.mp listed).1
  rw [← computed.2.2.2.2.1, List.getElem?_take_of_lt bound, List.getElem?_drop] at listed
  rcases wellFormed.construction_found listed with ⟨old, _⟩ | ⟨last, _⟩
  · exact old
  · rw [productions_length] at last
    omega

theorem statement_body (index : Nat) {production : Production}
    (listed : statements[index]? = some production) :
    grammar.construction.grammar.bodyOf (9 + index) = production.body :=
  Grammar.bodyOf_eq (Grammar.construction_of_found (statement_found index listed))

section Cells

variable {states : List Nat} {items : ItemSet} {item : Item} {id : Nat} {choice : Choice}
  {action : Action}

/-- An item gets what it asks for, unless it is a factor that could be the value of an assignment or
an `else` that could end a conditional. -/
theorem cell_of_wish? (stands : grammar.Stands states item)
    (holds : grammar.construction.collection.sets[states.headD 0]? = some items)
    (known : id < grammar.construction.grammar.tokens.length)
    (wish : grammar.construction.wish? id item = some choice)
    (means : choice.Means grammar.construction grammar.construction.collection.sets items id action) :
    ParseTable.cell (ParseTable.ofGrammar grammar).tables.action (states.headD 0) id = .ok action ∨
      (item.nextSymbol grammar.construction.grammar = none ∧ item.core = ⟨45, 1⟩ ∧ id = 2 ∧
        ∃ ahead, grammar.Stands states ⟨12, 3, ahead⟩) ∨
      (item.core = ⟨14, 6⟩ ∧ grammar.Stands states ⟨13, 6, 13⟩) := by
  have proper := wellFormed.proper
  have complete := proper.collection_complete
  have reachable := complete.reachable_of holds
  have member : item ∈ items := by
    obtain ⟨found, same, inside⟩ := stands.holds
    rw [holds] at same
    cases same
    exact inside
  by_cases first : ∀ other ∈ items, compare other item = .lt → ∀ different,
      grammar.construction.wish? id other = some different → different = choice
  · have chosen := Construction.choice?_of_first (reachable.strict proper) member wish first
    obtain ⟨entry, kept, same⟩ := complete.cell_of_choice? holds known chosen
    rw [Choice.Means.unique complete holds member wish means same]
    exact .inl kept
  · push Not at first
    obtain ⟨other, inside, before, different, otherWish, apart⟩ := first
    have earlier := Item.production_le_of_lt before
    have rival := reachable.mem_rivals_of_wish? proper followed starts competing member inside wish
      otherWish apart
    have competitor : grammar.Stands states other := ⟨stands.linked, items, holds, inside⟩
    obtain ⟨index, dot, ahead⟩ := item
    obtain ⟨otherIndex, otherDot, otherAhead⟩ := other
    simp only [rivals, Item.core, List.mem_cons, List.not_mem_nil, or_false, Prod.mk.injEq,
      Core.mk.injEq] at rival
    rcases rival with ⟨ends, ⟨⟨rfl, rfl⟩, rfl, rfl⟩ | ⟨⟨rfl, rfl⟩, rfl, rfl⟩⟩ |
      ⟨ends, ⟨⟨rfl, rfl⟩, rfl, rfl⟩ | ⟨⟨rfl, rfl⟩, rfl, rfl⟩⟩
    · have semicolon := Construction.eq_of_wish?_token
        (by rw [Item.nextSymbol, statement_body 3 rfl]; rfl) otherWish
      exact .inr (.inl ⟨ends, rfl, semicolon, otherAhead, competitor⟩)
    · exact absurd earlier (Nat.not_le_of_lt (Nat.lt_succ_self 13))
    · exact absurd earlier (Nat.not_le_of_lt (show 12 < 45 by omega))
    · have otherwise := Construction.eq_of_wish?_token
        (by rw [Item.nextSymbol, statement_body 5 rfl]; rfl) wish
      have ahead := Construction.lookahead_of_wish? ends otherWish
      rw [otherwise] at ahead
      cases ahead
      exact .inr (.inr ⟨rfl, competitor⟩)

end Cells

end Language

end ThreeAddress

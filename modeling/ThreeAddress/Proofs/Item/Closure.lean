import ThreeAddress.Proofs.Grammar.First

/-!
The closure of a set of items is the least set that holds it and whatever its members call for.
-/

set_option autoImplicit false

namespace ThreeAddress

namespace Corner

/-- The tokens that a corner passes on to its target. -/
def demand (corner : Corner) (expected : TokenSets) : List Nat :=
  match expected.get corner.head with
  | [] => []
  | tokens => if corner.passes then Ascending.union corner.first tokens else corner.first

theorem spread_eq (expected : TokenSets) (corner : Corner) :
    corner.spread expected = expected.add corner.target (corner.demand expected) := by
  unfold spread demand
  cases expected.get corner.head with
  | nil => exact (TokenSets.add_nil expected corner.target).symm
  | cons token rest => rfl

theorem mem_demand {corner : Corner} {expected : TokenSets} {token : Nat}
    (member : token ∈ corner.demand expected) :
    ∃ after ∈ expected.get corner.head,
      token ∈ corner.first ∨ (corner.passes = true ∧ token = after) := by
  unfold demand at member
  split at member
  · cases member
  · rename_i tokens some
    obtain ⟨first, found⟩ := List.exists_mem_of_ne_nil _ some
    split at member
    · rename_i passes
      rcases (Ascending.mem_union token _ _).mp member with begins | follows
      · exact ⟨first, found, .inl begins⟩
      · exact ⟨token, follows, .inr ⟨passes, rfl⟩⟩
    · exact ⟨first, found, .inl member⟩

theorem demand_mem {corner : Corner} {expected : TokenSets} {after token : Nat}
    (follows : after ∈ expected.get corner.head)
    (begins : token ∈ corner.first ∨ (corner.passes = true ∧ token = after)) :
    token ∈ corner.demand expected := by
  unfold demand
  split
  · rename_i none
    rw [none] at follows
    cases follows
  · rcases begins with first | ⟨passes, rfl⟩
    · split
      · exact (Ascending.mem_union token _ _).mpr (.inl first)
      · exact first
    · rw [if_pos passes]
      exact (Ascending.mem_union token _ _).mpr (.inr follows)

end Corner

/-- A construction over a grammar that uses only its own symbols and has a production to accept by,
with the first sets of that grammar. -/
structure Construction.Proper (construction : Construction) : Prop where
  inRange : construction.grammar.InRange
  first_eq : construction.first = construction.grammar.firstSets
  accept_lt : construction.acceptProduction < construction.grammar.productions.length

theorem Grammar.WellFormed.proper {grammar : Grammar} (wellFormed : grammar.WellFormed) :
    grammar.construction.Proper := by
  refine ⟨wellFormed.construction_inRange, rfl, ?_⟩
  rw [wellFormed.acceptProduction_eq, construction_productions, List.length_append,
    List.length_singleton]
  exact Nat.lt_succ_self _

namespace Grammar

variable {grammar : Grammar}

theorem bodyOf_eq {index : Nat} {production : Production}
    (found : grammar.productions[index]? = some production) :
    grammar.bodyOf index = production.body := by
  rw [bodyOf, found, Option.map_some, Option.getD_some]

theorem InRange.has_of_mem_bodyOf (inRange : grammar.InRange) {index : Nat} {symbol : Symbol}
    (member : symbol ∈ grammar.bodyOf index) : grammar.Has symbol := by
  cases found : grammar.productions[index]? with
  | none =>
      rw [bodyOf, found] at member
      cases member
  | some production =>
      rw [bodyOf_eq found] at member
      exact inRange.body_has production (List.mem_of_getElem? found) symbol member

end Grammar

namespace Construction

variable {construction : Construction}

theorem expectation?_eq_some {item : Item} {target : Nat} {lookaheads : List Nat}
    (expects : construction.expectation? item = some (target, lookaheads)) :
    ∃ rest, (construction.grammar.bodyOf item.production).drop item.dot =
        .nonterminal target :: rest ∧
      lookaheads = construction.first.lookahead rest item.lookahead := by
  unfold expectation? at expects
  split at expects
  · rename_i other rest drop
    cases expects
    exact ⟨rest, drop, rfl⟩
  · cases expects

theorem expectation?_of_drop {item : Item} {target : Nat} {rest : List Symbol}
    (drop : (construction.grammar.bodyOf item.production).drop item.dot =
      .nonterminal target :: rest) :
    construction.expectation? item =
      some (target, construction.first.lookahead rest item.lookahead) := by
  rw [expectation?, drop]

theorem mem_closureStep {item next : Item} :
    next ∈ construction.closureStep item ↔
      ∃ target rest production token,
        (construction.grammar.bodyOf item.production).drop item.dot = .nonterminal target :: rest ∧
        production ∈ construction.grammar.productionsOf target ∧
        token ∈ construction.first.lookahead rest item.lookahead ∧
        next = .initial production token := by
  constructor
  · intro member
    unfold closureStep at member
    split at member
    · cases member
    · rename_i target lookaheads expects
      obtain ⟨rest, drop, rfl⟩ := expectation?_eq_some expects
      obtain ⟨production, headed, listed⟩ := List.mem_flatMap.mp member
      obtain ⟨token, follows, rfl⟩ := List.mem_map.mp listed
      exact ⟨target, rest, production, token, drop, headed, follows, rfl⟩
  · rintro ⟨target, rest, production, token, drop, headed, follows, rfl⟩
    rw [closureStep, expectation?_of_drop drop]
    exact List.mem_flatMap.mpr ⟨production, headed, List.mem_map_of_mem follows⟩

/-- A corner is a production whose body begins with its target. -/
theorem mem_corners {corner : Corner} (member : corner ∈ construction.corners) :
    ∃ (index : Nat) (production : Production) (rest : List Symbol),
      construction.grammar.productions[index]? = some production ∧
      production.body = .nonterminal corner.target :: rest ∧ production.head = corner.head ∧
      corner.first = construction.first.sequenceFirst rest ∧
      corner.passes = rest.all construction.first.isNullable := by
  obtain ⟨production, listed, made⟩ := List.mem_filterMap.mp member
  obtain ⟨index, found⟩ := List.getElem?_of_mem listed
  unfold FirstSets.corner? at made
  split at made
  · rename_i target rest body
    cases made
    exact ⟨index, production, rest, found, body, rfl, rfl, rfl⟩
  · cases made

theorem corner_mem {production : Production}
    (member : production ∈ construction.grammar.productions) {target : Nat} {rest : List Symbol}
    (body : production.body = .nonterminal target :: rest) :
    (⟨production.head, target, construction.first.sequenceFirst rest,
      rest.all construction.first.isNullable⟩ : Corner) ∈ construction.corners := by
  refine List.mem_filterMap.mpr ⟨production, member, ?_⟩
  rw [FirstSets.corner?, body]

theorem mem_initialItems {expected : TokenSets} {item : Item} :
    item ∈ construction.initialItems expected ↔ item.dot = 0 ∧
      ∃ production, construction.grammar.productions[item.production]? = some production ∧
        item.lookahead ∈ expected.get production.head := by
  unfold initialItems
  rw [List.mem_flatMap]
  constructor
  · rintro ⟨⟨production, index⟩, listed, member⟩
    obtain ⟨token, follows, rfl⟩ := List.mem_map.mp member
    exact ⟨rfl, production, List.mem_zipIdx_iff_getElem?.mp listed, follows⟩
  · rintro ⟨atStart, production, found, follows⟩
    refine ⟨(production, item.production), List.mem_zipIdx_iff_getElem?.mpr found, ?_⟩
    refine List.mem_map.mpr ⟨item.lookahead, follows, ?_⟩
    rw [Item.initial, ← atStart]

theorem mem_closure {items : ItemSet} {item : Item} :
    item ∈ construction.closure items ↔ item ∈ items ∨
      item ∈ construction.initialItems (construction.expected items) :=
  Ascending.mem_union item _ _

/-- Every token expected stands in an initial item of which the predicate holds. -/
def Justified (construction : Construction) (holds : Item → Prop) (expected : TokenSets) : Prop :=
  ∀ target token, token ∈ expected.get target →
    ∀ production ∈ construction.grammar.productionsOf target, holds (.initial production token)

variable {holds : Item → Prop} (inRange : construction.grammar.InRange)
  (calls : ∀ item, holds item → ∀ next ∈ construction.closureStep item, holds next)

include calls

theorem justified_expectedBy {items : ItemSet} (base : ∀ item ∈ items, holds item) :
    construction.Justified holds (construction.expectedBy items) := by
  refine List.foldlRecOn items _ ?_ ?_
  · intro target token member
    rw [TokenSets.get_empty] at member
    cases member
  · intro expected justified item listed
    split
    · exact justified
    · rename_i target lookaheads expects
      obtain ⟨after, drop, rfl⟩ := expectation?_eq_some expects
      intro other token member production headed
      rcases TokenSets.mem_get_add member with old | ⟨rfl, new⟩
      · exact justified other token old production headed
      · exact calls item (base item listed) _
          (mem_closureStep.mpr ⟨target, after, production, token, drop, headed, new, rfl⟩)

include inRange

theorem justified_spread {corner : Corner} (member : corner ∈ construction.corners)
    {expected : TokenSets} (justified : construction.Justified holds expected) :
    construction.Justified holds (corner.spread expected) := by
  intro target token inNew production headed
  rw [Corner.spread_eq] at inNew
  rcases TokenSets.mem_get_add inNew with old | ⟨rfl, new⟩
  · exact justified target token old production headed
  · -- The corner's own production is an item that calls for the new one.
    obtain ⟨index, source, rest, found, body, head, first, passes⟩ := mem_corners member
    obtain ⟨after, follows, begins⟩ := Corner.mem_demand new
    have sourceHeaded : index ∈ construction.grammar.productionsOf corner.head := by
      rw [inRange.mem_productionsOf, found, Option.map_some, head]
    refine calls _ (justified corner.head after follows index sourceHeaded) _ ?_
    refine mem_closureStep.mpr ⟨corner.target, rest, production, token, ?_, headed, ?_, rfl⟩
    · rw [Item.initial, Grammar.bodyOf_eq found, List.drop_zero, body]
    · rw [FirstSets.mem_lookahead, ← first, ← passes]
      exact begins

theorem justified_expected {items : ItemSet} (base : ∀ item ∈ items, holds item) :
    construction.Justified holds (construction.expected items) := by
  refine settle_induction ?_ _ _ (justified_expectedBy calls base)
  intro expected justified
  exact List.foldlRecOn construction.corners _ justified
    fun _ kept _ member => justified_spread inRange calls member kept

/-- What holds of the items, and of everything that such items call for, holds of the closure. -/
theorem closure_least {items : ItemSet} (base : ∀ item ∈ items, holds item) :
    ∀ item ∈ construction.closure items, holds item := by
  intro item member
  rcases mem_closure.mp member with given | added
  · exact base item given
  · obtain ⟨atStart, production, found, follows⟩ := mem_initialItems.mp added
    have headed : item.production ∈ construction.grammar.productionsOf production.head := by
      rw [inRange.mem_productionsOf, found, Option.map_some]
    have initial := justified_expected inRange calls base production.head item.lookahead follows
      item.production headed
    rwa [Item.initial, ← atStart] at initial

omit inRange calls

/-- The tokens of the grammar and the lookaheads of the items. -/
def alphabetOf (construction : Construction) (items : ItemSet) : List Nat :=
  construction.grammar.alphabet ++ items.map Item.lookahead

namespace Proper

variable (proper : construction.Proper)

include proper

theorem first_within : TokenSets.Within construction.grammar.nonterminals.length
    construction.grammar.alphabet construction.first.first := by
  rw [proper.first_eq]
  exact proper.inRange.firstSets_within

theorem first_within_alphabetOf (items : ItemSet) :
    TokenSets.Within construction.grammar.nonterminals.length (construction.alphabetOf items)
      construction.first.first := by
  have within := proper.first_within
  exact ⟨within.length_eq, within.strict,
    fun row member token inRow => List.mem_append_left _ (within.inside row member token inRow)⟩

theorem growing_spread (items : ItemSet) (corner : Corner)
    (member : corner ∈ construction.corners) :
    Growing (TokenSets.Within construction.grammar.nonterminals.length
      (construction.alphabetOf items)) TokenSets.size (fun expected => corner.spread expected) := by
  obtain ⟨index, source, rest, found, body, _, first, _⟩ := mem_corners member
  have firstWithin := proper.first_within_alphabetOf items
  have firstStrict : Ascending.Strict corner.first := by
    rw [first]
    exact FirstSets.strict_sequenceFirst firstWithin rest
  have firstInside : ∀ token ∈ corner.first, token ∈ construction.alphabetOf items := by
    intro token begins
    rw [first] at begins
    refine FirstSets.sequenceFirst_inside firstWithin (fun id listed => ?_) begins
    refine List.mem_append_left _ (proper.inRange.token_mem_alphabet
      (List.mem_of_getElem? found) ?_)
    rw [body]
    exact List.mem_cons_of_mem _ listed
  simp only [Corner.spread_eq]
  refine TokenSets.growing_add corner.target _ ?_ ?_
  · intro expected within
    unfold Corner.demand
    split
    · exact Ascending.strict_nil
    · split
      · exact Ascending.strict_union _ _ firstStrict (within.strict_get corner.head)
      · exact firstStrict
  · intro expected within token demanded
    obtain ⟨after, follows, begins | ⟨_, rfl⟩⟩ := Corner.mem_demand demanded
    · exact firstInside token begins
    · exact within.mem_get follows

theorem expectedBy_within (items : ItemSet) :
    TokenSets.Within construction.grammar.nonterminals.length (construction.alphabetOf items)
      (construction.expectedBy items) := by
  have firstWithin := proper.first_within_alphabetOf items
  refine List.foldlRecOn items _ TokenSets.within_empty ?_
  intro expected within item listed
  split
  · exact within
  · rename_i target lookaheads expects
    obtain ⟨rest, drop, rfl⟩ := expectation?_eq_some expects
    refine (TokenSets.growing_add target
      (fun _ => construction.first.lookahead rest item.lookahead) ?_ ?_).keeps expected within
    · intro _ _
      unfold FirstSets.lookahead
      split
      · exact Ascending.strict_insert _ _ (FirstSets.strict_sequenceFirst firstWithin rest)
      · exact FirstSets.strict_sequenceFirst firstWithin rest
    · intro _ _ token follows
      rcases FirstSets.mem_lookahead.mp follows with begins | ⟨_, rfl⟩
      · refine FirstSets.sequenceFirst_inside firstWithin (fun id inRest => ?_) begins
        have inBody : Symbol.token id ∈ construction.grammar.bodyOf item.production :=
          List.mem_of_mem_drop (drop ▸ List.mem_cons_of_mem _ inRest)
        exact List.mem_append_left _
          (Grammar.mem_alphabet.mpr (proper.inRange.has_of_mem_bodyOf inBody))
      · exact List.mem_append_right _ (List.mem_map_of_mem listed)

theorem expected_within (items : ItemSet) :
    TokenSets.Within construction.grammar.nonterminals.length (construction.alphabetOf items)
      (construction.expected items) :=
  settle_induction (Growing.foldl (proper.growing_spread items)).keeps _ _
    (proper.expectedBy_within items)

/-- The propagation has come to rest: no corner has anything left to pass on. -/
theorem spread_expected (items : ItemSet) {corner : Corner}
    (member : corner ∈ construction.corners) :
    corner.spread (construction.expected items) = construction.expected items := by
  have growing := proper.growing_spread items
  have bounded : ∀ expected : TokenSets,
      TokenSets.Within construction.grammar.nonterminals.length (construction.alphabetOf items)
        expected → expected.size ≤ construction.grammar.nonterminals.length *
          (construction.grammar.tokens.length + items.length) := by
    intro expected within
    have small := within.size_le
    rwa [alphabetOf, List.length_append, Grammar.alphabet_length, List.length_map] at small
  have rest := (Growing.foldl growing).settle_fixed bounded
    (construction.grammar.nonterminals.length *
      (construction.grammar.tokens.length + items.length) + 1)
    (construction.expectedBy items) (proper.expectedBy_within items) (by omega)
  exact Growing.foldl_fixed growing (construction.expected items) (proper.expected_within items)
    rest corner member

end Proper

theorem mem_expectedBy {items : ItemSet} {item : Item} (member : item ∈ items) {target : Nat}
    {rest : List Symbol}
    (drop : (construction.grammar.bodyOf item.production).drop item.dot =
      .nonterminal target :: rest)
    (known : target < construction.grammar.nonterminals.length) {token : Nat}
    (follows : token ∈ construction.first.lookahead rest item.lookahead) :
    token ∈ (construction.expectedBy items).get target := by
  obtain ⟨front, back, rfl⟩ := List.append_of_mem member
  rw [expectedBy, List.foldl_append, List.foldl_cons, expectation?_of_drop drop]
  generalize seen : List.foldl _ (TokenSets.empty _) front = expected
  have length_eq : expected.rows.length = construction.grammar.nonterminals.length := by
    rw [← seen]
    refine List.foldlRecOn (motive := fun sets : TokenSets => sets.rows.length = _) front _
      List.length_replicate ?_
    intro sets same _ _
    split
    · exact same
    · rw [TokenSets.add_length, same]
  have added : token ∈ (expected.add target
      (construction.first.lookahead rest item.lookahead)).get target := by
    rw [TokenSets.get_add_same _ _ _ (by omega)]
    exact (Ascending.mem_union token _ _).mpr (.inl follows)
  refine List.foldlRecOn (motive := fun sets : TokenSets => token ∈ sets.get target) back _ added ?_
  intro sets kept _ _
  split
  · exact kept
  · exact TokenSets.le_add _ _ _ target token kept

theorem expectedBy_le (items : ItemSet) :
    (construction.expectedBy items).Le (construction.expected items) := by
  refine settle_induction (motive := (construction.expectedBy items).Le) ?_ _ _ (.refl _)
  intro expected larger
  refine List.foldlRecOn construction.corners _ larger ?_
  intro sets kept corner _
  rw [Corner.spread_eq]
  exact kept.trans (TokenSets.le_add _ _ _)

/-- Whatever a member of the closure calls for is in the closure. -/
theorem Proper.closure_closed (proper : construction.Proper) {items : ItemSet} {item next : Item}
    (member : item ∈ construction.closure items) (called : next ∈ construction.closureStep item) :
    next ∈ construction.closure items := by
  obtain ⟨target, rest, index, token, drop, headed, follows, rfl⟩ := mem_closureStep.mp called
  obtain ⟨production, found, head⟩ := Option.map_eq_some_iff.mp
    (proper.inRange.mem_productionsOf.mp headed)
  have inBody : Symbol.nonterminal target ∈ construction.grammar.bodyOf item.production :=
    List.mem_of_mem_drop (drop ▸ List.mem_cons_self)
  have known : target < construction.grammar.nonterminals.length :=
    proper.inRange.has_of_mem_bodyOf inBody
  have expects : token ∈ (construction.expected items).get target := by
    rcases mem_closure.mp member with given | added
    · exact expectedBy_le items target token (mem_expectedBy given drop known follows)
    · obtain ⟨atStart, source, sourceFound, after⟩ := mem_initialItems.mp added
      rw [atStart, List.drop_zero, Grammar.bodyOf_eq sourceFound] at drop
      have fixed := proper.spread_expected items
        (corner_mem (List.mem_of_getElem? sourceFound) drop)
      rw [Corner.spread_eq] at fixed
      refine TokenSets.mem_get_of_add_eq ?_ fixed (Corner.demand_mem after ?_)
      · rw [(proper.expected_within items).length_eq]
        exact known
      · exact FirstSets.mem_lookahead.mp follows
  refine mem_closure.mpr (.inr (mem_initialItems.mpr ⟨rfl, production, found, ?_⟩))
  rw [head]
  exact expects

/-- The items given are in the closure. -/
theorem subset_closure {items : ItemSet} {item : Item} (member : item ∈ items) :
    item ∈ construction.closure items := mem_closure.mpr (.inl member)

/-- An item of the closure that was not given is at the beginning of its production. -/
theorem dot_eq_zero_of_mem_closure {items : ItemSet} {item : Item}
    (member : item ∈ construction.closure items) : item ∈ items ∨ item.dot = 0 := by
  rcases mem_closure.mp member with given | added
  · exact .inl given
  · exact .inr (mem_initialItems.mp added).1

end Construction

end ThreeAddress

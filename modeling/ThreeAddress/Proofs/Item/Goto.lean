import ThreeAddress.Proofs.Item.Closure

/-!
The set reached over a symbol: where its items come from, what it is closed under, and that it is an
ascending list of items that fit the grammar.
-/

set_option autoImplicit false

namespace ThreeAddress

namespace Item

variable {grammar : Grammar} {item : Item}

/-- A symbol after the dot is where the rest of the body begins. -/
theorem nextSymbol_eq_some {symbol : Symbol} :
    item.nextSymbol grammar = some symbol ↔ ∃ rest,
      (grammar.bodyOf item.production).drop item.dot = symbol :: rest := by
  rw [nextSymbol, ← List.head?_drop]
  constructor
  · intro next
    cases drop : (grammar.bodyOf item.production).drop item.dot with
    | nil =>
        rw [drop] at next
        cases next
    | cons first rest =>
        rw [drop] at next
        cases next
        exact ⟨rest, rfl⟩
  · rintro ⟨rest, drop⟩
    rw [drop, List.head?_cons]

theorem nextSymbol_eq_none :
    item.nextSymbol grammar = none ↔ (grammar.bodyOf item.production).length ≤ item.dot :=
  List.getElem?_eq_none_iff

@[simp] theorem advance_production (item : Item) : item.advance.production = item.production := rfl

@[simp] theorem advance_dot (item : Item) : item.advance.dot = item.dot + 1 := rfl

@[simp] theorem advance_lookahead (item : Item) : item.advance.lookahead = item.lookahead := rfl

/-- Past the dot of the next item stands what is left after the symbol. -/
theorem drop_advance {symbol : Symbol} {rest : List Symbol}
    (drop : (grammar.bodyOf item.production).drop item.dot = symbol :: rest) :
    (grammar.bodyOf item.advance.production).drop item.advance.dot = rest := by
  rw [advance_production, advance_dot, ← List.drop_drop, drop, List.drop_one, List.tail_cons]

theorem compare_advance (left right : Item) :
    compare left.advance right.advance = compare left right := by
  have dots : compare (left.dot + 1) (right.dot + 1) = compare left.dot right.dot := by
    simp only [Nat.compare_eq_ite_lt, Nat.add_lt_add_iff_right]
  change order _ _ = order _ _
  simp only [order, advance_production, advance_dot, advance_lookahead, dots]

theorem compare_initial (left right first second : Nat) :
    compare (initial left first) (initial right second) =
      (compare left right).then (compare first second) := by
  change order _ _ = _
  simp [order, initial]

theorem production_le_of_isLE {left right : Item} (below : (compare left right).isLE) :
    left.production ≤ right.production := by
  change (order left right).isLE at below
  unfold order at below
  by_contra above
  rw [Nat.compare_eq_gt.mpr (Nat.lt_of_not_le above)] at below
  cases below

theorem production_le_of_lt {left right : Item} (before : compare left right = .lt) :
    left.production ≤ right.production := by
  apply production_le_of_isLE
  rw [before]
  rfl

end Item

namespace Construction

variable {construction : Construction} {items : ItemSet} {symbol : Symbol} {item : Item}

theorem mem_kernel : item ∈ construction.kernel items symbol ↔
    ∃ earlier ∈ items, earlier.nextSymbol construction.grammar = some symbol ∧
      item = earlier.advance := by
  simp only [kernel, List.mem_map, List.mem_filter, beq_iff_eq]
  constructor
  · rintro ⟨earlier, ⟨member, next⟩, rfl⟩
    exact ⟨earlier, member, next, rfl⟩
  · rintro ⟨earlier, member, next, rfl⟩
    exact ⟨earlier, ⟨member, next⟩, rfl⟩

theorem goto_eq : construction.goto items symbol =
    if construction.kernel items symbol = [] then []
    else construction.closure (construction.kernel items symbol) := by
  unfold goto
  split
  · rename_i empty
    rw [if_pos empty]
  · rename_i nonempty
    rw [if_neg nonempty]

theorem goto_of_kernel (nonempty : construction.kernel items symbol ≠ []) :
    construction.goto items symbol = construction.closure (construction.kernel items symbol) := by
  rw [goto_eq, if_neg nonempty]

theorem kernel_ne_nil_of_goto (nonempty : construction.goto items symbol ≠ []) :
    construction.kernel items symbol ≠ [] := by
  intro empty
  rw [goto_eq, if_pos empty] at nonempty
  exact nonempty rfl

/-- An item past the symbol is in the set reached over it. -/
theorem advance_mem_goto (member : item ∈ items)
    (next : item.nextSymbol construction.grammar = some symbol) :
    item.advance ∈ construction.goto items symbol := by
  have listed : item.advance ∈ construction.kernel items symbol :=
    mem_kernel.mpr ⟨item, member, next, rfl⟩
  rw [goto_of_kernel (List.ne_nil_of_mem listed)]
  exact subset_closure listed

/-- An item of the set reached over a symbol comes from one before the symbol, or is at the
beginning of its production. -/
theorem mem_goto (member : item ∈ construction.goto items symbol) :
    (∃ earlier ∈ items, earlier.nextSymbol construction.grammar = some symbol ∧
      item = earlier.advance) ∨ item.dot = 0 := by
  rw [goto_of_kernel (kernel_ne_nil_of_goto (List.ne_nil_of_mem member))] at member
  rcases dot_eq_zero_of_mem_closure member with given | atStart
  · exact .inl (mem_kernel.mp given)
  · exact .inr atStart

theorem goto_ne_nil_iff : construction.goto items symbol ≠ [] ↔
    ∃ item ∈ items, item.nextSymbol construction.grammar = some symbol := by
  constructor
  · intro nonempty
    obtain ⟨item, member⟩ := List.exists_mem_of_ne_nil _ (kernel_ne_nil_of_goto nonempty)
    obtain ⟨earlier, listed, next, _⟩ := mem_kernel.mp member
    exact ⟨earlier, listed, next⟩
  · rintro ⟨item, member, next⟩
    exact List.ne_nil_of_mem (advance_mem_goto member next)

theorem mem_nextSymbols : symbol ∈ construction.nextSymbols items ↔
    ∃ item ∈ items, item.nextSymbol construction.grammar = some symbol := by
  rw [nextSymbols, Ascending.mem_ofList, List.mem_filterMap]

/-- What holds of items past their symbol, and of everything that such items call for, holds of the
set reached over the symbol. -/
theorem goto_least (inRange : construction.grammar.InRange) {holds : Item → Prop}
    (calls : ∀ item, holds item → ∀ next ∈ construction.closureStep item, holds next)
    (base : ∀ item ∈ items, item.nextSymbol construction.grammar = some symbol →
      holds item.advance) :
    ∀ item ∈ construction.goto items symbol, holds item := by
  intro item member
  rw [goto_of_kernel (kernel_ne_nil_of_goto (List.ne_nil_of_mem member))] at member
  refine closure_least inRange calls ?_ item member
  intro past listed
  obtain ⟨earlier, given, next, rfl⟩ := mem_kernel.mp listed
  exact base earlier given next

theorem Proper.goto_closed (proper : construction.Proper) {next : Item}
    (member : item ∈ construction.goto items symbol) (called : next ∈ construction.closureStep item) :
    next ∈ construction.goto items symbol := by
  have same := goto_of_kernel (kernel_ne_nil_of_goto (List.ne_nil_of_mem member))
  rw [same] at member ⊢
  exact proper.closure_closed member called

theorem strict_kernel (strict : Ascending.Strict items) :
    Ascending.Strict (construction.kernel items symbol) := by
  refine List.Pairwise.map Item.advance ?_ (List.Pairwise.filter _ strict)
  intro left right below
  rw [Item.compare_advance]
  exact below

theorem Proper.strict_initialItems (proper : construction.Proper) (items : ItemSet) :
    Ascending.Strict (construction.initialItems (construction.expected items)) := by
  have within := proper.expected_within items
  refine List.pairwise_flatMap.mpr ⟨?_, ?_⟩
  · rintro ⟨production, index⟩ _
    refine List.Pairwise.map _ ?_ (within.strict_get production.head)
    intro first second below
    rw [Item.compare_initial, Nat.compare_eq_eq.mpr rfl]
    exact below
  · have ordered : (construction.grammar.productions.zipIdx.map Prod.snd).Pairwise (· < ·) := by
      rw [List.zipIdx_map_snd]
      exact List.pairwise_lt_range'
    refine (List.pairwise_map.mp ordered).imp ?_
    rintro ⟨left, first⟩ ⟨right, second⟩ before x inLeft y inRight
    obtain ⟨after, _, rfl⟩ := List.mem_map.mp inLeft
    obtain ⟨other, _, rfl⟩ := List.mem_map.mp inRight
    rw [Item.compare_initial, Nat.compare_eq_lt.mpr before]
    rfl

theorem Proper.strict_closure (proper : construction.Proper) (strict : Ascending.Strict items) :
    Ascending.Strict (construction.closure items) :=
  Ascending.strict_union _ _ strict (proper.strict_initialItems items)

theorem Proper.strict_goto (proper : construction.Proper) (strict : Ascending.Strict items) :
    Ascending.Strict (construction.goto items symbol) := by
  rw [goto_eq]
  split
  · exact Ascending.strict_nil
  · exact proper.strict_closure (strict_kernel strict)

/-- The item belongs to a production, its dot is inside the body, and its lookahead is a token of the
grammar or the end of input. -/
def Fits (construction : Construction) (item : Item) : Prop :=
  ∃ production, construction.grammar.productions[item.production]? = some production ∧
    item.dot ≤ production.body.length ∧
    item.lookahead ∈ construction.grammar.alphabet ++ [construction.eof]

theorem Proper.fits_of_called (proper : construction.Proper) {next : Item}
    (fits : construction.Fits item) (called : next ∈ construction.closureStep item) :
    construction.Fits next := by
  obtain ⟨production, found, _, lookahead⟩ := fits
  obtain ⟨target, rest, index, token, drop, headed, follows, rfl⟩ := mem_closureStep.mp called
  obtain ⟨new, newFound, _⟩ := Option.map_eq_some_iff.mp
    (proper.inRange.mem_productionsOf.mp headed)
  refine ⟨new, newFound, Nat.zero_le _, ?_⟩
  rcases FirstSets.mem_lookahead.mp follows with begins | ⟨_, rfl⟩
  · refine List.mem_append_left _ (FirstSets.sequenceFirst_inside proper.first_within ?_ begins)
    intro id listed
    have inBody : Symbol.token id ∈ construction.grammar.bodyOf item.production :=
      List.mem_of_mem_drop (drop ▸ List.mem_cons_of_mem _ listed)
    exact Grammar.mem_alphabet.mpr (proper.inRange.has_of_mem_bodyOf inBody)
  · exact lookahead

theorem fits_advance (fits : construction.Fits item)
    (next : item.nextSymbol construction.grammar = some symbol) :
    construction.Fits item.advance := by
  obtain ⟨production, found, _, lookahead⟩ := fits
  refine ⟨production, found, ?_, lookahead⟩
  rw [Item.nextSymbol, Grammar.bodyOf_eq found] at next
  exact (List.getElem?_eq_some_iff.mp next).1

theorem Proper.fits_goto (proper : construction.Proper)
    (fits : ∀ item ∈ items, construction.Fits item) :
    ∀ item ∈ construction.goto items symbol, construction.Fits item :=
  goto_least proper.inRange (fun _ given _ called => proper.fits_of_called given called)
    fun item member next => fits_advance (fits item member) next

end Construction

end ThreeAddress

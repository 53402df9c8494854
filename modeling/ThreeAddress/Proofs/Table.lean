import ThreeAddress.Proofs.Collection
import ThreeAddress.Proofs.Table.Fill
import ThreeAddress.Run

/-!
What the cells of the tables say about the items of their states. An entry is always asked for by an
item, and without conflicts all that an item asks for is an entry.
-/

set_option autoImplicit false

namespace ThreeAddress

namespace Write

variable {α : Type} {writes : List (Write α)} {cell : Nat} {value : α}

/-- A value that all writes to a cell agree on is kept. -/
theorem kept?_of_agree (member : ⟨cell, value⟩ ∈ writes)
    (agree : ∀ other, ⟨cell, other⟩ ∈ writes → other = value) :
    kept? writes cell = some value := by
  obtain ⟨kept, found⟩ := exists_kept? member
  rw [found, agree kept (mem_of_kept? found)]

/-- If nothing is turned away, all that is written to a row is kept. -/
theorem kept?_of_rejected [DecidableEq α] {width : Nat} (member : ⟨cell, value⟩ ∈ writes)
    (inside : cell < width) (clean : rejected (within width writes) = []) :
    kept? writes cell = some value := by
  obtain ⟨kept, found⟩ := exists_kept? member
  by_contra lost
  have apart : value ≠ kept := by
    rintro rfl
    exact lost found
  have listed : ⟨cell, value⟩ ∈ within width writes :=
    List.mem_filter.mpr ⟨member, decide_eq_true inside⟩
  have turned : ⟨cell, (kept, value)⟩ ∈ rejected (within width writes) :=
    mem_rejected.mpr ⟨by rw [kept?_within inside, found], listed, apart⟩
  rw [clean] at turned
  cases turned

end Write

theorem ParseTable.cell_eq_ok {α : Type} {rows : Array (Array α)} {row column : Nat} {value : α} :
    cell rows row column = .ok value ↔
      ∃ cells, rows[row]? = some cells ∧ cells[column]? = some value := by
  unfold cell
  constructor
  · intro success
    split at success
    · cases success
    · rename_i cells found
      split at success
      · cases success
      · rename_i kept there
        cases success
        exact ⟨cells, found, there⟩
  · rintro ⟨cells, found, there⟩
    rw [found]
    simp only [there]

namespace Construction

/-- The item is complete in the state, with the token as its lookahead. -/
def Ends (construction : Construction) (collection : Collection) (state token : Nat)
    (item : Item) : Prop :=
  item ∈ collection.itemsAt state ∧ item.nextSymbol construction.grammar = none ∧
    item.lookahead = token

/-- The action that an item of a state demands on a token: to read it and take the transition over
it, to accept at the end of input by the start production, or else to reduce. -/
inductive Demands (construction : Construction) (collection : Collection) (state : Nat)
    (item : Item) : Nat → Action → Prop where
  | shift (token target : Nat) (member : item ∈ collection.itemsAt state)
      (next : item.nextSymbol construction.grammar = some (.token token))
      (enters : (collection.transitionsAt state).lookup (.token token) = some target) :
      Demands construction collection state item token (.shift target)
  | accept (ends : construction.Ends collection state construction.eof item)
      (outermost : item.production = construction.acceptProduction) :
      Demands construction collection state item construction.eof .accept
  | reduce (token : Nat) (ends : construction.Ends collection state token item)
      (inner : ¬(item.production = construction.acceptProduction ∧ token = construction.eof)) :
      Demands construction collection state item token (.reduce item.production)

theorem demands_iff {construction : Construction} {collection : Collection} {state token : Nat}
    {item : Item} {action : Action} :
    construction.Demands collection state item token action ↔
      item ∈ collection.itemsAt state ∧
        construction.actionWrite? (collection.transitionsAt state) item =
          some ⟨token, action⟩ := by
  constructor
  · intro demands
    cases demands with
    | shift _ target member next enters =>
        refine ⟨member, ?_⟩
        rw [actionWrite?, next]
        simp only [enters, Option.map_some]
    | accept ends outermost =>
        refine ⟨ends.1, ?_⟩
        rw [actionWrite?, ends.2.1]
        simp only [ends.2.2, outermost, and_self, ↓reduceIte]
    | reduce _ ends inner =>
        refine ⟨ends.1, ?_⟩
        rw [actionWrite?, ends.2.1]
        simp only [ends.2.2, if_neg inner]
  · rintro ⟨member, written⟩
    unfold actionWrite? at written
    split at written
    · rename_i next
      obtain ⟨target, enters, same⟩ := Option.map_eq_some_iff.mp written
      cases same
      exact .shift _ target member next enters
    · cases written
    · rename_i complete
      split at written
      · rename_i last
        cases written
        rw [last.2]
        exact .accept ⟨member, complete, last.2⟩ last.1
      · rename_i inner
        cases written
        exact .reduce _ ⟨member, complete, rfl⟩ inner

/-- What the items of a state ask for on a token: to read it and enter the state reached over it, to
reduce by a production that ends here, or to accept. -/
inductive Asks (construction : Construction) (sets : Array ItemSet) (items : ItemSet) :
    Nat → Action → Prop where
  | shift (item : Item) (id target : Nat) (member : item ∈ items)
      (next : item.nextSymbol construction.grammar = some (.token id))
      (enters : sets[target]? = some (construction.goto items (.token id))) :
      Asks construction sets items id (.shift target)
  | reduce (item : Item) (member : item ∈ items)
      (complete : item.nextSymbol construction.grammar = none)
      (inner : ¬(item.production = construction.acceptProduction ∧
        item.lookahead = construction.eof)) :
      Asks construction sets items item.lookahead (.reduce item.production)
  | accept (item : Item) (member : item ∈ items)
      (complete : item.nextSymbol construction.grammar = none)
      (outermost : item.production = construction.acceptProduction)
      (ends : item.lookahead = construction.eof) :
      Asks construction sets items construction.eof .accept

end Construction

namespace Tables

variable {construction : Construction} {collection : Collection} {state : Nat} {items : ItemSet}

theorem mem_actionWrites_iff_demands {token : Nat} {action : Action} :
    ⟨token, action⟩ ∈ actionWrites construction collection state ↔
      ∃ item, construction.Demands collection state item token action := by
  rw [actionWrites, List.mem_filterMap]
  exact exists_congr fun item => Construction.demands_iff.symm

theorem mem_actionWrites (complete : Collection.Complete construction collection)
    (holds : collection.sets[state]? = some items) {id : Nat} {action : Action} :
    ⟨id, action⟩ ∈ actionWrites construction collection state ↔
      construction.Asks collection.sets items id action := by
  have listed := Collection.Complete.itemsAt_eq holds
  rw [mem_actionWrites_iff_demands]
  constructor
  · rintro ⟨item, demands⟩
    cases demands with
    | shift _ target member next enters =>
        exact .shift item _ target (listed ▸ member) next ((complete.lookup_iff holds).mp enters).2
    | accept ends outermost => exact .accept item (listed ▸ ends.1) ends.2.1 outermost ends.2.2
    | reduce _ ends inner =>
        obtain ⟨member, next, rfl⟩ := ends
        exact .reduce item (listed ▸ member) next inner
  · intro asks
    cases asks with
    | shift item _ target member next enters =>
        have leads := Construction.goto_ne_nil_iff.mpr ⟨item, member, next⟩
        exact ⟨item, .shift _ target (listed ▸ member) next
          ((complete.lookup_iff holds).mpr ⟨leads, enters⟩)⟩
    | reduce item member next inner =>
        exact ⟨item, .reduce _ ⟨listed ▸ member, next, rfl⟩ inner⟩
    | accept item member next last ends =>
        exact ⟨item, .accept ⟨listed ▸ member, next, ends⟩ last⟩

theorem mem_gotoWrites (complete : Collection.Complete construction collection)
    (holds : collection.sets[state]? = some items) {id target : Nat} :
    ⟨id, target⟩ ∈ gotoWrites construction collection state ↔
      construction.goto items (.nonterminal id) ≠ [] ∧
        collection.sets[target]? = some (construction.goto items (.nonterminal id)) := by
  rw [gotoWrites, List.mem_filterMap, Collection.Complete.itemsAt_eq holds]
  constructor
  · rintro ⟨item, _, asked⟩
    unfold Construction.gotoWrite? at asked
    split at asked
    · obtain ⟨other, found, same⟩ := Option.map_eq_some_iff.mp asked
      cases same
      exact (complete.lookup_iff holds).mp found
    · cases asked
  · intro reached
    obtain ⟨item, member, next⟩ := Construction.goto_ne_nil_iff.mp reached.1
    refine ⟨item, member, ?_⟩
    rw [Construction.gotoWrite?, next]
    simp only [(complete.lookup_iff holds).mpr reached, Option.map_some]

theorem action_cell (holds : collection.sets[state]? = some items) {id : Nat} {action : Action} :
    ParseTable.cell (fill construction collection).action state id = .ok action ↔
      id < construction.grammar.tokens.length ∧
        (Write.kept? (actionWrites construction collection state) id).getD .error = action := by
  have bound := (Array.getElem?_eq_some_iff.mp holds).1
  rw [ParseTable.cell_eq_ok, fill_eq]
  simp only [Collection.size, Array.getElem?_map, Array.getElem?_range, bound, ↓reduceIte,
    Option.map_some, Option.some.injEq, exists_eq_left', actionRow, Cells.getElem?_row]
  split
  · rename_i inside
    simp only [Option.some.injEq, inside, true_and, Cells.holding_action]
  · rename_i outside
    simp only [reduceCtorEq, outside, false_and]

theorem goto_cell (holds : collection.sets[state]? = some items) {id : Nat}
    {target : Option Nat} :
    ParseTable.cell (fill construction collection).goto state id = .ok target ↔
      id < construction.grammar.nonterminals.length ∧
        Write.kept? (gotoWrites construction collection state) id = target := by
  have bound := (Array.getElem?_eq_some_iff.mp holds).1
  rw [ParseTable.cell_eq_ok, fill_eq]
  simp only [Collection.size, Array.getElem?_map, Array.getElem?_range, bound, ↓reduceIte,
    Option.map_some, Option.some.injEq, exists_eq_left', gotoRow, Cells.getElem?_row]
  split
  · rename_i inside
    simp only [Option.some.injEq, inside, true_and, Cells.holding_target]
  · rename_i outside
    simp only [reduceCtorEq, outside, false_and]

/-- An entry of the action table is asked for by an item of its state. -/
theorem asks_of_cell (complete : Collection.Complete construction collection)
    (holds : collection.sets[state]? = some items) {id : Nat} {action : Action}
    (entry : ParseTable.cell (fill construction collection).action state id = .ok action)
    (acts : action ≠ .error) : construction.Asks collection.sets items id action := by
  obtain ⟨_, kept⟩ := (action_cell holds).mp entry
  cases found : Write.kept? (actionWrites construction collection state) id with
  | none =>
      rw [found] at kept
      exact absurd kept.symm acts
  | some value =>
      rw [found, Option.getD_some] at kept
      subst kept
      exact (mem_actionWrites complete holds).mp (Write.mem_of_kept? found)

/-- Without conflicts, all that the items of a state ask for are entries. -/
theorem cell_of_asks (complete : Collection.Complete construction collection)
    (clean : (fill construction collection).conflicts = [])
    (holds : collection.sets[state]? = some items) {id : Nat} {action : Action}
    (inside : id < construction.grammar.tokens.length)
    (asks : construction.Asks collection.sets items id action) :
    ParseTable.cell (fill construction collection).action state id = .ok action := by
  have bound := (Array.getElem?_eq_some_iff.mp holds).1
  rw [fill_eq] at clean
  have nothing := List.flatMap_eq_nil_iff.mp (List.append_eq_nil_iff.mp clean).2 state
    (List.mem_range.mpr bound)
  have kept := Write.kept?_of_rejected ((mem_actionWrites complete holds).mpr asks) inside
    (List.map_eq_nil_iff.mp nothing)
  exact (action_cell holds).mpr ⟨inside, by rw [kept, Option.getD_some]⟩

/-- The goto table leads where reading leads, with or without conflicts. -/
theorem goto_cell_iff (complete : Collection.Complete construction collection)
    (holds : collection.sets[state]? = some items) {id target : Nat} :
    ParseTable.cell (fill construction collection).goto state id = .ok (some target) ↔
      id < construction.grammar.nonterminals.length ∧
        construction.goto items (.nonterminal id) ≠ [] ∧
          collection.sets[target]? = some (construction.goto items (.nonterminal id)) := by
  rw [goto_cell holds, ← mem_gotoWrites complete holds]
  refine and_congr_right fun _ => ⟨Write.mem_of_kept?, fun member => ?_⟩
  refine Write.kept?_of_agree member fun other also => ?_
  have first := (complete.lookup_iff holds).mpr ((mem_gotoWrites complete holds).mp member)
  have second := (complete.lookup_iff holds).mpr ((mem_gotoWrites complete holds).mp also)
  exact Option.some.inj (second.symm.trans first)

end Tables

end ThreeAddress

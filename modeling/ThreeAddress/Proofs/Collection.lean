import Mathlib.Data.Finset.Powerset
import ThreeAddress.Collection
import ThreeAddress.Proofs.Item.Goto

/-!
The search for item sets visits every set that reading can reach, and its transitions are exactly the
steps between them.
-/

set_option autoImplicit false

namespace ThreeAddress

/-- The item sets that reading can reach: the start, and what is reached over a symbol from there. -/
inductive Construction.Reachable (construction : Construction) : ItemSet → Prop where
  | start : Reachable construction construction.startItems
  | goto (items : ItemSet) (symbol : Symbol) (earlier : Reachable construction items)
      (leads : construction.goto items symbol ≠ []) :
      Reachable construction (construction.goto items symbol)

namespace Construction

variable {construction : Construction}

theorem Proper.fits_start (proper : construction.Proper) :
    ∀ item ∈ construction.startItems, construction.Fits item := by
  refine closure_least proper.inRange (fun _ given _ called => proper.fits_of_called given called) ?_
  intro item member
  rw [List.mem_singleton.mp member]
  exact ⟨_, List.getElem?_eq_getElem proper.accept_lt, Nat.zero_le _,
    List.mem_append_right _ (List.mem_singleton.mpr rfl)⟩

namespace Reachable

variable {items : ItemSet}

theorem strict (proper : construction.Proper) (reachable : construction.Reachable items) :
    Ascending.Strict items := by
  induction reachable with
  | start => exact proper.strict_closure (Ascending.strict_singleton _)
  | goto items symbol _ _ ih => exact proper.strict_goto ih

theorem fits (proper : construction.Proper) (reachable : construction.Reachable items) :
    ∀ item ∈ items, construction.Fits item := by
  induction reachable with
  | start => exact proper.fits_start
  | goto items symbol _ _ ih => exact proper.fits_goto ih

/-- A set that reading reaches holds whatever its items call for. -/
theorem closed (proper : construction.Proper) (reachable : construction.Reachable items)
    {item next : Item} (member : item ∈ items) (called : next ∈ construction.closureStep item) :
    next ∈ items := by
  cases reachable with
  | start => exact proper.closure_closed member called
  | goto earlier symbol _ _ => exact proper.goto_closed member called

/-- An item at the beginning of its production is called for in its set, but for the item from which
reading starts. -/
theorem exists_caller (proper : construction.Proper) (reachable : construction.Reachable items)
    {item : Item} (member : item ∈ items) (atStart : item.dot = 0) :
    item = .initial construction.acceptProduction construction.eof ∨
      ∃ caller ∈ items, item ∈ construction.closureStep caller := by
  cases reachable with
  | start =>
      have each : ∀ next ∈ construction.startItems, next ∈ construction.startItems ∧
          (next = .initial construction.acceptProduction construction.eof ∨
            ∃ caller ∈ construction.startItems, next ∈ construction.closureStep caller) := by
        refine closure_least proper.inRange ?_ ?_
        · rintro caller ⟨inside, _⟩ next called
          exact ⟨proper.closure_closed inside called, .inr ⟨caller, inside, called⟩⟩
        · intro first listed
          exact ⟨subset_closure listed, .inl (List.mem_singleton.mp listed)⟩
      exact (each item member).2
  | goto earlier symbol _ _ =>
      have each : ∀ next ∈ construction.goto earlier symbol,
          next ∈ construction.goto earlier symbol ∧ (next.dot ≠ 0 ∨
            ∃ caller ∈ construction.goto earlier symbol,
              next ∈ construction.closureStep caller) := by
        refine goto_least proper.inRange ?_ ?_
        · rintro caller ⟨inside, _⟩ next called
          exact ⟨proper.goto_closed inside called, .inr ⟨caller, inside, called⟩⟩
        · intro before listed next
          exact ⟨advance_mem_goto listed next, .inl (Nat.succ_ne_zero _)⟩
      exact .inr ((each item member).2.resolve_left (absurd atStart))

end Reachable

/-- All items with a dot inside the body of their production and a token of the grammar or the end of
input after it. -/
def allItems (construction : Construction) : List Item :=
  construction.grammar.productions.zipIdx.flatMap fun (production, index) =>
    (List.range (production.body.length + 1)).flatMap fun dot =>
      (construction.grammar.alphabet ++ [construction.eof]).map fun lookahead =>
        ⟨index, dot, lookahead⟩

theorem mem_allItems {item : Item} (fits : construction.Fits item) :
    item ∈ construction.allItems := by
  obtain ⟨production, found, inside, lookahead⟩ := fits
  refine List.mem_flatMap.mpr ⟨(production, item.production),
    List.mem_zipIdx_iff_getElem?.mpr found, ?_⟩
  refine List.mem_flatMap.mpr ⟨item.dot, List.mem_range.mpr (by omega), ?_⟩
  exact List.mem_map.mpr ⟨item.lookahead, lookahead, rfl⟩

theorem allItems_length : construction.allItems.length = construction.grammar.itemCount := by
  have counted : ∀ (productions : List Production) (first count : Nat),
      productions.foldl (fun count production => count + production.body.length + 1) count *
          (construction.grammar.tokens.length + 1) =
        count * (construction.grammar.tokens.length + 1) +
          ((productions.zipIdx first).flatMap fun (production, index) =>
            (List.range (production.body.length + 1)).flatMap fun dot =>
              (construction.grammar.alphabet ++ [construction.eof]).map fun lookahead =>
                (⟨index, dot, lookahead⟩ : Item)).length := by
    intro productions
    induction productions with
    | nil => simp
    | cons production rest ih =>
        intro first count
        rw [List.foldl_cons, ih (first + 1), List.zipIdx_cons, List.flatMap_cons,
          List.length_append]
        simp only [List.length_flatMap, List.length_map, List.length_append,
          Grammar.alphabet_length, List.length_singleton, List.map_const', List.length_range,
          List.sum_replicate_nat, Nat.add_mul, Nat.one_mul]
        omega
  have whole := counted construction.grammar.productions 0 0
  rw [Grammar.itemCount, whole, Nat.zero_mul, Nat.zero_add, allItems]

/-- There are no more reachable sets than subsets of all items. -/
theorem Proper.length_le (proper : construction.Proper) {sets : List ItemSet} (nodup : sets.Nodup)
    (reachable : ∀ items ∈ sets, construction.Reachable items) :
    sets.length ≤ 2 ^ construction.grammar.itemCount := by
  classical
  have few : sets.toFinset.card ≤ construction.allItems.toFinset.powerset.card := by
    refine Finset.card_le_card_of_injOn List.toFinset ?_ ?_
    · intro items member
      have reached := reachable items (List.mem_toFinset.mp member)
      refine Finset.mem_coe.mpr (Finset.mem_powerset.mpr ?_)
      intro item inside
      exact List.mem_toFinset.mpr
        (mem_allItems (reached.fits proper item (List.mem_toFinset.mp inside)))
    · intro left inLeft right inRight same
      have leftReached := reachable left (List.mem_toFinset.mp inLeft)
      have rightReached := reachable right (List.mem_toFinset.mp inRight)
      refine (leftReached.strict proper).ext (rightReached.strict proper) ?_
      intro item
      rw [← List.mem_toFinset, same, List.mem_toFinset]
  rw [List.toFinset_card_of_nodup nodup, Finset.card_powerset] at few
  refine few.trans (Nat.pow_le_pow_right (by omega) ?_)
  rw [← allItems_length]
  exact List.toFinset_card_le _

end Construction

namespace Collection

variable {construction : Construction} {sets : Array ItemSet} {items : ItemSet}

theorem getElem?_of_grown {small large : Array ItemSet} (grown : small.toList <+: large.toList)
    {index : Nat} (found : small[index]? = some items) : large[index]? = some items := by
  rw [← Array.getElem?_toList] at found ⊢
  obtain ⟨added, whole⟩ := grown
  rw [← whole, List.getElem?_append_left (List.getElem?_eq_some_iff.mp found).1]
  exact found

/-- A set that is stored is found under its number, and nothing else changes. -/
theorem store_cases (sets : Array ItemSet) (items : ItemSet) :
    (store sets items).1[(store sets items).2]? = some items ∧
      ((store sets items).1 = sets ∨
        items ∉ sets.toList ∧ (store sets items).1 = sets.push items) := by
  unfold store
  split
  · rename_i index found
    obtain ⟨bound, same, _⟩ := Array.findIdx?_eq_some_iff_getElem.mp found
    refine ⟨?_, .inl rfl⟩
    rw [Array.getElem?_eq_getElem bound, beq_iff_eq.mp same]
  · rename_i missing
    refine ⟨Array.getElem?_push_size, .inr ⟨?_, rfl⟩⟩
    intro member
    have different := Array.findIdx?_eq_none_iff.mp missing items (Array.mem_def.mpr member)
    simp at different

theorem store_grown (sets : Array ItemSet) (items : ItemSet) :
    sets.toList <+: (store sets items).1.toList := by
  rcases (store_cases sets items).2 with same | ⟨_, pushed⟩
  · rw [same]
  · rw [pushed, Array.toList_push]
    exact ⟨[items], rfl⟩

theorem nodup_store (nodup : sets.toList.Nodup) (items : ItemSet) :
    (store sets items).1.toList.Nodup := by
  rcases (store_cases sets items).2 with same | ⟨new, pushed⟩
  · rw [same]
    exact nodup
  · rw [pushed, Array.toList_push, List.nodup_append]
    refine ⟨nodup, List.nodup_singleton _, ?_⟩
    intro old member other listed same
    rw [List.mem_singleton.mp listed] at same
    exact new (same ▸ member)

theorem mem_store {other : ItemSet} (member : other ∈ (store sets items).1.toList) :
    other ∈ sets.toList ∨ other = items := by
  rcases (store_cases sets items).2 with same | ⟨_, pushed⟩
  · rw [same] at member
    exact .inl member
  · rw [pushed, Array.toList_push] at member
    simpa using member

/-- Expanding over a symbol that leads nowhere changes nothing. -/
theorem expand_cons_of_nil {symbol : Symbol} (symbols : List Symbol)
    (nowhere : construction.goto items symbol = []) :
    expand construction items (symbol :: symbols) sets =
      expand construction items symbols sets := by
  rw [expand, nowhere]

theorem expand_cons_of_ne {symbol : Symbol} (symbols : List Symbol)
    (leads : construction.goto items symbol ≠ []) :
    expand construction items (symbol :: symbols) sets =
      ((expand construction items symbols
          (store sets (construction.goto items symbol)).1).1,
        (symbol, (store sets (construction.goto items symbol)).2) ::
          (expand construction items symbols
            (store sets (construction.goto items symbol)).1).2) := by
  rw [expand]
  split
  · rename_i nowhere
    exact absurd nowhere leads
  · rfl

theorem expand_grown (symbols : List Symbol) (sets : Array ItemSet) :
    sets.toList <+: (expand construction items symbols sets).1.toList := by
  induction symbols generalizing sets with
  | nil => exact ⟨[], List.append_nil _⟩
  | cons symbol symbols ih =>
      by_cases leads : construction.goto items symbol = []
      · rw [expand_cons_of_nil symbols leads]
        exact ih sets
      · rw [expand_cons_of_ne symbols leads]
        exact (store_grown sets _).trans (ih _)

theorem nodup_expand (symbols : List Symbol) (nodup : sets.toList.Nodup) :
    (expand construction items symbols sets).1.toList.Nodup := by
  induction symbols generalizing sets with
  | nil => exact nodup
  | cons symbol symbols ih =>
      by_cases leads : construction.goto items symbol = []
      · rw [expand_cons_of_nil symbols leads]
        exact ih nodup
      · rw [expand_cons_of_ne symbols leads]
        exact ih (nodup_store nodup _)

/-- What expanding adds is reached over one of the symbols. -/
theorem mem_expand {symbols : List Symbol} {other : ItemSet}
    (member : other ∈ (expand construction items symbols sets).1.toList) :
    other ∈ sets.toList ∨
      ∃ symbol, construction.goto items symbol ≠ [] ∧ other = construction.goto items symbol := by
  induction symbols generalizing sets with
  | nil => exact .inl member
  | cons symbol symbols ih =>
      by_cases leads : construction.goto items symbol = []
      · rw [expand_cons_of_nil symbols leads] at member
        exact ih member
      · rw [expand_cons_of_ne symbols leads] at member
        rcases ih member with stored | reached
        · rcases mem_store stored with old | new
          · exact .inl old
          · exact .inr ⟨symbol, leads, new⟩
        · exact .inr reached

/-- A transition leads to the number of the set reached over its symbol. -/
theorem lookup_expand {symbols : List Symbol} {symbol : Symbol} {target : Nat}
    (found : (expand construction items symbols sets).2.lookup symbol = some target) :
    construction.goto items symbol ≠ [] ∧
      (expand construction items symbols sets).1[target]? =
        some (construction.goto items symbol) := by
  induction symbols generalizing sets with
  | nil => cases found
  | cons first symbols ih =>
      by_cases leads : construction.goto items first = []
      · rw [expand_cons_of_nil symbols leads] at found ⊢
        exact ih found
      · rw [expand_cons_of_ne symbols leads, List.lookup_cons] at found
        rw [expand_cons_of_ne symbols leads]
        by_cases same : symbol = first
        · subst same
          simp only [BEq.rfl] at found
          cases found
          exact ⟨leads, getElem?_of_grown (expand_grown symbols _) (store_cases sets _).1⟩
        · rw [beq_eq_false_iff_ne.mpr same] at found
          exact ih found

theorem exists_lookup_expand {symbols : List Symbol} {symbol : Symbol} (listed : symbol ∈ symbols)
    (leads : construction.goto items symbol ≠ []) (sets : Array ItemSet) :
    ∃ target, (expand construction items symbols sets).2.lookup symbol = some target := by
  induction symbols generalizing sets with
  | nil => cases listed
  | cons first symbols ih =>
      by_cases same : symbol = first
      · subst same
        rw [expand_cons_of_ne symbols leads, List.lookup_cons, BEq.rfl]
        exact ⟨_, rfl⟩
      · have later := ih ((List.mem_cons.mp listed).resolve_left same)
        by_cases firstLeads : construction.goto items first = []
        · rw [expand_cons_of_nil symbols firstLeads]
          exact later sets
        · rw [expand_cons_of_ne symbols firstLeads, List.lookup_cons,
            beq_eq_false_iff_ne.mpr same]
          exact later _

/-- After a visit, a state with transitions was visited before or is the one visited now. -/
theorem visited_cases {collection : Collection} {larger : Array ItemSet} {made : Transitions}
    (grown : collection.sets.toList <+: larger.toList)
    (within : collection.transitions.size ≤ collection.sets.size)
    (next : collection.sets[collection.transitions.size]? = some items) {state : Nat}
    {found : ItemSet} {transitions : Transitions} (stored : larger[state]? = some found)
    (listed : (collection.transitions.push made)[state]? = some transitions) :
    (collection.sets[state]? = some found ∧ collection.transitions[state]? = some transitions) ∨
      (found = items ∧ transitions = made) := by
  rw [Array.getElem?_push] at listed
  split at listed
  · rename_i here
    subst here
    rw [getElem?_of_grown grown next] at stored
    cases stored
    cases listed
    exact .inr ⟨rfl, rfl⟩
  · have old := (Array.getElem?_eq_some_iff.mp listed).1
    obtain ⟨kept, known⟩ : ∃ kept, collection.sets[state]? = some kept :=
      ⟨_, Array.getElem?_eq_getElem (by omega)⟩
    rw [getElem?_of_grown grown known] at stored
    cases stored
    exact .inl ⟨known, listed⟩

/-- What holds between two visits: the sets found are reachable and different from each other, and
the transitions of those visited lead where reading leads. -/
structure Visited (construction : Construction) (collection : Collection) : Prop where
  start : collection.sets[0]? = some construction.startItems
  nodup : collection.sets.toList.Nodup
  reachable : ∀ items ∈ collection.sets.toList, construction.Reachable items
  visited_le : collection.transitions.size ≤ collection.sets.size
  leads : ∀ (state : Nat) (items : ItemSet) (transitions : Transitions),
    collection.sets[state]? = some items →
    collection.transitions[state]? = some transitions →
    ∀ symbol target, transitions.lookup symbol = some target →
      construction.goto items symbol ≠ [] ∧
        collection.sets[target]? = some (construction.goto items symbol)
  covers : ∀ (state : Nat) (items : ItemSet) (transitions : Transitions),
    collection.sets[state]? = some items →
    collection.transitions[state]? = some transitions →
    ∀ symbol, construction.goto items symbol ≠ [] →
      ∃ target, transitions.lookup symbol = some target

namespace Visited

variable {collection : Collection}

theorem initial (construction : Construction) :
    Visited construction ⟨#[construction.startItems], #[]⟩ where
  start := rfl
  nodup := List.nodup_singleton _
  reachable := by
    intro items member
    rw [List.mem_singleton.mp member]
    exact .start
  visited_le := Nat.zero_le _
  leads := by
    intro state items transitions _ visited
    cases visited
  covers := by
    intro state items transitions _ visited
    cases visited

/-- One visit keeps the invariant. -/
theorem visit (visited : Visited construction collection)
    (next : collection.sets[collection.transitions.size]? = some items) :
    Visited construction
      ⟨(expand construction items (construction.nextSymbols items) collection.sets).1,
        collection.transitions.push
          (expand construction items (construction.nextSymbols items) collection.sets).2⟩ := by
  have grown : collection.sets.toList <+: (expand construction items
      (construction.nextSymbols items) collection.sets).1.toList := expand_grown _ _
  have bound := (Array.getElem?_eq_some_iff.mp next).1
  refine ⟨getElem?_of_grown grown visited.start, nodup_expand _ visited.nodup, ?_, ?_, ?_, ?_⟩
  · intro other member
    have reached := visited.reachable items (Array.mem_def.mp (Array.mem_of_getElem? next))
    rcases mem_expand member with old | ⟨symbol, leads, rfl⟩
    · exact visited.reachable other old
    · exact .goto items symbol reached leads
  · have longer := grown.length_le
    simp only [Array.length_toList] at longer
    rw [Array.size_push]
    exact Nat.le_trans bound longer
  · intro state found transitions stored listed symbol target step
    rcases visited_cases grown visited.visited_le next stored listed with
      ⟨known, old⟩ | ⟨rfl, rfl⟩
    · have reached := visited.leads state found transitions known old symbol target step
      exact ⟨reached.1, getElem?_of_grown grown reached.2⟩
    · exact lookup_expand step
  · intro state found transitions stored listed symbol leads
    rcases visited_cases grown visited.visited_le next stored listed with
      ⟨known, old⟩ | ⟨rfl, rfl⟩
    · exact visited.covers state found transitions known old symbol leads
    · exact exists_lookup_expand
        (Construction.mem_nextSymbols.mpr (Construction.goto_ne_nil_iff.mp leads)) leads _

/-- A search keeps the invariant, and given a visit for each set of items it visits all it finds. -/
theorem explore (proper : construction.Proper) (visits : Nat)
    (visited : Visited construction collection)
    (enough : 2 ^ construction.grammar.itemCount ≤ collection.transitions.size + visits) :
    Visited construction (explore construction visits collection) ∧
      (Collection.explore construction visits collection).transitions.size =
        (Collection.explore construction visits collection).sets.size := by
  induction visits generalizing collection with
  | zero =>
      have few := proper.length_le visited.nodup visited.reachable
      rw [Array.length_toList] at few
      exact ⟨visited, Nat.le_antisymm visited.visited_le (Nat.le_trans few enough)⟩
  | succ visits ih =>
      rw [Collection.explore]
      split
      · rename_i finished
        have all := Array.getElem?_eq_none_iff.mp finished
        exact ⟨visited, Nat.le_antisymm visited.visited_le all⟩
      · rename_i items next
        refine ih (visited.visit next) ?_
        rw [Array.size_push]
        omega

end Visited

/-- The search is over: every set found was visited. -/
structure Complete (construction : Construction) (collection : Collection) : Prop
    extends Visited construction collection where
  finished : collection.transitions.size = collection.sets.size

namespace Complete

variable {collection : Collection} {state : Nat}

theorem exists_transitions (complete : Complete construction collection)
    (holds : collection.sets[state]? = some items) :
    ∃ transitions, collection.transitions[state]? = some transitions := by
  have bound := (Array.getElem?_eq_some_iff.mp holds).1
  rw [← complete.finished] at bound
  exact ⟨_, Array.getElem?_eq_getElem bound⟩

/-- No set is stored twice, so the number of a state is known from its items. -/
theorem eq_of_holds (complete : Complete construction collection) {other : Nat}
    (holds : collection.sets[state]? = some items)
    (also : collection.sets[other]? = some items) : state = other := by
  rw [← Array.getElem?_toList] at holds also
  exact (List.getElem?_inj (List.getElem?_eq_some_iff.mp holds).1 complete.nodup).mp
    (holds.trans also.symm)

/-- The transitions of a state are exactly the steps from its items. -/
theorem lookup_iff (complete : Complete construction collection)
    (holds : collection.sets[state]? = some items) {symbol : Symbol} {target : Nat} :
    (collection.transitionsAt state).lookup symbol = some target ↔
      construction.goto items symbol ≠ [] ∧
        collection.sets[target]? = some (construction.goto items symbol) := by
  obtain ⟨transitions, listed⟩ := complete.exists_transitions holds
  have same : collection.transitionsAt state = transitions := by
    rw [transitionsAt, Array.getD_eq_getD_getElem?, listed, Option.getD_some]
  rw [same]
  constructor
  · exact complete.leads state items transitions holds listed symbol target
  · rintro ⟨leads, enters⟩
    obtain ⟨other, found⟩ := complete.covers state items transitions holds listed symbol leads
    have reached := (complete.leads state items transitions holds listed symbol other found).2
    rw [complete.eq_of_holds enters reached]
    exact found

/-- Every step from a state leads to a state. -/
theorem exists_enters (complete : Complete construction collection)
    (holds : collection.sets[state]? = some items) {symbol : Symbol}
    (leads : construction.goto items symbol ≠ []) :
    ∃ target : Nat, collection.sets[target]? = some (construction.goto items symbol) := by
  obtain ⟨transitions, listed⟩ := complete.exists_transitions holds
  obtain ⟨target, found⟩ := complete.covers state items _ holds listed symbol leads
  exact ⟨target, (complete.leads state items _ holds listed symbol target found).2⟩

theorem reachable_of (complete : Complete construction collection)
    (holds : collection.sets[state]? = some items) : construction.Reachable items :=
  complete.reachable items (Array.mem_def.mp (Array.mem_of_getElem? holds))

theorem itemsAt_eq (holds : collection.sets[state]? = some items) :
    collection.itemsAt state = items := by
  rw [itemsAt, Array.getD_eq_getD_getElem?, holds, Option.getD_some]

end Complete

end Collection

namespace Construction

variable {construction : Construction}

/-- The canonical collection is complete: there are visits for all subsets of the items. -/
theorem Proper.collection_complete (proper : construction.Proper) :
    Collection.Complete construction construction.collection := by
  have explored := Collection.Visited.explore proper (Nat.pow 2 construction.grammar.itemCount)
    (.initial construction) (Nat.le_add_left _ _)
  exact ⟨explored.1, explored.2⟩

end Construction

end ThreeAddress

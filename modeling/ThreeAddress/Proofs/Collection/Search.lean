import ThreeAddress.Proofs.Collection
import ThreeAddress.Proofs.Grammar.WellFormed

/-!
The search for item sets with a queue of those still to visit. Starting from nothing it ends with the
canonical collection, which has each reachable set once, and starting again from there it changes
nothing.
-/

set_option autoImplicit false

namespace ThreeAddress

/-- A search under way: each set found so far has transitions, which are empty until it is visited,
and the numbers of those to visit stand in a queue. -/
structure Search where
  collection : Collection
  queue : List Nat
deriving Repr, DecidableEq

namespace Search

/-- Gives a place for transitions to each of the sets. -/
def pad (sets : Array ItemSet) (transitions : Array Transitions) : Collection :=
  ⟨sets, transitions ++ Array.replicate (sets.size - transitions.size) []⟩

/-- Stores the start if it is not there, and goes to visit it either way. -/
def start (construction : Construction) (collection : Collection) : Search :=
  let (sets, index) := Collection.store collection.sets construction.startItems
  ⟨pad sets collection.transitions, [index]⟩

/-- Visits the first state of the queue: sets that are new are stored and queued, and the transitions
are written over those that the state had. -/
def visit (construction : Construction) (search : Search) : Search :=
  match search.queue with
  | [] => search
  | state :: queue =>
    match search.collection.sets[state]? with
    | none => { search with queue }
    | some items =>
      let known := search.collection.sets.size
      let (sets, transitions) :=
        Collection.expand construction items (construction.nextSymbols items)
          search.collection.sets
      let padded := pad sets search.collection.transitions
      ⟨{ padded with transitions := padded.transitions.setIfInBounds state transitions },
        queue ++ List.range' known (sets.size - known)⟩

/-- Visits as many states as given, or until none is left in the queue. -/
def run (construction : Construction) : (visits : Nat) → Search → Search
  | 0, search => search
  | visits + 1, search => run construction visits (search.visit construction)

/-- The search that has visited the states with transitions, in the order of their numbers. -/
def ofCollection (collection : Collection) : Search :=
  ⟨pad collection.sets collection.transitions,
    List.range' collection.transitions.size
      (collection.sets.size - collection.transitions.size)⟩

variable {construction : Construction} {collection : Collection} {items : ItemSet}

theorem run_of_finished {search : Search} (finished : search.queue = []) (visits : Nat) :
    search.run construction visits = search := by
  induction visits with
  | zero => rfl
  | succ visits ih =>
      rw [run, visit, finished]
      exact ih

theorem ofCollection_of_finished (finished : collection.transitions.size = collection.sets.size) :
    ofCollection collection = ⟨collection, []⟩ := by
  simp [ofCollection, pad, finished]

/-- To write the transitions of the next state is to add them to those before. -/
theorem setIfInBounds_pad {sets larger : Array ItemSet} {transitions : Array Transitions}
    (next : transitions.size < sets.size) (grown : sets.size ≤ larger.size) (made : Transitions) :
    (pad larger (pad sets transitions).transitions).transitions.setIfInBounds transitions.size made =
      (pad larger (transitions.push made)).transitions := by
  obtain ⟨left, count⟩ : ∃ left, sets.size - transitions.size = left + 1 :=
    ⟨sets.size - transitions.size - 1, by omega⟩
  have further : larger.size - (transitions.size + (left + 1)) = larger.size - sets.size := by omega
  have rest : larger.size - (transitions.size + 1) = left + (larger.size - sets.size) := by omega
  have places : left + 1 + (larger.size - sets.size) = left + (larger.size - sets.size) + 1 := by
    omega
  apply Array.toList_inj.mp
  simp [pad, count, further, rest, places, List.replicate_succ]

/-- Two ranges of numbers, the second of which goes on where the first ends. -/
theorem range'_append_range' {low middle high : Nat} (below : low ≤ middle) (above : middle ≤ high) :
    List.range' low (middle - low) ++ List.range' middle (high - middle) =
      List.range' low (high - low) := by
  have place : middle = low + (middle - low) := by omega
  have count : high - low = middle - low + (high - middle) := by omega
  rw [count, ← List.range'_append_1, ← place]

theorem size_le_expand {sets larger : Array ItemSet} {symbols : List Symbol} {made : Transitions}
    (expanded : Collection.expand construction items symbols sets = (larger, made)) :
    sets.size ≤ larger.size := by
  have grown : sets.toList <+: (Collection.expand construction items symbols sets).1.toList :=
    Collection.expand_grown symbols sets
  rw [expanded] at grown
  simpa using grown.length_le

/-- What a visit does to a search whose states all have a place for transitions. -/
theorem visit_cons {sets larger : Array ItemSet} {transitions : Array Transitions} {state : Nat}
    {made : Transitions} (queue : List Nat) (found : sets[state]? = some items)
    (expanded : Collection.expand construction items (construction.nextSymbols items) sets =
      (larger, made)) :
    visit construction ⟨⟨sets, transitions⟩, state :: queue⟩ =
      ⟨⟨larger, (pad larger transitions).transitions.setIfInBounds state made⟩,
        queue ++ List.range' sets.size (larger.size - sets.size)⟩ := by
  simp [visit, found, expanded, pad]

/-- A visit from the queue is one of the states in the order of their numbers. -/
theorem visit_ofCollection {larger : Array ItemSet} {made : Transitions}
    (next : collection.sets[collection.transitions.size]? = some items)
    (expanded : Collection.expand construction items (construction.nextSymbols items)
      collection.sets = (larger, made)) :
    (ofCollection collection).visit construction =
      ofCollection ⟨larger, collection.transitions.push made⟩ := by
  obtain ⟨sets, transitions⟩ := collection
  have bound : transitions.size < sets.size := (Array.getElem?_eq_some_iff.mp next).1
  have grown : sets.size ≤ larger.size := size_le_expand expanded
  have first : List.range' transitions.size (sets.size - transitions.size) =
      transitions.size ::
        List.range' (transitions.size + 1) (sets.size - (transitions.size + 1)) := by
    rw [← List.range'_succ]
    congr 1
    omega
  have further : List.range' (transitions.size + 1) (sets.size - (transitions.size + 1)) ++
      List.range' sets.size (larger.size - sets.size) =
      List.range' (transitions.size + 1) (larger.size - (transitions.size + 1)) :=
    range'_append_range' bound grown
  calc (ofCollection ⟨sets, transitions⟩).visit construction
    _ = visit construction ⟨pad sets transitions, transitions.size ::
          List.range' (transitions.size + 1) (sets.size - (transitions.size + 1))⟩ := by
        rw [ofCollection, first]
    _ = ⟨⟨larger, (pad larger (pad sets transitions).transitions).transitions.setIfInBounds
            transitions.size made⟩,
          List.range' (transitions.size + 1) (sets.size - (transitions.size + 1)) ++
            List.range' sets.size (larger.size - sets.size)⟩ := visit_cons _ next expanded
    _ = ofCollection ⟨larger, transitions.push made⟩ := by
        rw [setIfInBounds_pad bound grown, further, ofCollection, Array.size_push]
        rfl

/-- The search with a queue does what the search in the order of numbers does. -/
theorem run_ofCollection (visits : Nat) (collection : Collection)
    (within : collection.transitions.size ≤ collection.sets.size) :
    (ofCollection collection).run construction visits =
      ofCollection (Collection.explore construction visits collection) := by
  induction visits generalizing collection with
  | zero => rfl
  | succ visits ih =>
      rw [Collection.explore]
      split
      · rename_i finished
        have all := Array.getElem?_eq_none_iff.mp finished
        rw [ofCollection_of_finished (Nat.le_antisymm within all)]
        exact run_of_finished rfl _
      · rename_i items next
        have bound := (Array.getElem?_eq_some_iff.mp next).1
        rw [run, visit_ofCollection next rfl]
        apply ih
        rw [Array.size_push]
        exact Nat.le_trans bound (size_le_expand rfl)

end Search

namespace Collection

variable {construction : Construction} {collection : Collection} {sets larger : Array ItemSet}
  {items : ItemSet}

/-- A set that is there is found under its number. -/
theorem store_of_found (nodup : sets.toList.Nodup) {index : Nat}
    (found : sets[index]? = some items) :
    store sets items = (sets, index) := by
  obtain ⟨stored, cases⟩ := store_cases sets items
  have same : (store sets items).1 = sets := by
    apply cases.resolve_right
    rintro ⟨absent, _⟩
    exact absent (Array.mem_def.mp (Array.mem_of_getElem? found))
  rw [same, ← Array.getElem?_toList] at stored
  rw [← Array.getElem?_toList] at found
  have number : (store sets items).2 = index :=
    (List.getElem?_inj (List.getElem?_eq_some_iff.mp stored).1 nodup).mp (stored.trans found.symm)
  exact Prod.ext same number

/-- Once everything reached from a set is stored, to visit the set again adds nothing and finds the
same numbers. -/
theorem expand_of_grown (symbols : List Symbol) (nodup : larger.toList.Nodup)
    (grown : (expand construction items symbols sets).1.toList <+: larger.toList) :
    expand construction items symbols larger =
      (larger, (expand construction items symbols sets).2) := by
  induction symbols generalizing sets with
  | nil => rfl
  | cons symbol symbols ih =>
      by_cases leads : construction.goto items symbol = []
      · rw [expand_cons_of_nil symbols leads] at grown ⊢
        rw [expand_cons_of_nil symbols leads]
        exact ih grown
      · rw [expand_cons_of_ne symbols leads] at grown ⊢
        have stored := (store_cases sets (construction.goto items symbol)).1
        have there := getElem?_of_grown ((expand_grown symbols _).trans grown) stored
        rw [expand_cons_of_ne symbols leads, store_of_found nodup there, ih grown]

theorem keys_expand (symbols : List Symbol) (sets : Array ItemSet) :
    ((expand construction items symbols sets).2.map Prod.fst).Sublist symbols := by
  induction symbols generalizing sets with
  | nil => exact List.nil_sublist _
  | cons symbol symbols ih =>
      by_cases leads : construction.goto items symbol = []
      · rw [expand_cons_of_nil symbols leads]
        exact (ih sets).cons symbol
      · rw [expand_cons_of_ne symbols leads, List.map_cons]
        exact (ih _).cons_cons symbol

/-- To visit again a state that was visited changes nothing. -/
def Stable (construction : Construction) (collection : Collection) : Prop :=
  ∀ (state : Nat) (items : ItemSet) (transitions : Transitions),
    collection.sets[state]? = some items → collection.transitions[state]? = some transitions →
    expand construction items (construction.nextSymbols items) collection.sets =
      (collection.sets, transitions)

namespace Stable

theorem initial (construction : Construction) :
    Stable construction ⟨#[construction.startItems], #[]⟩ := by
  intro state items transitions _ visited
  cases visited

/-- One visit keeps the others stable. -/
theorem visit (stable : Stable construction collection) (visited : Visited construction collection)
    (next : collection.sets[collection.transitions.size]? = some items) :
    Stable construction
      ⟨(expand construction items (construction.nextSymbols items) collection.sets).1,
        collection.transitions.push
          (expand construction items (construction.nextSymbols items) collection.sets).2⟩ := by
  have nodup : (expand construction items (construction.nextSymbols items)
      collection.sets).1.toList.Nodup := nodup_expand _ visited.nodup
  have grown : collection.sets.toList <+: (expand construction items
      (construction.nextSymbols items) collection.sets).1.toList := expand_grown _ _
  intro state found transitions stored listed
  rcases visited_cases grown visited.visited_le next stored listed with ⟨known, old⟩ | ⟨rfl, rfl⟩
  · have before := stable state found transitions known old
    have kept : (expand construction found (construction.nextSymbols found)
        collection.sets).1.toList <+: (expand construction items
          (construction.nextSymbols items) collection.sets).1.toList := by
      rw [before]
      exact grown
    rw [expand_of_grown _ nodup kept, before]
  · exact expand_of_grown _ nodup List.prefix_rfl

theorem explore (visits : Nat) (stable : Stable construction collection)
    (visited : Visited construction collection) :
    Stable construction (explore construction visits collection) := by
  induction visits generalizing collection with
  | zero => exact stable
  | succ visits ih =>
      rw [Collection.explore]
      split
      · exact stable
      · rename_i items next
        exact ih (stable.visit visited next) (visited.visit next)

end Stable

/-- The transitions of a state are what it expands to. -/
theorem transitionsAt_eq (stable : Stable construction collection)
    (complete : Complete construction collection) {state : Nat}
    (holds : collection.sets[state]? = some items) :
    expand construction items (construction.nextSymbols items) collection.sets =
      (collection.sets, collection.transitionsAt state) := by
  obtain ⟨transitions, listed⟩ := complete.exists_transitions holds
  rw [transitionsAt, Array.getD_eq_getD_getElem?, listed, Option.getD_some]
  exact stable state items transitions holds listed

theorem nodup_nextSymbols (construction : Construction) (items : ItemSet) :
    (construction.nextSymbols items).Nodup := by
  refine List.Pairwise.imp ?_ (Ascending.strict_ofList _)
  rintro first _ before rfl
  have equal : compare first first = .eq := Std.ReflCmp.compare_self
  rw [equal] at before
  cases before

theorem mem_iff_lookup {transitions : Transitions} (keys : (transitions.map Prod.fst).Nodup)
    {symbol : Symbol} {target : Nat} :
    (symbol, target) ∈ transitions ↔ transitions.lookup symbol = some target := by
  induction transitions with
  | nil => simp
  | cons first rest ih =>
      obtain ⟨new, later⟩ := List.nodup_cons.mp keys
      rw [List.mem_cons, List.lookup_cons]
      by_cases same : symbol = first.1
      · have absent : (symbol, target) ∉ rest := by
          intro member
          exact new (same ▸ List.mem_map_of_mem member)
        subst same
        simp [absent, Prod.ext_iff, eq_comm]
      · rw [beq_eq_false_iff_ne.mpr same, ← ih later]
        simp [Prod.ext_iff, same]

/-- A state has at most one transition over a symbol, so those listed are those looked up. -/
theorem mem_transitionsAt_iff (stable : Stable construction collection)
    (complete : Complete construction collection) {state : Nat}
    (holds : collection.sets[state]? = some items) {symbol : Symbol} {target : Nat} :
    (symbol, target) ∈ collection.transitionsAt state ↔
      construction.goto items symbol ≠ [] ∧
        collection.sets[target]? = some (construction.goto items symbol) := by
  rw [← complete.lookup_iff holds]
  have keys : ((collection.transitionsAt state).map Prod.fst).Nodup := by
    have listed : ((expand construction items (construction.nextSymbols items)
        collection.sets).2.map Prod.fst).Sublist (construction.nextSymbols items) :=
      keys_expand _ _
    rw [transitionsAt_eq stable complete holds] at listed
    exact (nodup_nextSymbols construction items).sublist listed
  exact mem_iff_lookup keys

end Collection

namespace Construction

variable {construction : Construction} {items : ItemSet}

theorem startItems_ne_nil (construction : Construction) : construction.startItems ≠ [] :=
  List.ne_nil_of_mem (subset_closure (List.mem_singleton.mpr rfl))

/-- A reachable set is reached from the start over some sequence of symbols. -/
theorem Reachable.exists_path (reachable : construction.Reachable items) :
    items ≠ [] ∧
      ∃ path : List Symbol, items = path.foldl construction.goto construction.startItems := by
  induction reachable with
  | start => exact ⟨construction.startItems_ne_nil, [], rfl⟩
  | goto items symbol _ leads ih =>
      obtain ⟨_, path, rfl⟩ := ih
      refine ⟨leads, path ++ [symbol], ?_⟩
      rw [List.foldl_append]
      rfl

/-- What is reached over a sequence of symbols is reachable, unless the sequence leads nowhere. -/
theorem reachable_of_path (path : List Symbol)
    (leads : path.foldl construction.goto construction.startItems ≠ []) :
    construction.Reachable (path.foldl construction.goto construction.startItems) := by
  induction path using List.reverseRecOn with
  | nil => exact .start
  | append_singleton path symbol ih =>
      rw [List.foldl_append] at leads ⊢
      have earlier : path.foldl construction.goto construction.startItems ≠ [] := by
        intro nowhere
        rw [nowhere] at leads
        exact leads rfl
      exact .goto _ symbol (ih earlier) leads

theorem collection_stable (construction : Construction) :
    Collection.Stable construction construction.collection :=
  .explore _ (.initial construction) (.initial construction)

end Construction

namespace Collection

variable {construction : Construction} {collection : Collection} {items : ItemSet}

/-- Every reachable set is stored. -/
theorem Complete.mem_of_reachable (complete : Complete construction collection)
    (reachable : construction.Reachable items) : items ∈ collection.sets := by
  induction reachable with
  | start => exact Array.mem_of_getElem? complete.start
  | goto items symbol _ leads ih =>
      obtain ⟨state, bound, rfl⟩ := Array.mem_iff_getElem.mp ih
      obtain ⟨target, enters⟩ := complete.exists_enters (Array.getElem?_eq_getElem bound) leads
      exact Array.mem_of_getElem? enters

end Collection

namespace Search

variable {construction : Construction}

/-- From nothing the search ends with the canonical collection. -/
theorem run_start_empty (proper : construction.Proper) :
    ∃ visits, (start construction .empty).run construction visits =
      ⟨construction.collection, []⟩ := by
  refine ⟨Nat.pow 2 construction.grammar.itemCount, ?_⟩
  have first : start construction .empty = ofCollection ⟨#[construction.startItems], #[]⟩ := by
    simp [start, ofCollection, Collection.store, Collection.empty, pad]
  rw [first, run_ofCollection _ _ (Nat.zero_le _)]
  exact ofCollection_of_finished proper.collection_complete.finished

/-- From the canonical collection it ends after one visit, with no change. -/
theorem run_start_collection (proper : construction.Proper) :
    (start construction construction.collection).run construction 1 =
      ⟨construction.collection, []⟩ := by
  have complete := proper.collection_complete
  have expanded := Collection.transitionsAt_eq construction.collection_stable complete complete.start
  have padded : pad construction.collection.sets construction.collection.transitions =
      construction.collection := by
    simp [pad, complete.finished]
  have rewritten : construction.collection.transitions.setIfInBounds 0
      (construction.collection.transitionsAt 0) = construction.collection.transitions := by
    obtain ⟨transitions, listed⟩ := complete.exists_transitions complete.start
    rw [Collection.transitionsAt, Array.getD_eq_getD_getElem?, listed, Option.getD_some]
    apply Array.ext_getElem?
    intro state
    rw [Array.getElem?_setIfInBounds]
    split
    · rename_i same
      subst same
      rw [listed, if_pos (Array.getElem?_eq_some_iff.mp listed).1]
    · rfl
  rw [start, Collection.store_of_found complete.nodup complete.start]
  simp only [padded]
  change visit construction ⟨construction.collection, [0]⟩ = _
  rw [visit_cons [] complete.start expanded, padded, rewritten, Nat.sub_self]
  rfl

/-- The search from nothing ends, and started again it changes nothing. It ends with the sets that
are reached from the closure of the start item over some sequence of symbols, each of them once, and
the transitions of a state are the steps that lead from it to others. -/
theorem run_canonical {description : Description} {grammar : Grammar}
    (built : description.build = .ok grammar) :
    (∃ visits, (start grammar.construction .empty).run grammar.construction visits =
      ⟨grammar.construction.collection, []⟩) ∧
    (∃ visits, (start grammar.construction grammar.construction.collection).run
      grammar.construction visits = ⟨grammar.construction.collection, []⟩) ∧
    grammar.construction.collection.sets[0]? = some (grammar.construction.closure
      [.initial grammar.construction.acceptProduction grammar.construction.eof]) ∧
    grammar.construction.collection.sets.toList.Nodup ∧
    (∀ items, items ∈ grammar.construction.collection.sets ↔
      items ≠ [] ∧ ∃ path : List Symbol,
        items = path.foldl grammar.construction.goto grammar.construction.startItems) ∧
    ∀ (state target : Nat) (items : ItemSet) (symbol : Symbol),
      grammar.construction.collection.sets[state]? = some items →
      ((symbol, target) ∈ grammar.construction.collection.transitionsAt state ↔
        grammar.construction.goto items symbol ≠ [] ∧
          grammar.construction.collection.sets[target]? =
            some (grammar.construction.goto items symbol)) := by
  have proper := (Description.wellFormed_of_build built).proper
  have complete := proper.collection_complete
  refine ⟨run_start_empty proper, ⟨1, run_start_collection proper⟩, complete.start,
    complete.nodup, ?_, ?_⟩
  · intro items
    constructor
    · intro stored
      exact (complete.reachable items (Array.mem_def.mp stored)).exists_path
    · rintro ⟨leads, path, rfl⟩
      exact complete.mem_of_reachable (Construction.reachable_of_path path leads)
  · intro state target items symbol holds
    exact Collection.mem_transitionsAt_iff grammar.construction.collection_stable complete holds

end Search

/-- Two words, each of them a `d` after any number of `c`. -/
def Description.twofold : Description :=
  (((Description.addTokens {} ["c", "d"]).rule "pair" ["word", "word"]).rule "word"
    ["c", "word"]).rule "word" ["d"]

def Grammar.twofold : Grammar :=
  ⟨["c", "d"], ["pair", "word"],
    [⟨0, [.nonterminal 1, .nonterminal 1]⟩, ⟨1, [.token 0, .nonterminal 1]⟩, ⟨1, [.token 1]⟩],
    ⟨[(0, [0]), (1, [1, 2])]⟩, 0⟩

/-- Ten sets are found, among them one for a `c` in each of the words. -/
theorem Search.run_canonical_twofold :
    Description.twofold.build = .ok .twofold ∧
    Grammar.twofold.construction.collection.sets.size = 10 ∧
    (∃ visits, (start Grammar.twofold.construction .empty).run Grammar.twofold.construction visits =
      ⟨Grammar.twofold.construction.collection, []⟩) ∧
    (∃ visits, (start Grammar.twofold.construction Grammar.twofold.construction.collection).run
      Grammar.twofold.construction visits = ⟨Grammar.twofold.construction.collection, []⟩) ∧
    Grammar.twofold.construction.collection.sets.toList.Nodup ∧
    [.token 0].foldl Grammar.twofold.construction.goto Grammar.twofold.construction.startItems ∈
      Grammar.twofold.construction.collection.sets ∧
    [.nonterminal 1, .token 0].foldl Grammar.twofold.construction.goto
      Grammar.twofold.construction.startItems ∈ Grammar.twofold.construction.collection.sets := by
  have built : Description.twofold.build = .ok .twofold := by decide +kernel
  obtain ⟨ends, again, _, nodup, stored, _⟩ := Search.run_canonical built
  refine ⟨built, by decide +kernel, ends, again, nodup, (stored _).mpr ⟨?_, _, rfl⟩,
    (stored _).mpr ⟨?_, _, rfl⟩⟩
  · decide +kernel
  · decide +kernel

end ThreeAddress

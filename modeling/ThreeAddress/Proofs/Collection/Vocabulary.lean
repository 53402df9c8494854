import ThreeAddress.Proofs.Collection.Search

/-!
The search over the whole vocabulary. To try every symbol from every state finds the same sets under
the same numbers as to try those after the dots only: the others lead nowhere, and the symbols after
the dots come in the order of the vocabulary.
-/

set_option autoImplicit false

namespace ThreeAddress

namespace Search

/-- Adds a set that is not there yet, without transitions, and puts it at the end of the queue. -/
def append (items : ItemSet) (search : Search) : Search :=
  ⟨⟨search.collection.sets.push items, search.collection.transitions.push []⟩,
    search.queue ++ [search.collection.size]⟩

/-- Adds a transition to those of a state. -/
def link (state : Nat) (symbol : Symbol) (target : Nat) (search : Search) : Search :=
  let transitions := search.collection.transitions.modify state (· ++ [(symbol, target)])
  { search with collection := { search.collection with transitions } }

/-- Tries a symbol from a state with the given items. -/
def follow (construction : Construction) (state : Nat) (items : ItemSet) (search : Search)
    (symbol : Symbol) : Search :=
  match construction.goto items symbol with
  | [] => search
  | reached =>
    match search.collection.index? reached with
    | some target => search.link state symbol target
    | none => (search.append reached).link state symbol search.collection.size

/-- Visits the first state of the queue and tries every symbol of the vocabulary from there. -/
def survey (construction : Construction) (search : Search) : Search :=
  match search.queue with
  | [] => search
  | state :: queue =>
    match search.collection.sets[state]? with
    | none => { search with queue }
    | some items =>
      construction.grammar.symbols.foldl (follow construction state items) { search with queue }

/-- Surveys as many states as given, or until none is left in the queue. -/
def surveyAll (construction : Construction) : (visits : Nat) → Search → Search
  | 0, search => search
  | visits + 1, search => surveyAll construction visits (search.survey construction)

/-- The search for the sets of a construction at its beginning: only the start is there, and it is
to be visited. -/
def first (construction : Construction) : Search :=
  ⟨⟨#[construction.closure [.initial construction.acceptProduction construction.eof]], #[[]]⟩, [0]⟩

end Search

namespace Grammar

variable {grammar : Grammar}

theorem mem_symbols {symbol : Symbol} : symbol ∈ grammar.symbols ↔ grammar.Has symbol := by
  cases symbol <;> simp [symbols, Has]

/-- The vocabulary stands in the order of symbols. -/
theorem strict_symbols (grammar : Grammar) : Ascending.Strict grammar.symbols := by
  refine List.pairwise_append.mpr ⟨?_, ?_, ?_⟩
  · refine List.Pairwise.map _ ?_ List.pairwise_lt_range
    intro left right below
    exact Nat.compare_eq_lt.mpr below
  · refine List.Pairwise.map _ ?_ List.pairwise_lt_range
    intro left right below
    exact Nat.compare_eq_lt.mpr below
  · intro left inTokens right inNonterminals
    obtain ⟨token, _, rfl⟩ := List.mem_map.mp inTokens
    obtain ⟨nonterminal, _, rfl⟩ := List.mem_map.mp inNonterminals
    rfl

end Grammar

/-- Of the vocabulary, exactly the symbols after the dots lead somewhere. -/
theorem Construction.Proper.filter_symbols {construction : Construction}
    (proper : construction.Proper) (items : ItemSet) :
    construction.grammar.symbols.filter (fun symbol => construction.goto items symbol ≠ []) =
      construction.nextSymbols items := by
  refine Ascending.Strict.ext ?_ (Ascending.strict_ofList _) ?_
  · exact List.Pairwise.filter _ construction.grammar.strict_symbols
  · intro symbol
    rw [List.mem_filter, decide_eq_true_eq, goto_ne_nil_iff, mem_nextSymbols]
    refine and_iff_right_of_imp ?_
    rintro ⟨item, _, next⟩
    obtain ⟨rest, drop⟩ := Item.nextSymbol_eq_some.mp next
    have inBody : symbol ∈ construction.grammar.bodyOf item.production :=
      List.mem_of_mem_drop (drop ▸ List.mem_cons_self)
    exact Grammar.mem_symbols.mpr (proper.inRange.has_of_mem_bodyOf inBody)

/-- Symbols that lead nowhere can be left out. -/
theorem Collection.expand_filter {construction : Construction} {items : ItemSet}
    (symbols : List Symbol) (sets : Array ItemSet) :
    expand construction items (symbols.filter fun symbol => construction.goto items symbol ≠ [])
        sets = expand construction items symbols sets := by
  induction symbols generalizing sets with
  | nil => rfl
  | cons symbol symbols ih =>
      by_cases leads : construction.goto items symbol = []
      · rw [List.filter_cons_of_neg (by simp [leads]), expand_cons_of_nil symbols leads]
        exact ih sets
      · rw [List.filter_cons_of_pos (by simp [leads]), expand_cons_of_ne _ leads,
          expand_cons_of_ne _ leads, ih]

/-- The vocabulary expands a state as the symbols after its dots do. -/
theorem Construction.Proper.expand_symbols {construction : Construction}
    (proper : construction.Proper) (items : ItemSet) (sets : Array ItemSet) :
    Collection.expand construction items construction.grammar.symbols sets =
      Collection.expand construction items (construction.nextSymbols items) sets := by
  rw [← Collection.expand_filter, proper.filter_symbols]

namespace Search

variable {construction : Construction} {items : ItemSet} {sets larger : Array ItemSet}
  {transitions : Array Transitions} {state : Nat} {queue : List Nat}

theorem follow_of_nil {symbol : Symbol} (search : Search)
    (nowhere : construction.goto items symbol = []) :
    search.follow construction state items symbol = search := by
  rw [follow, nowhere]

/-- A set that is reached is stored, queued if it is new, and linked. -/
theorem follow_of_ne {symbol : Symbol} (leads : construction.goto items symbol ≠ [])
    {stored : Array ItemSet} {target : Nat}
    (found : Collection.store sets (construction.goto items symbol) = (stored, target))
    (placed : transitions.size = sets.size) :
    follow construction state items ⟨⟨sets, transitions⟩, queue⟩ symbol =
      ⟨⟨stored, (pad stored transitions).transitions.modify state (· ++ [(symbol, target)])⟩,
        queue ++ List.range' sets.size (stored.size - sets.size)⟩ := by
  unfold follow
  split
  · rename_i nowhere
    exact absurd nowhere leads
  · unfold Collection.store at found
    unfold Collection.index?
    split at found
    · rename_i known
      cases found
      simp [known, link, pad, placed]
    · rename_i unknown
      cases found
      simp [unknown, link, append, pad, placed, Collection.size]

/-- What is written to a place stays there when more places are added. -/
theorem pad_modify (inside : state < transitions.size) (change : Transitions → Transitions) :
    (pad larger (transitions.modify state change)).transitions =
      (pad larger transitions).transitions.modify state change := by
  apply Array.ext_getElem?
  intro index
  simp only [pad, Array.size_modify, Array.getElem?_modify, Array.getElem?_append]
  split
  · rfl
  · rw [if_neg (by omega)]

theorem pad_pad (placed : transitions.size ≤ sets.size) (grown : sets.size ≤ larger.size) :
    pad larger (pad sets transitions).transitions = pad larger transitions := by
  have places : sets.size - transitions.size + (larger.size - sets.size) =
      larger.size - transitions.size := by omega
  simp [pad, placed, places]

/-- To try symbols from a state is to expand it: what is new is queued, and the transitions are
added in their place. -/
theorem foldl_follow (symbols : List Symbol) {made : Transitions} (inside : state < sets.size)
    (placed : transitions.size = sets.size)
    (expanded : Collection.expand construction items symbols sets = (larger, made)) :
    symbols.foldl (follow construction state items) ⟨⟨sets, transitions⟩, queue⟩ =
      ⟨⟨larger, (pad larger transitions).transitions.modify state (· ++ made)⟩,
        queue ++ List.range' sets.size (larger.size - sets.size)⟩ := by
  induction symbols generalizing sets transitions queue made with
  | nil =>
      cases expanded
      have same : transitions.modify state (fun old => old) = transitions := by
        apply Array.ext_getElem?
        simp [Array.getElem?_modify]
      simp [pad, placed, same]
  | cons symbol symbols ih =>
      rw [List.foldl_cons]
      by_cases leads : construction.goto items symbol = []
      · rw [Collection.expand_cons_of_nil symbols leads] at expanded
        rw [follow_of_nil _ leads]
        exact ih inside placed expanded
      · rw [Collection.expand_cons_of_ne symbols leads] at expanded
        obtain ⟨stored, target, found⟩ : ∃ stored target,
            Collection.store sets (construction.goto items symbol) = (stored, target) :=
          ⟨_, _, rfl⟩
        obtain ⟨further, later, rest⟩ : ∃ further later,
            Collection.expand construction items symbols stored = (further, later) := ⟨_, _, rfl⟩
        rw [found] at expanded
        dsimp only at expanded
        rw [rest] at expanded
        cases expanded
        have more : sets.size ≤ stored.size := by
          have grown := (Collection.store_grown sets (construction.goto items symbol)).length_le
          simpa [found] using grown
        have most := size_le_expand rest
        have room : (pad stored transitions).transitions.size = stored.size := by
          simp only [pad, Array.size_append, Array.size_replicate]
          omega
        have linked : ∀ places : Array Transitions,
            (places.modify state (· ++ [(symbol, target)])).modify state (· ++ later) =
              places.modify state (· ++ (symbol, target) :: later) := by
          intro places
          apply Array.toList_inj.mp
          simp [List.modify_modify_eq, Function.comp_def]
        rw [follow_of_ne leads found placed,
          ih (Nat.lt_of_lt_of_le inside more) (by simpa using room) rest,
          pad_modify (by omega), pad_pad (by omega) most, linked, List.append_assoc,
          range'_append_range' more most]

/-- To survey a state that has no transitions yet is to visit it. -/
theorem survey_eq_visit (proper : construction.Proper) (placed : transitions.size = sets.size)
    (unvisited : transitions[state]? = some []) :
    survey construction ⟨⟨sets, transitions⟩, state :: queue⟩ =
      visit construction ⟨⟨sets, transitions⟩, state :: queue⟩ := by
  have bound := (Array.getElem?_eq_some_iff.mp unvisited).1
  have inside : state < sets.size := placed ▸ bound
  obtain ⟨larger, made, expanded⟩ : ∃ larger made,
      Collection.expand construction sets[state] (construction.nextSymbols sets[state]) sets =
        (larger, made) := ⟨_, _, rfl⟩
  have found : sets[state]? = some sets[state] := Array.getElem?_eq_getElem inside
  have written : (pad larger transitions).transitions.modify state (· ++ made) =
      (pad larger transitions).transitions.setIfInBounds state made := by
    apply Array.ext_getElem?
    intro index
    rw [Array.getElem?_modify, Array.getElem?_setIfInBounds]
    split
    · rename_i here
      subst here
      have empty : (pad larger transitions).transitions[state]? = some [] := by
        rw [pad, Array.getElem?_append, if_pos bound, unvisited]
      have there := (Array.getElem?_eq_some_iff.mp empty).1
      rw [empty, if_pos there]
      rfl
    · rfl
  rw [visit_cons queue found expanded, ← written]
  unfold survey
  simp only [found]
  exact foldl_follow _ inside placed ((proper.expand_symbols _ _).trans expanded)

theorem survey_ofCollection (proper : construction.Proper) {collection : Collection}
    (within : collection.transitions.size ≤ collection.sets.size) :
    (ofCollection collection).survey construction =
      (ofCollection collection).visit construction := by
  obtain ⟨sets, transitions⟩ := collection
  dsimp only at within
  obtain all | bound := Nat.eq_or_lt_of_le within
  · rw [ofCollection_of_finished all]
    rfl
  · obtain ⟨left, count⟩ : ∃ left, sets.size - transitions.size = left + 1 :=
      ⟨sets.size - transitions.size - 1, by omega⟩
    have placed : (pad sets transitions).transitions.size = sets.size := by
      simp only [pad, Array.size_append, Array.size_replicate]
      omega
    have unvisited : (pad sets transitions).transitions[transitions.size]? = some [] := by
      simp [pad, count]
    rw [ofCollection, count, List.range'_succ]
    exact survey_eq_visit proper placed unvisited

/-- A visit leaves the states that are visited in the order of their numbers. -/
theorem exists_visit_ofCollection (construction : Construction) {collection : Collection}
    (within : collection.transitions.size ≤ collection.sets.size) :
    ∃ next : Collection, next.transitions.size ≤ next.sets.size ∧
      (ofCollection collection).visit construction = ofCollection next := by
  obtain all | bound := Nat.eq_or_lt_of_le within
  · refine ⟨collection, within, ?_⟩
    rw [ofCollection_of_finished all]
    rfl
  · refine ⟨_, ?_, visit_ofCollection (Array.getElem?_eq_getElem bound) rfl⟩
    rw [Array.size_push]
    exact Nat.le_trans bound (size_le_expand rfl)

/-- Surveys and visits keep abreast from where states are visited in the order of their numbers. -/
theorem surveyAll_ofCollection (proper : construction.Proper) (visits : Nat)
    (collection : Collection) (within : collection.transitions.size ≤ collection.sets.size) :
    (ofCollection collection).surveyAll construction visits =
      (ofCollection collection).run construction visits := by
  induction visits generalizing collection with
  | zero => rfl
  | succ visits ih =>
      obtain ⟨next, later, visited⟩ := exists_visit_ofCollection construction within
      rw [surveyAll, run, survey_ofCollection proper within, visited]
      exact ih next later

/-- The search over the whole vocabulary and the one over the symbols after the dots are the same at
every moment, and end with the canonical collection: its sets and their transitions, each under its
number. -/
theorem surveyAll_canonical {description : Description} {grammar : Grammar}
    (built : description.build = .ok grammar) :
    (∀ visits, (first grammar.construction).surveyAll grammar.construction visits =
      (start grammar.construction .empty).run grammar.construction visits) ∧
    ∃ visits, (first grammar.construction).surveyAll grammar.construction visits =
      ⟨grammar.construction.collection, []⟩ := by
  have proper := (Description.wellFormed_of_build built).proper
  have begins : first grammar.construction =
      ofCollection ⟨#[grammar.construction.startItems], #[]⟩ := rfl
  have started : start grammar.construction .empty = first grammar.construction := by
    simp [start, first, Collection.store, Collection.empty, pad, Construction.startItems]
  have abreast : ∀ visits, (first grammar.construction).surveyAll grammar.construction visits =
      (start grammar.construction .empty).run grammar.construction visits := by
    intro visits
    rw [started, begins]
    exact surveyAll_ofCollection proper visits _ (Nat.zero_le _)
  obtain ⟨visits, ended⟩ := run_start_empty proper
  exact ⟨abreast, visits, (abreast visits).trans ended⟩

end Search

/-- After a whole pair all six symbols are tried although no dot is before any of them. -/
theorem Search.surveyAll_canonical_twofold :
    Description.twofold.build = .ok .twofold ∧
    Grammar.twofold.construction.grammar.symbols.length = 6 ∧
    Grammar.twofold.construction.nextSymbols
      (Grammar.twofold.construction.collection.itemsAt 3) = [] ∧
    Grammar.twofold.construction.collection.transitionsAt 0 =
      [(.token 0, 1), (.token 1, 2), (.nonterminal 0, 3), (.nonterminal 1, 4)] ∧
    (∀ visits, (first Grammar.twofold.construction).surveyAll Grammar.twofold.construction visits =
      (start Grammar.twofold.construction .empty).run Grammar.twofold.construction visits) ∧
    ∃ visits, (first Grammar.twofold.construction).surveyAll Grammar.twofold.construction visits =
      ⟨Grammar.twofold.construction.collection, []⟩ := by
  have built : Description.twofold.build = .ok .twofold := by decide +kernel
  obtain ⟨abreast, ends⟩ := Search.surveyAll_canonical built
  refine ⟨built, by decide, ?_, ?_, abreast, ends⟩
  · decide +kernel
  · decide +kernel

end ThreeAddress

import ThreeAddress.Item.Closure

/-!
The canonical collection: all item sets that reading can reach, numbered in the order in which a
breadth-first search finds them.
-/

set_option autoImplicit false

namespace ThreeAddress

/-- The numbers of the sets reached over each symbol, in the order of the vocabulary. -/
abbrev Transitions := List (Symbol × Nat)

/-- The item sets found so far, by number, and the transitions of those visited already. -/
structure Collection where
  sets : Array ItemSet
  transitions : Array Transitions
deriving Repr, DecidableEq

namespace Collection

def empty : Collection := ⟨#[], #[]⟩

def size (collection : Collection) : Nat := collection.sets.size

/-- The number of the state with exactly these items. -/
def index? (collection : Collection) (items : ItemSet) : Option Nat :=
  collection.sets.findIdx? (· == items)

def itemsAt (collection : Collection) (state : Nat) : ItemSet :=
  collection.sets.getD state []

def transitionsAt (collection : Collection) (state : Nat) : Transitions :=
  collection.transitions.getD state []

/-- The texts of the items of a state, none if there is no such state. -/
def itemTexts (collection : Collection) (grammar : Grammar) (state : Nat) : List String :=
  (collection.itemsAt state).map (Item.text grammar)

/-- The number of a set, which is appended if it is not there yet. -/
def store (sets : Array ItemSet) (items : ItemSet) : Array ItemSet × Nat :=
  match sets.findIdx? (· == items) with
  | some index => (sets, index)
  | none => (sets.push items, sets.size)

/-- Stores the sets reached from `items` over each of the symbols in turn. -/
def expand (construction : Construction) (items : ItemSet) :
    List Symbol → Array ItemSet → Array ItemSet × Transitions
  | [], sets => (sets, [])
  | symbol :: symbols, sets =>
    match construction.goto items symbol with
    | [] => expand construction items symbols sets
    | target =>
      let (stored, index) := store sets target
      let (found, transitions) := expand construction items symbols stored
      (found, (symbol, index) :: transitions)

/-- Visits the sets in the order of their numbers, at most `visits` of them. The next one to visit
is the first that has no transitions yet. -/
def explore (construction : Construction) : (visits : Nat) → Collection → Collection
  | 0, collection => collection
  | visits + 1, collection =>
    match collection.sets[collection.transitions.size]? with
    | none => collection
    | some items =>
      let (sets, transitions) :=
        expand construction items (construction.nextSymbols items) collection.sets
      explore construction visits ⟨sets, collection.transitions.push transitions⟩

end Collection

/-- The number of items with a dot inside the body and a token of the grammar or the end of input
after it. -/
def Grammar.itemCount (grammar : Grammar) : Nat :=
  grammar.productions.foldl (fun count production => count + production.body.length + 1) 0 *
    (grammar.tokens.length + 1)

/-- The canonical collection. There are no more sets of items than subsets of all items. -/
def Construction.collection (construction : Construction) : Collection :=
  Collection.explore construction (Nat.pow 2 construction.grammar.itemCount)
    ⟨#[construction.startItems], #[]⟩

namespace Collection

def stateText (collection : Collection) (grammar : Grammar) (state : Nat) : String :=
  let items := (collection.itemTexts grammar state).map fun item => "  " ++ item ++ "\n"
  let transitions := (collection.transitionsAt state).map fun (symbol, target) =>
    "  " ++ grammar.symbolName symbol ++ " => " ++ toString target ++ "\n"
  "State " ++ toString state ++ "\n" ++ String.join items ++ String.join transitions ++ "\n"

/-- All states with their items and transitions. -/
def text (collection : Collection) (grammar : Grammar) : String :=
  String.join ((List.range collection.size).map (collection.stateText grammar))

end Collection

end ThreeAddress

import ThreeAddress.Grammar.First
import ThreeAddress.Item.Basic

/-!
Closed sets of items. An item with a nonterminal after its dot calls for the initial items of that
nonterminal, one for each token that may follow; the closure answers every such call.
-/

set_option autoImplicit false

namespace ThreeAddress

/-- A set of items, as a strictly ascending list. -/
abbrev ItemSet := List Item

/-- A production whose body begins with a nonterminal: the tokens that can begin the rest of the
body, and whether what follows the head can also follow that nonterminal. -/
structure Corner where
  head : Nat
  target : Nat
  first : List Nat
  passes : Bool
deriving Repr, DecidableEq

def FirstSets.corner? (sets : FirstSets) (production : Production) : Option Corner :=
  match production.body with
  | .nonterminal target :: rest =>
    some ⟨production.head, target, sets.sequenceFirst rest, rest.all sets.isNullable⟩
  | _ => none

namespace Corner

/-- If anything is expected after the head, the rest of the body is expected after the target, and
so is what follows the head if the rest of the body can vanish. -/
def spread (expected : TokenSets) (corner : Corner) : TokenSets :=
  match expected.get corner.head with
  | [] => expected
  | tokens =>
    expected.add corner.target
      (if corner.passes then Ascending.union corner.first tokens else corner.first)

end Corner

/-- A grammar with its end of input and its first sets: all that item sets are built from. -/
structure Construction where
  grammar : Grammar
  eof : Nat
  first : FirstSets
deriving Repr, DecidableEq

namespace Construction

def ofGrammar (grammar : Grammar) (eof : Nat) : Construction :=
  ⟨grammar, eof, grammar.firstSets⟩

/-- The production whose completion accepts: the first one of the start symbol. -/
def acceptProduction (construction : Construction) : Nat :=
  (construction.grammar.productionsOf construction.grammar.start).headD 0

/-- The nonterminal after the dot of an item, and the tokens that may follow it there. -/
def expectation? (construction : Construction) (item : Item) : Option (Nat × List Nat) :=
  match (construction.grammar.bodyOf item.production).drop item.dot with
  | .nonterminal target :: rest => some (target, construction.first.lookahead rest item.lookahead)
  | _ => none

/-- The items that one item calls for: every production of the nonterminal after its dot, with every
token that may follow there. -/
def closureStep (construction : Construction) (item : Item) : List Item :=
  match construction.expectation? item with
  | none => []
  | some (target, lookaheads) =>
    (construction.grammar.productionsOf target).flatMap fun production =>
      lookaheads.map (Item.initial production)

/-- The tokens expected after each nonterminal by the items themselves. -/
def expectedBy (construction : Construction) (items : ItemSet) : TokenSets :=
  items.foldl
    (fun expected item =>
      match construction.expectation? item with
      | none => expected
      | some (target, lookaheads) => expected.add target lookaheads)
    (.empty construction.grammar.nonterminals.length)

def corners (construction : Construction) : List Corner :=
  construction.grammar.productions.filterMap construction.first.corner?

/-- The tokens expected after each nonterminal in the closure. Each round but the last adds at least
one token to one nonterminal, which bounds their number. -/
def expected (construction : Construction) (items : ItemSet) : TokenSets :=
  let corners := construction.corners
  let rounds := construction.grammar.nonterminals.length *
    (construction.grammar.tokens.length + items.length) + 1
  settle (fun expected => corners.foldl Corner.spread expected) rounds
    (construction.expectedBy items)

/-- The initial items of all productions, with the tokens expected after their heads. -/
def initialItems (construction : Construction) (expected : TokenSets) : ItemSet :=
  (construction.grammar.productions.zipIdx).flatMap fun (production, index) =>
    (expected.get production.head).map (Item.initial index)

/-- The least set that holds the items and all that its members call for. -/
def closure (construction : Construction) (items : ItemSet) : ItemSet :=
  Ascending.union items (construction.initialItems (construction.expected items))

/-- The items past the symbol, for those that have it after their dot. -/
def kernel (construction : Construction) (items : ItemSet) (symbol : Symbol) : ItemSet :=
  (items.filter fun item => item.nextSymbol construction.grammar == some symbol).map Item.advance

/-- The closed set reached over a symbol, empty if no item has it after its dot. -/
def goto (construction : Construction) (items : ItemSet) (symbol : Symbol) : ItemSet :=
  match construction.kernel items symbol with
  | [] => []
  | kernel => construction.closure kernel

/-- The closure of the item from which reading starts. -/
def startItems (construction : Construction) : ItemSet :=
  construction.closure [.initial construction.acceptProduction construction.eof]

/-- The symbols after the dots, in the order of the vocabulary. -/
def nextSymbols (construction : Construction) (items : ItemSet) : List Symbol :=
  Ascending.ofList (items.filterMap (Item.nextSymbol construction.grammar))

end Construction

end ThreeAddress

import ThreeAddress.Grammar.Basic

/-!
LR(1) items: a production, a place in its body, and the token that may follow it.
-/

set_option autoImplicit false

namespace ThreeAddress

structure Item where
  production : Nat
  dot : Nat
  lookahead : Nat
deriving Repr, DecidableEq

namespace Item

/-- Items are ordered by production, then by the place of the dot, then by lookahead. -/
def order (left right : Item) : Ordering :=
  (compare left.production right.production).then
    ((compare left.dot right.dot).then (compare left.lookahead right.lookahead))

instance : Ord Item := ⟨order⟩

instance : Std.TransOrd Item :=
  inferInstanceAs (Std.TransCmp (compareLex (compareOn Item.production)
    (compareLex (compareOn Item.dot) (compareOn Item.lookahead))))

instance : Std.LawfulEqOrd Item where
  compare_self := by
    intro item
    change order item item = _
    simp [order]
  eq_of_compare := by
    intro left right same
    change order left right = _ at same
    simp only [order, Ordering.then_eq_eq, Nat.compare_eq_eq] at same
    cases left
    cases right
    simp_all

/-- The item at the beginning of a production. -/
def initial (production lookahead : Nat) : Item := ⟨production, 0, lookahead⟩

def advance (item : Item) : Item := { item with dot := item.dot + 1 }

/-- The symbol right after the dot. -/
def nextSymbol (grammar : Grammar) (item : Item) : Option Symbol :=
  (grammar.bodyOf item.production)[item.dot]?

def isComplete (grammar : Grammar) (item : Item) : Bool :=
  decide ((grammar.bodyOf item.production).length ≤ item.dot)

/-- The names of the symbols with the dot in its place. A dot past the end is not shown. -/
def dotted : Nat → List String → List String
  | 0, names => "." :: names
  | _ + 1, [] => []
  | dot + 1, name :: rest => name :: dotted dot rest

def text (grammar : Grammar) (item : Item) : String :=
  let head := (grammar.productions[item.production]?.map Production.head).getD 0
  let names := (grammar.bodyOf item.production).map grammar.symbolName
  " ".intercalate (grammar.nonterminalName head :: "->" :: dotted item.dot names) ++
    ", " ++ grammar.tokenName item.lookahead

end Item

end ThreeAddress

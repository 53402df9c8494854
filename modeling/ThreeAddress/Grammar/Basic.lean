/-!
Context-free grammars over numbered tokens and nonterminals, and the text of their productions.
-/

set_option autoImplicit false

namespace ThreeAddress

/-- A grammar symbol, by its number among the symbols of its kind. -/
inductive Symbol where
  | token (id : Nat)
  | nonterminal (id : Nat)
deriving Repr, DecidableEq

/-- Tokens come before nonterminals, and symbols of one kind in the order of their numbers. -/
def Symbol.order : Symbol → Symbol → Ordering
  | .token left, .token right => compare left right
  | .token _, .nonterminal _ => .lt
  | .nonterminal _, .token _ => .gt
  | .nonterminal left, .nonterminal right => compare left right

instance : Ord Symbol := ⟨Symbol.order⟩

theorem Symbol.order_swap (left right : Symbol) :
    left.order right = (right.order left).swap := by
  cases left with
  | token left =>
      cases right with
      | token right => exact (Nat.compare_swap right left).symm
      | nonterminal right => rfl
  | nonterminal left =>
      cases right with
      | token right => rfl
      | nonterminal right => exact (Nat.compare_swap right left).symm

instance : Std.TransOrd Symbol where
  eq_swap := Symbol.order_swap _ _
  isLE_trans := by
    intro first second third below above
    change (Symbol.order _ _).isLE at *
    cases first with
    | token first =>
        cases third with
        | nonterminal third => rfl
        | token third =>
            cases second with
            | token second => exact Std.TransOrd.isLE_trans below above
            | nonterminal second => cases above
    | nonterminal first =>
        cases second with
        | token second => cases below
        | nonterminal second =>
            cases third with
            | token third => cases above
            | nonterminal third => exact Std.TransOrd.isLE_trans below above

instance : Std.LawfulEqOrd Symbol where
  compare_self := by
    intro symbol
    change Symbol.order _ _ = _
    cases symbol <;> simp [Symbol.order]
  eq_of_compare := by
    intro left right same
    change Symbol.order _ _ = _ at same
    cases left <;> cases right <;> simp_all [Symbol.order]

structure Production where
  head : Nat
  body : List Symbol
deriving Repr, DecidableEq

/-- The numbers of productions by their heads: a map with at most one row for each head. -/
structure HeadIndex where
  rows : List (Nat × List Nat) := []
deriving Repr, DecidableEq

namespace HeadIndex

def get (index : HeadIndex) (head : Nat) : List Nat :=
  (index.rows.lookup head).getD []

/-- Replaces the row of a head, or appends one if there is none. -/
def putRow (head : Nat) (listed : List Nat) : List (Nat × List Nat) → List (Nat × List Nat)
  | [] => [(head, listed)]
  | row :: rest => if row.1 = head then (head, listed) :: rest else row :: putRow head listed rest

def insert (index : HeadIndex) (head : Nat) (listed : List Nat) : HeadIndex :=
  ⟨putRow head listed index.rows⟩

/-- Lists one more production with its head. -/
def push (index : HeadIndex) (head production : Nat) : HeadIndex :=
  index.insert head (index.get head ++ [production])

@[simp] theorem get_empty (head : Nat) : get {} head = [] := rfl

theorem lookup_row (row : Nat × List Nat) (rest : List (Nat × List Nat)) (head : Nat) :
    (row :: rest).lookup head = if row.1 = head then some row.2 else rest.lookup head := by
  by_cases same : row.1 = head
  · rw [if_pos same, ← same, List.lookup_cons_self]
  · rw [if_neg same, List.lookup_cons, beq_false_of_ne (Ne.symm same)]

theorem lookup_putRow (head : Nat) (listed : List Nat) (rows : List (Nat × List Nat))
    (other : Nat) :
    (putRow head listed rows).lookup other =
      if head = other then some listed else rows.lookup other := by
  induction rows with
  | nil => exact lookup_row (head, listed) [] other
  | cons row rest ih =>
      rw [putRow]
      split
      · rename_i same
        rw [lookup_row, lookup_row row, same]
        split <;> rfl
      · rename_i different
        rw [lookup_row, lookup_row row, ih]
        -- A row passed over belongs to another head.
        by_cases asked : head = other
        · rw [if_neg (asked ▸ different), if_pos asked, if_pos asked]
        · rw [if_neg asked, if_neg asked]

theorem get_insert (index : HeadIndex) (head : Nat) (listed : List Nat) (other : Nat) :
    (index.insert head listed).get other = if head = other then listed else index.get other := by
  rw [get, insert, lookup_putRow]
  split <;> rfl

theorem get_push (index : HeadIndex) (head production other : Nat) :
    (index.push head production).get other =
      index.get other ++ if head = other then [production] else [] := by
  rw [push, get_insert]
  split
  · rename_i same
    rw [same]
  · rw [List.append_nil]

end HeadIndex

/-- A grammar. Names stand in the order of the numbers they belong to, a production is known by its
place in the list, and the productions of each nonterminal are kept apart in an index. -/
structure Grammar where
  tokens : List String
  nonterminals : List String
  productions : List Production
  byHead : HeadIndex
  start : Nat
deriving Repr, DecidableEq

namespace Grammar

def token? (grammar : Grammar) (name : String) : Option Nat :=
  grammar.tokens.idxOf? name

def nonterminal? (grammar : Grammar) (name : String) : Option Nat :=
  grammar.nonterminals.idxOf? name

/-- The symbol of a name. A token is preferred to a nonterminal. -/
def symbol? (grammar : Grammar) (name : String) : Option Symbol :=
  match grammar.token? name with
  | some id => some (.token id)
  | none => (grammar.nonterminal? name).map .nonterminal

/-- The name of a token. A number that belongs to no token is shown as the end of input. -/
def tokenName (grammar : Grammar) (id : Nat) : String :=
  grammar.tokens.getD id "$"

def nonterminalName (grammar : Grammar) (id : Nat) : String :=
  grammar.nonterminals.getD id "?"

def symbolName (grammar : Grammar) : Symbol → String
  | .token id => grammar.tokenName id
  | .nonterminal id => grammar.nonterminalName id

/-- The whole vocabulary: tokens by number, then nonterminals by number. -/
def symbols (grammar : Grammar) : List Symbol :=
  (List.range grammar.tokens.length).map .token ++
    (List.range grammar.nonterminals.length).map .nonterminal

/-- The productions listed with a nonterminal. -/
def productionsOf (grammar : Grammar) (head : Nat) : List Nat :=
  grammar.byHead.get head

/-- The body of a production. A number that belongs to no production has an empty body. -/
def bodyOf (grammar : Grammar) (production : Nat) : List Symbol :=
  (grammar.productions[production]?.map Production.body).getD []

def productionText (grammar : Grammar) (production : Production) : String :=
  let body := if production.body.isEmpty then ["ε"] else production.body.map grammar.symbolName
  " ".intercalate (grammar.nonterminalName production.head :: "->" :: body)

/-- The text of the production with the given number, empty if there is none. -/
def productionTextAt (grammar : Grammar) (production : Nat) : String :=
  (grammar.productions[production]?.map grammar.productionText).getD ""

end Grammar

end ThreeAddress

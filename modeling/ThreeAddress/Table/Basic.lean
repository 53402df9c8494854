import ThreeAddress.Collection
import ThreeAddress.Fault
import ThreeAddress.Grammar.Augmented
import ThreeAddress.Table.Conflict

/-!
Action and goto tables. The items of a state write to the cells of its rows in item order; the first
value written to a cell stays, and each different one that is turned away is a conflict.
-/

set_option autoImplicit false

namespace ThreeAddress

/-- A value written to one cell of a row. -/
structure Write (α : Type) where
  cell : Nat
  value : α
deriving Repr, DecidableEq

/-- How the cells of a table hold values: what a cell holds at first, and what it holds once a value
is written to it. -/
structure Cells (α κ : Type) where
  blank : κ
  full : α → κ
  held? : κ → Option α

namespace Cells

/-- A cell of the goto table holds a state or nothing. -/
def target : Cells Nat (Option Nat) where
  blank := none
  full := some
  held? := id

/-- A cell of the action table holds an action, at first an error. -/
def action : Cells Action Action where
  blank := .error
  full := id
  held? kept := if kept = .error then none else some kept

end Cells

section Loop

variable {α κ σ : Type} [DecidableEq α]

/-- A row while it is filled, and what is recorded of the values turned away so far. -/
structure Row (κ σ : Type) where
  cells : Array κ
  record : σ

/-- Writes a value to its cell. A value that differs from the one held there is turned away and
recorded by `refuse`, together with the one held. -/
def Row.write (kind : Cells α κ) (refuse : σ → Write (α × α) → σ) (row : Row κ σ)
    (write : Write α) : Row κ σ :=
  match row.cells[write.cell]? with
  | none => row
  | some cell =>
    match kind.held? cell with
    | none => { row with cells := row.cells.setIfInBounds write.cell (kind.full write.value) }
    | some held =>
      if held = write.value then row
      else { row with record := refuse row.record ⟨write.cell, (held, write.value)⟩ }

/-- A table while its rows are filled, one after another. -/
structure Draft (κ σ : Type) where
  rows : Array (Array κ)
  record : σ

/-- Fills the row of a state by the values written to it. -/
def Draft.fillRow (kind : Cells α κ) (refuse : Nat → σ → Write (α × α) → σ)
    (writes : Nat → List (Write α)) (draft : Draft κ σ) (state : Nat) : Draft κ σ :=
  let row := (writes state).foldl (Row.write kind (refuse state))
    ⟨draft.rows.getD state #[], draft.record⟩
  ⟨draft.rows.setIfInBounds state row.cells, row.record⟩

/-- Fills the rows of all states, from a table of blank cells. -/
def Draft.fill (kind : Cells α κ) (refuse : Nat → σ → Write (α × α) → σ)
    (writes : Nat → List (Write α)) (states width : Nat) (record : σ) : Draft κ σ :=
  (List.range states).foldl (fillRow kind refuse writes)
    ⟨Array.replicate states (Array.replicate width kind.blank), record⟩

end Loop

namespace Construction

/-- The state that an item leads to if a nonterminal comes next. -/
def gotoWrite? (construction : Construction) (transitions : Transitions) (item : Item) :
    Option (Write Nat) :=
  match item.nextSymbol construction.grammar with
  | some (.nonterminal id) =>
    (transitions.lookup (.nonterminal id)).map fun target => ⟨id, target⟩
  | _ => none

/-- The action that an item asks for: to read the token after its dot, or if it is complete to
reduce by its production, which for the start production at the end of input is to accept. -/
def actionWrite? (construction : Construction) (transitions : Transitions) (item : Item) :
    Option (Write Action) :=
  match item.nextSymbol construction.grammar with
  | some (.token id) =>
    (transitions.lookup (.token id)).map fun target => ⟨id, .shift target⟩
  | some (.nonterminal _) => none
  | none =>
    if item.production = construction.acceptProduction ∧ item.lookahead = construction.eof then
      some ⟨item.lookahead, .accept⟩
    else
      some ⟨item.lookahead, .reduce item.production⟩

/-- The production an action reduces by. To accept is to reduce by the start production. -/
def reducedProduction (construction : Construction) : Action → Nat
  | .reduce production => production
  | .accept => construction.acceptProduction
  | _ => 0

/-- The record of an action turned away. -/
def actionConflict (construction : Construction) (state : Nat) (items : List String)
    (clash : Write (Action × Action)) : Conflict :=
  let grammar := construction.grammar
  let shiftReduce (shift : Nat) (other : Action) : Conflict :=
    let production := construction.reducedProduction other
    .shiftReduce
      { state, token := grammar.tokenName clash.cell, shift
        reduce := grammar.productionTextAt production, production
        kept := clash.value.1, items }
  match clash.value with
  | (.shift shift, other) => shiftReduce shift other
  | (other, .shift shift) => shiftReduce shift other
  | (kept, rejected) =>
    let production1 := construction.reducedProduction kept
    let production2 := construction.reducedProduction rejected
    .reduceReduce
      { state, lookahead := grammar.tokenName clash.cell
        reduce1 := grammar.productionTextAt production1
        reduce2 := grammar.productionTextAt production2
        production1, production2, kept, items }

def gotoConflict (construction : Construction) (state : Nat) (clash : Write (Nat × Nat)) :
    Conflict :=
  .goto
    { state, nonterminal := construction.grammar.nonterminalName clash.cell
      kept := clash.value.1, rejected := clash.value.2 }

end Construction

/-- The tables of a collection: an action for each state and token, and a state or nothing for each
state and nonterminal. -/
structure Tables where
  action : Array (Array Action)
  goto : Array (Array (Option Nat))
  conflicts : List Conflict
deriving Repr, DecidableEq

namespace Tables

def gotoWrites (construction : Construction) (collection : Collection) (state : Nat) :
    List (Write Nat) :=
  (collection.itemsAt state).filterMap
    (construction.gotoWrite? (collection.transitionsAt state))

def actionWrites (construction : Construction) (collection : Collection) (state : Nat) :
    List (Write Action) :=
  (collection.itemsAt state).filterMap
    (construction.actionWrite? (collection.transitionsAt state))

/-- Records each value turned away from the goto table. -/
def refuseTarget (construction : Construction) (state : Nat) (conflicts : List Conflict)
    (clash : Write (Nat × Nat)) : List Conflict :=
  conflicts ++ [construction.gotoConflict state clash]

/-- What is recorded while the action table is filled: the actions turned away, with their states, and
the conflicts. -/
structure Rejections where
  rejected : List (Nat × Write Action) := []
  conflicts : List Conflict
deriving Repr, DecidableEq

/-- The state, the cell and the value of an action turned away. -/
def rejection (state : Nat) (clash : Write (Action × Action)) : Nat × Write Action :=
  (state, ⟨clash.cell, clash.value.2⟩)

/-- Records an action turned away, but an action turned away from one cell repeatedly only once. -/
def refuseAction (construction : Construction) (collection : Collection) (state : Nat)
    (rejections : Rejections) (clash : Write (Action × Action)) : Rejections :=
  let entry := rejection state clash
  if rejections.rejected.contains entry then rejections
  else
    let items := collection.itemTexts construction.grammar state
    { rejected := rejections.rejected ++ [entry]
      conflicts := rejections.conflicts ++ [construction.actionConflict state items clash] }

/-- Fills both tables, the goto table first. -/
def fill (construction : Construction) (collection : Collection) : Tables :=
  let grammar := construction.grammar
  let goto := Draft.fill .target (refuseTarget construction)
    (gotoWrites construction collection) collection.size grammar.nonterminals.length []
  let action := Draft.fill .action (refuseAction construction collection)
    (actionWrites construction collection) collection.size grammar.tokens.length
    { conflicts := goto.record }
  { action := action.rows, goto := goto.rows, conflicts := action.record.conflicts }

/-- The first action asked for on a token that the grammar does not have. -/
def strayWrite? (construction : Construction) (collection : Collection) : Option (Write Action) :=
  ((List.range collection.size).flatMap (actionWrites construction collection)).find? fun write =>
    decide (construction.grammar.tokens.length ≤ write.cell)

/-- Fills both tables if each action has a cell. Only an end of input that is no token of the grammar
can ask for one outside its row. -/
def fillChecked (construction : Construction) (collection : Collection) : Except Fault Tables :=
  match strayWrite? construction collection with
  | some write => .error (.outOfBounds construction.grammar.tokens.length write.cell)
  | none => .ok (fill construction collection)

end Tables

/-- A table-driven parser: an augmented grammar and its tables. -/
structure ParseTable where
  grammar : Grammar
  eof : Nat
  acceptProduction : Nat
  tables : Tables
deriving Repr, DecidableEq

namespace ParseTable

/-- Augments a grammar and builds its canonical tables. -/
def ofGrammar (grammar : Grammar) : ParseTable :=
  let augmented := grammar.augment
  let construction := Construction.ofGrammar augmented.grammar augmented.eof
  { grammar := augmented.grammar
    eof := augmented.eof
    acceptProduction := construction.acceptProduction
    tables := .fill construction construction.collection }

def stateCount (table : ParseTable) : Nat := table.tables.action.size

def conflicts (table : ParseTable) : List Conflict := table.tables.conflicts

/-- Overwrites one cell of the action table. -/
def setAction (table : ParseTable) (state token : Nat) (action : Action) : ParseTable :=
  let rows := table.tables.action.modify state (·.setIfInBounds token action)
  { table with tables := { table.tables with action := rows } }

/-- Overwrites one cell of the goto table. -/
def setGoto (table : ParseTable) (state nonterminal : Nat) (target : Option Nat) : ParseTable :=
  let rows := table.tables.goto.modify state (·.setIfInBounds nonterminal target)
  { table with tables := { table.tables with goto := rows } }

end ParseTable

namespace Tables

/-- A row of the action table: the texts of its entries by token. -/
def actionRowText (row : Array Action) : String :=
  " ".intercalate (row.toList.map Action.text)

/-- A row of the goto table: state numbers by nonterminal, with a dash for none. -/
def gotoRowText (row : Array (Option Nat)) : String :=
  " ".intercalate (row.toList.map fun
    | some state => toString state
    | none => "-")

end Tables

end ThreeAddress

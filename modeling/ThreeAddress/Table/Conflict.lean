import ThreeAddress.Table.Action

/-!
Conflicts met while tables are filled, with their one-line messages and their full reports.
-/

set_option autoImplicit false

namespace ThreeAddress

/-- A cell can be filled by reading its token or by a reduction. -/
structure ShiftReduce where
  state : Nat
  token : String
  shift : Nat
  reduce : String
  production : Nat
  kept : Action
  items : List String
deriving Repr, DecidableEq

/-- A cell can be filled by two reductions, the first of which was kept. -/
structure ReduceReduce where
  state : Nat
  lookahead : String
  reduce1 : String
  reduce2 : String
  production1 : Nat
  production2 : Nat
  kept : Action
  items : List String
deriving Repr, DecidableEq

/-- A nonterminal leads to two states. -/
structure GotoClash where
  state : Nat
  nonterminal : String
  kept : Nat
  rejected : Nat
deriving Repr, DecidableEq

inductive Conflict where
  | shiftReduce (conflict : ShiftReduce)
  | reduceReduce (conflict : ReduceReduce)
  | goto (conflict : GotoClash)
deriving Repr, DecidableEq

namespace Conflict

def state : Conflict → Nat
  | .shiftReduce conflict => conflict.state
  | .reduceReduce conflict => conflict.state
  | .goto conflict => conflict.state

def message : Conflict → String
  | .shiftReduce conflict =>
    "shift-reduce conflict in state " ++ toString conflict.state ++ " on " ++ conflict.token ++
      ": shift " ++ toString conflict.shift ++ " or reduce by " ++ conflict.reduce
  | .reduceReduce conflict =>
    "reduce-reduce conflict in state " ++ toString conflict.state ++ " on " ++
      conflict.lookahead ++ ": reduce by " ++ conflict.reduce1 ++ " or by " ++ conflict.reduce2
  | .goto conflict =>
    "goto conflict in state " ++ toString conflict.state ++ " on " ++ conflict.nonterminal ++
      ": " ++ toString conflict.kept ++ " or " ++ toString conflict.rejected

/-- The head of a report: the kind of conflict, the state and its items. -/
def stateReport (kind : String) (state : Nat) (items : List String) : String :=
  kind ++ " conflict at state " ++ toString state ++ ":\n\n" ++
    String.join (items.map fun item => "  " ++ item ++ "\n")

/-- What a shift-reduce conflict kept, in words. -/
def ShiftReduce.keptText (conflict : ShiftReduce) : String :=
  match conflict.kept with
  | .shift _ => "shift " ++ conflict.token
  | _ => "reduce by " ++ conflict.reduce

def report : Conflict → String
  | .shiftReduce conflict =>
    stateReport "shift-reduce" conflict.state conflict.items ++
      "\nwhich can shift " ++ conflict.token ++ "\nor reduce by:\n\n  " ++ conflict.reduce ++
      "\n\nkept: " ++ ShiftReduce.keptText conflict ++ "\n"
  | .reduceReduce conflict =>
    stateReport "reduce-reduce" conflict.state conflict.items ++
      "\nwhich can be reduced by:\n\n  " ++ conflict.reduce1 ++ "\n\nor:\n\n  " ++
      conflict.reduce2 ++ "\n\nwhen the lookahead is " ++ conflict.lookahead ++
      "\n\nkept: " ++ conflict.reduce1 ++ "\n"
  | .goto conflict =>
    "goto conflict at state " ++ toString conflict.state ++ ":\n\n  " ++ conflict.nonterminal ++
      " leads to state " ++ toString conflict.kept ++ " and state " ++
      toString conflict.rejected ++ "\n\nkept: state " ++ toString conflict.kept ++ "\n"

end Conflict

end ThreeAddress

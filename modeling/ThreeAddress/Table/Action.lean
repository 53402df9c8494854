/-!
The entries of an action table.
-/

set_option autoImplicit false

namespace ThreeAddress

/-- What a parser does on a token: give up, read it and enter a state, reduce by a production, or
accept. -/
inductive Action where
  | error
  | shift (state : Nat)
  | reduce (production : Nat)
  | accept
deriving Repr, DecidableEq

namespace Action

def text : Action → String
  | .error => "error"
  | .shift state => "s" ++ toString state
  | .reduce production => "r" ++ toString production
  | .accept => "acc"

/-- Reads an action back from its text. -/
def ofText? (text : String) : Option Action :=
  match text.toList with
  | ['e', 'r', 'r', 'o', 'r'] => some .error
  | ['a', 'c', 'c'] => some .accept
  | 's' :: digits => (String.ofList digits).toNat?.map .shift
  | 'r' :: digits => (String.ofList digits).toNat?.map .reduce
  | _ => none

end Action

end ThreeAddress

/-!
Ways in which a computation breaks off without an answer.
-/

set_option autoImplicit false

namespace ThreeAddress

/-- Array dimensions whose product does not fit in a word, or a place that a list does not have. -/
inductive Fault where
  | sizeOverflow
  | outOfBounds (length index : Nat)
deriving Repr, DecidableEq

def Fault.message : Fault → String
  | .sizeOverflow => "attempt to multiply with overflow"
  | .outOfBounds length index =>
    "index out of bounds: the len is " ++ toString length ++ " but the index is " ++
      toString index

end ThreeAddress

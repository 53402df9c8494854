/-!
Three-address instructions and their text.
-/

set_option autoImplicit false

namespace ThreeAddress

inductive BinaryOp where
  | or | and | eq | ne | lt | le | ge | gt | add | sub | mul | div
deriving Repr, DecidableEq

namespace BinaryOp

def all : List BinaryOp := [.or, .and, .eq, .ne, .lt, .le, .ge, .gt, .add, .sub, .mul, .div]

def text : BinaryOp → String
  | .or => "||"
  | .and => "&&"
  | .eq => "=="
  | .ne => "!="
  | .lt => "<"
  | .le => "<="
  | .ge => ">="
  | .gt => ">"
  | .add => "+"
  | .sub => "-"
  | .mul => "*"
  | .div => "/"

/-- The operator in words. -/
def name : BinaryOp → String
  | .or => "Or"
  | .and => "And"
  | .eq => "Eq"
  | .ne => "Ne"
  | .lt => "Lt"
  | .le => "Le"
  | .ge => "Ge"
  | .gt => "Gt"
  | .add => "Add"
  | .sub => "Sub"
  | .mul => "Mul"
  | .div => "Div"

end BinaryOp

inductive UnaryOp where
  | not | neg
deriving Repr, DecidableEq

namespace UnaryOp

def all : List UnaryOp := [.not, .neg]

def text : UnaryOp → String
  | .not => "!"
  | .neg => "-"

/-- The operator in words. -/
def name : UnaryOp → String
  | .not => "Not"
  | .neg => "Neg"

end UnaryOp

/-- A jump target, by its number. -/
structure Label where
  number : Nat
deriving Repr, DecidableEq

def Label.text (label : Label) : String := "L" ++ toString label.number

/-- Operands and destinations are the texts of places: names, indexed places, literals and
temporaries. -/
inductive Instruction where
  | copy (dst src : String)
  | binary (dst : String) (op : BinaryOp) (lhs rhs : String)
  | unary (dst : String) (op : UnaryOp) (src : String)
  | label (target : Label)
  | goto (target : Label)
  | ifFalse (cond : String) (target : Label)
  | ifTrue (cond : String) (target : Label)
deriving Repr, DecidableEq

def Instruction.text : Instruction → String
  | .copy dst src => dst ++ " = " ++ src
  | .binary dst op lhs rhs => dst ++ " = " ++ lhs ++ " " ++ op.text ++ " " ++ rhs
  | .unary dst op src => dst ++ " = " ++ op.text ++ " " ++ src
  | .label target => target.text ++ ":"
  | .goto target => "goto " ++ target.text
  | .ifFalse cond target => "ifFalse " ++ cond ++ " goto " ++ target.text
  | .ifTrue cond target => "if " ++ cond ++ " goto " ++ target.text

end ThreeAddress

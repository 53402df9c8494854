import ThreeAddress.Instruction

/-!
Semantic actions: what a reduction does besides replacing symbols.
-/

set_option autoImplicit false

namespace ThreeAddress

/-- The action of a rule. Markers (`ifTest`, `ifElseMark`, `loopEnter`, `loopTest`, `scopeEnter`)
belong to rules with an empty body in the middle of a statement. -/
inductive Semantic where
  | nothing
  | pass
  | paren
  | decl
  | declArray
  | typeArray
  | basicType
  | assign
  | ifElse
  | ifThen
  | whileLoop
  | doWhile
  | breakLoop
  | nestedBlock
  | locIndex
  | locId
  | binary (op : BinaryOp)
  | unary (op : UnaryOp)
  | ifTest
  | ifElseMark
  | loopEnter
  | loopTest
  | scopeEnter
deriving Repr, DecidableEq

namespace Semantic

def name : Semantic → String
  | .nothing => "Nothing"
  | .pass => "Pass"
  | .paren => "Paren"
  | .decl => "Decl"
  | .declArray => "DeclArray"
  | .typeArray => "TypeArray"
  | .basicType => "BasicType"
  | .assign => "Assign"
  | .ifElse => "IfElse"
  | .ifThen => "If"
  | .whileLoop => "While"
  | .doWhile => "DoWhile"
  | .breakLoop => "Break"
  | .nestedBlock => "NestedBlock"
  | .locIndex => "LocIndex"
  | .locId => "LocId"
  | .binary op => "Binary(" ++ op.name ++ ")"
  | .unary op => "Unary(" ++ op.name ++ ")"
  | .ifTest => "IfTest"
  | .ifElseMark => "IfElseMark"
  | .loopEnter => "LoopEnter"
  | .loopTest => "LoopTest"
  | .scopeEnter => "ScopeEnter"

def all : List Semantic :=
  [.nothing, .pass, .paren, .decl, .declArray, .typeArray, .basicType, .assign, .ifElse, .ifThen,
   .whileLoop, .doWhile, .breakLoop, .nestedBlock, .locIndex, .locId, .ifTest, .ifElseMark,
   .loopEnter, .loopTest, .scopeEnter] ++ BinaryOp.all.map .binary ++ UnaryOp.all.map .unary

/-- The action with the given name. -/
def ofName? (name : String) : Option Semantic :=
  all.find? fun action => action.name == name

end Semantic

end ThreeAddress

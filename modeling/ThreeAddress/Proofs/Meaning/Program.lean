import ThreeAddress.Proofs.Grammar.Tree
import ThreeAddress.SymbolTable
import ThreeAddress.Instruction

/-!
Structured programs: how they are read off the words and signs in syntax trees, and how they run. A
store gives every place a value, and operators mean whatever one likes.
-/

set_option autoImplicit false

namespace ThreeAddress

inductive Expr where
  | place (text : String)
  | binary (op : BinaryOp) (left right : Expr)
  | unary (op : UnaryOp) (operand : Expr)
deriving Repr, DecidableEq

inductive Stmt where
  | skip
  | declare (name : String)
  | seq (first second : Stmt)
  | assign (place : String) (value : Expr)
  | ifThen (cond : Expr) (body : Stmt)
  | ifElse (cond : Expr) (body other : Stmt)
  | whileDo (cond : Expr) (body : Stmt)
  | doWhile (body : Stmt) (cond : Expr)
  | leave
  | block (body : Stmt)
deriving Repr, DecidableEq

/-- The operator of a text. -/
def BinaryOp.ofText? (text : String) : Option BinaryOp := all.find? fun op => op.text == text

/-- The operator of a text. -/
def UnaryOp.ofText? (text : String) : Option UnaryOp := all.find? fun op => op.text == text

@[simp] theorem BinaryOp.ofText?_text (op : BinaryOp) : ofText? op.text = some op := by
  cases op <;> decide

@[simp] theorem UnaryOp.ofText?_text (op : UnaryOp) : ofText? op.text = some op := by
  cases op <;> decide

namespace Tree

/-- The tree is the token of a word. -/
def spells (word : String) : Tree String → Bool
  | .leaf text => text == word
  | .node _ _ => false

@[simp] theorem spells_leaf (word text : String) : (leaf text).spells word = (text == word) := rfl

@[simp] theorem spells_node (word : String) (production : Nat) (children : List (Tree String)) :
    (node production children).spells word = false := rfl

/-- The tree has braces around what it is made of. -/
def isBraced : Tree String → Bool
  | .node _ [opening, _, _, closing] => opening.spells "\x7b" && closing.spells "\x7d"
  | _ => false

theorem isBraced_of_length {production : Nat} {children : List (Tree String)}
    (length : children.length ≠ 4) : (node production children).isBraced = false := by
  unfold isBraced
  split
  · rename_i same
    cases same
    exact absurd rfl length
  · rfl

end Tree

/-- The expression of a tree, by its tokens. A location stands for the text of its place, and so does
a token. -/
@[simp] def Expr.read : Tree String → Option Expr
  | .leaf text => some (.place text)
  | .node _ [child] => read child
  | .node _ [.leaf sign, operand] =>
    match UnaryOp.ofText? sign, read operand with
    | some op, some operand => some (.unary op operand)
    | _, _ => none
  | .node _ [left, .leaf sign, right] =>
    match BinaryOp.ofText? sign, read left, read right with
    | some op, some left, some right => some (.binary op left right)
    | _, _, _ => none
  | .node _ [opening, inner, closing] =>
    if opening.spells "(" && closing.spells ")" then read inner else none
  | .node _ [base, opening, size, closing] =>
    if opening.spells "[" && closing.spells "]" then
      match read base, read size with
      | some (.place base), some (.place size) => some (.place (base ++ "[" ++ size ++ "]"))
      | _, _ => none
    else none
  | .node _ _ => none

/-- The statement of a tree, by its tokens. Declarations count as statements, and the markers in
between do not show. -/
@[simp] def Stmt.read : Tree String → Option Stmt
  | .leaf _ => none
  | .node _ [] => some .skip
  | .node _ [child] => read child
  | .node _ [first, second] =>
    if first.spells "break" && second.spells ";" then some .leave
    -- A block on its own stands behind the marker of its scope.
    else if second.isBraced then (read second).map .block
    else
      match read first, read second with
      | some first, some second => some (.seq first second)
      | _, _ => none
  | .node _ [_, .leaf name, ending] => if ending.spells ";" then some (.declare name) else none
  | .node _ [first, second, third, ending] =>
    if first.spells "\x7b" && ending.spells "\x7d" then
      match read second, read third with
      | some first, some second => some (.seq first second)
      | _, _ => none
    else if second.spells "=" && ending.spells ";" then
      match Expr.read first, Expr.read third with
      | some (.place place), some value => some (.assign place value)
      | _, _ => none
    else none
  | .node _ [first, .leaf second, third, fourth, fifth, last] =>
    if third.spells "[" && fifth.spells "]" && last.spells ";" then some (.declare second)
    else if first.spells "if" && second == "(" && fourth.spells ")" then
      match Expr.read third, read last with
      | some cond, some body => some (.ifThen cond body)
      | _, _ => none
    else none
  | .node _ [word, _, opening, cond, closing, _, body] =>
    if word.spells "while" && opening.spells "(" && closing.spells ")" then
      match Expr.read cond, read body with
      | some cond, some body => some (.whileDo cond body)
      | _, _ => none
    else none
  | .node _ [word, _, body, loopWord, opening, cond, closing, ending] =>
    if word.spells "do" && loopWord.spells "while" && opening.spells "(" && closing.spells ")" &&
        ending.spells ";" then
      match read body, Expr.read cond with
      | some body, some cond => some (.doWhile body cond)
      | _, _ => none
    else none
  | .node _ [word, opening, cond, closing, _, body, otherWord, _, other] =>
    if word.spells "if" && opening.spells "(" && closing.spells ")" && otherWord.spells "else" then
      match Expr.read cond, read body, read other with
      | some cond, some body, some other => some (.ifElse cond body other)
      | _, _, _ => none
    else none
  | .node _ _ => none

/-- A value for every place. -/
abbrev Store (V : Type) := String → V

def Store.set {V : Type} (store : Store V) (place : String) (value : V) : Store V :=
  fun other => if other = place then value else store other

/-- What the operators compute and which values count as true. -/
structure Meaning (V : Type) where
  binary : BinaryOp → V → V → V
  unary : UnaryOp → V → V
  truth : V → Bool

/-- How a statement ends: at its end, or by leaving the innermost loop around it. -/
inductive Exit where
  | normal
  | broke
deriving Repr, DecidableEq

variable {V : Type}

def Expr.eval (meaning : Meaning V) (store : Store V) : Expr → V
  | .place text => store text
  | .binary op left right => meaning.binary op (left.eval meaning store) (right.eval meaning store)
  | .unary op operand => meaning.unary op (operand.eval meaning store)

/-- The run of a statement from one store to another. -/
inductive Stmt.Runs (meaning : Meaning V) : Stmt → Store V → Exit → Store V → Prop where
  | skip (store : Store V) : Runs meaning .skip store .normal store
  | declare (name : String) (store : Store V) : Runs meaning (.declare name) store .normal store
  | seq (first second : Stmt) (store middle final : Store V) (exit : Exit)
      (one : Runs meaning first store .normal middle)
      (two : Runs meaning second middle exit final) :
      Runs meaning (.seq first second) store exit final
  | seqBroke (first second : Stmt) (store final : Store V)
      (one : Runs meaning first store .broke final) :
      Runs meaning (.seq first second) store .broke final
  | assign (place : String) (value : Expr) (store : Store V) :
      Runs meaning (.assign place value) store .normal
        (store.set place (value.eval meaning store))
  | ifThenTrue (cond : Expr) (body : Stmt) (store final : Store V) (exit : Exit)
      (test : meaning.truth (cond.eval meaning store) = true)
      (inner : Runs meaning body store exit final) :
      Runs meaning (.ifThen cond body) store exit final
  | ifThenFalse (cond : Expr) (body : Stmt) (store : Store V)
      (test : meaning.truth (cond.eval meaning store) = false) :
      Runs meaning (.ifThen cond body) store .normal store
  | ifElseTrue (cond : Expr) (body other : Stmt) (store final : Store V) (exit : Exit)
      (test : meaning.truth (cond.eval meaning store) = true)
      (inner : Runs meaning body store exit final) :
      Runs meaning (.ifElse cond body other) store exit final
  | ifElseFalse (cond : Expr) (body other : Stmt) (store final : Store V) (exit : Exit)
      (test : meaning.truth (cond.eval meaning store) = false)
      (inner : Runs meaning other store exit final) :
      Runs meaning (.ifElse cond body other) store exit final
  | whileFalse (cond : Expr) (body : Stmt) (store : Store V)
      (test : meaning.truth (cond.eval meaning store) = false) :
      Runs meaning (.whileDo cond body) store .normal store
  | whileTrue (cond : Expr) (body : Stmt) (store middle final : Store V)
      (test : meaning.truth (cond.eval meaning store) = true)
      (inner : Runs meaning body store .normal middle)
      (again : Runs meaning (.whileDo cond body) middle .normal final) :
      Runs meaning (.whileDo cond body) store .normal final
  | whileBroke (cond : Expr) (body : Stmt) (store final : Store V)
      (test : meaning.truth (cond.eval meaning store) = true)
      (inner : Runs meaning body store .broke final) :
      Runs meaning (.whileDo cond body) store .normal final
  | doTrue (body : Stmt) (cond : Expr) (store middle final : Store V)
      (inner : Runs meaning body store .normal middle)
      (test : meaning.truth (cond.eval meaning middle) = true)
      (again : Runs meaning (.doWhile body cond) middle .normal final) :
      Runs meaning (.doWhile body cond) store .normal final
  | doFalse (body : Stmt) (cond : Expr) (store final : Store V)
      (inner : Runs meaning body store .normal final)
      (test : meaning.truth (cond.eval meaning final) = false) :
      Runs meaning (.doWhile body cond) store .normal final
  | doBroke (body : Stmt) (cond : Expr) (store final : Store V)
      (inner : Runs meaning body store .broke final) :
      Runs meaning (.doWhile body cond) store .normal final
  | leave (store : Store V) : Runs meaning .leave store .broke store
  | block (body : Stmt) (store final : Store V) (exit : Exit)
      (inner : Runs meaning body store exit final) : Runs meaning (.block body) store exit final

/-- The text has the form of a temporary: `t` and digits. -/
def isTemporary (text : String) : Bool :=
  match text.toList with
  | 't' :: first :: rest => (first :: rest).all Char.isDigit
  | _ => false

/-- No place has the form of a temporary. -/
def Expr.Plain : Expr → Prop
  | .place text => isTemporary text = false
  | .binary _ left right => left.Plain ∧ right.Plain
  | .unary _ operand => operand.Plain

def Stmt.Plain : Stmt → Prop
  | .skip | .declare _ | .leave => True
  | .seq first second => first.Plain ∧ second.Plain
  | .assign place value => isTemporary place = false ∧ value.Plain
  | .ifThen cond body => cond.Plain ∧ body.Plain
  | .ifElse cond body other => cond.Plain ∧ body.Plain ∧ other.Plain
  | .whileDo cond body => cond.Plain ∧ body.Plain
  | .doWhile body cond => body.Plain ∧ cond.Plain
  | .block body => body.Plain

/-- Every break stands in a loop, if need be in one around the whole statement. -/
def Stmt.Nested : (inLoop : Bool) → Stmt → Prop
  | inLoop, .leave => inLoop = true
  | _, .skip | _, .declare _ | _, .assign _ _ => True
  | inLoop, .seq first second => first.Nested inLoop ∧ second.Nested inLoop
  | inLoop, .ifThen _ body => body.Nested inLoop
  | inLoop, .ifElse _ body other => body.Nested inLoop ∧ other.Nested inLoop
  | _, .whileDo _ body => body.Nested true
  | _, .doWhile body _ => body.Nested true
  | inLoop, .block body => body.Nested inLoop

end ThreeAddress

import ThreeAddress.Text.Word
import ThreeAddress.Translator.Event
import ThreeAddress.Translator.Semantic

/-!
The translator runs the semantic action of each reduction on the attributes of the symbol stack. It
appends instructions to the code and never changes those already there, so markers in the middle of
a statement place its labels and jumps.
-/

set_option autoImplicit false

namespace ThreeAddress

/-- What a symbol on the stack carries. -/
inductive Attribute where
  | none
  | token (text : String) (start : Nat)
  | place (text : String)
  | label (label : Label)
  | loop (start exit : Label)
deriving Repr, DecidableEq

namespace Attribute

/-- The text that an operand, a name or a size is read from. -/
def placeText : Attribute → String
  | .token text _ => text
  | .place text => text
  | _ => ""

/-- The byte offset of a token. -/
def start? : Attribute → Option Nat
  | .token _ start => some start
  | _ => Option.none

end Attribute

/-- A repeated declaration, which does not stop the compilation, and the offset of its name. -/
structure Diagnostic where
  duplicate : Duplicate
  pos : Nat
deriving Repr, DecidableEq

inductive TranslateError where
  | breakOutsideLoop
  | badArraySize (text : String)
  | missingAttribute (action : Semantic)
deriving Repr, DecidableEq

def TranslateError.message : TranslateError → String
  | .breakOutsideLoop => "break outside of a loop"
  | .badArraySize text => "invalid array size '" ++ text ++ "'"
  | .missingAttribute action => "missing attribute on the stack for " ++ action.name

/-- How a semantic action fails: by an error of the program, or because the product of array
dimensions does not fit in a word. -/
inductive Failure where
  | error (error : TranslateError)
  | sizeOverflow
deriving Repr, DecidableEq

/-- A compiled program. The symbol table is the one at the end of the outermost block. -/
structure Compiled where
  code : Array Instruction
  symbols : SymbolTable
  diagnostics : Array Diagnostic
deriving Repr, DecidableEq

/-- The state between two reductions. The innermost loop comes first among `breaks`, and the pending type
and size belong to the declaration under way. -/
structure Translator where
  symbols : SymbolTable := {}
  code : Array Instruction := #[]
  labels : Nat := 0
  breaks : List Label := []
  pendingType : String := ""
  pendingSize : Nat := 0
  lastName : String := ""
  diagnostics : Array Diagnostic := #[]
  log : Array Event := #[]
deriving Repr, DecidableEq

/-- A computation on the translator that can fail. What it did before it failed stays done. -/
abbrev Reduction := EStateM Failure Translator

namespace Translator

def record (event : Event) (translator : Translator) : Translator :=
  { translator with log := translator.log.push event }

def addLabel (translator : Translator) : Label × Translator :=
  (⟨translator.labels⟩, { translator with labels := translator.labels + 1 })

def append (instruction : Instruction) (translator : Translator) : Translator :=
  { translator with
    code := translator.code.push instruction
    log := translator.log.push (.emitted instruction) }

/-- Defines a name with the pending type, which is used up with the pending size. A repeated name
leaves the symbol table alone and adds a diagnostic. -/
def declare (name : String) (size pos : Nat) (translator : Translator) : Translator :=
  match translator.symbols.defineData name translator.pendingType size pos with
  | .ok (entry, symbols) =>
    { translator with
      symbols
      pendingType := ""
      pendingSize := 0
      log := translator.log.push (.defined entry) }
  | .error duplicate =>
    { translator with
      pendingType := ""
      pendingSize := 0
      diagnostics := translator.diagnostics.push ⟨duplicate, pos⟩
      log := translator.log.push (.duplicate duplicate) }

/-- The program that was read, with the symbols of the scopes still open. -/
def finish (translator : Translator) : Compiled :=
  ⟨translator.code, translator.symbols, translator.diagnostics⟩

end Translator

namespace Reduction

def emit (instruction : Instruction) : Reduction Unit :=
  modify (Translator.append instruction)

def newLabel : Reduction Label := modifyGet Translator.addLabel

def newTemporary : Reduction String :=
  modifyGet fun translator =>
    let (name, symbols) := translator.symbols.fresh
    (name, { translator with symbols })

def declare (name : String) (size pos : Nat) : Reduction Unit :=
  modify (Translator.declare name size pos)

/-- Reads a dimension of an array. -/
def arraySize (text : String) : Reduction Nat :=
  match Text.readWord text with
  | some size => pure size
  | none => throw (.error (.badArraySize text))

/-- Multiplies the pending size by one more dimension. A pending size of zero stands for none. -/
def growSize (size : Nat) : Reduction Nat := do
  let pending := (← get).pendingSize
  if pending = 0 then
    pure size
  else if pending * size < Text.wordLimit then
    pure (pending * size)
  else
    throw .sizeOverflow

/-- The exit of the innermost loop. -/
def innermostExit : Reduction Label := do
  match (← get).breaks with
  | exit :: _ => pure exit
  | [] => throw (.error .breakOutsideLoop)

def pushBreak (exit : Label) : Reduction Unit :=
  modify fun translator => { translator with breaks := exit :: translator.breaks }

def popBreak : Reduction Unit :=
  modify fun translator => { translator with breaks := translator.breaks.tail }

def enterScope : Reduction Unit :=
  modify fun translator => { translator with symbols := translator.symbols.enter }

def exitScope : Reduction Unit :=
  modify fun translator => { translator with symbols := translator.symbols.exit }

def setPendingType (type : String) : Reduction Unit :=
  modify fun translator => { translator with pendingType := type }

def setPendingSize (size : Nat) : Reduction Unit :=
  modify fun translator => { translator with pendingSize := size }

def setLastName (name : String) : Reduction Unit :=
  modify fun translator => { translator with lastName := name }

/-- The attribute `depth` places below the top of the stack. -/
def slot (action : Semantic) (stack : List Attribute) (depth : Nat) : Reduction Attribute :=
  match stack[depth]? with
  | some found => pure found
  | none => throw (.error (.missingAttribute action))

def placeAt (action : Semantic) (stack : List Attribute) (depth : Nat) : Reduction String := do
  return (← slot action stack depth).placeText

def labelAt (action : Semantic) (stack : List Attribute) (depth : Nat) : Reduction Label := do
  match ← slot action stack depth with
  | .label label => pure label
  | _ => throw (.error (.missingAttribute action))

/-- The start and the exit of the loop at a place of the stack. -/
def loopAt (action : Semantic) (stack : List Attribute) (depth : Nat) :
    Reduction (Label × Label) := do
  match ← slot action stack depth with
  | .loop start exit => pure (start, exit)
  | _ => throw (.error (.missingAttribute action))

/-- Runs the action of a rule whose body is on top of the stack, and gives the attribute of its
head. A marker has an empty body and reads what its statement has pushed so far. The offset is that
of the token read next. -/
def run (action : Semantic) (stack : List Attribute) (pos : Nat) : Reduction Attribute := do
  let slot := slot action stack
  let placeAt := placeAt action stack
  let labelAt := labelAt action stack
  let loopAt := loopAt action stack
  match action with
  | .nothing => return .none
  | .pass => slot 0
  | .paren => slot 1
  | .basicType =>
    setPendingType (← placeAt 0)
    return .none
  | .typeArray =>
    setPendingSize (← growSize (← arraySize (← placeAt 1)))
    return .none
  | .decl =>
    let name ← slot 1
    declare name.placeText (← get).pendingSize (name.start?.getD pos)
    return .none
  | .declArray =>
    let name ← slot 4
    let size ← growSize (← arraySize (← placeAt 2))
    declare name.placeText size (name.start?.getD pos)
    return .none
  | .locId =>
    let name ← placeAt 0
    setLastName name
    return .place name
  | .locIndex =>
    let base ← placeAt 3
    let index ← placeAt 1
    return .place (base ++ "[" ++ index ++ "]")
  | .assign =>
    let dst ← placeAt 3
    let src ← placeAt 1
    emit (.copy dst src)
    return .none
  | .binary op =>
    let lhs ← placeAt 2
    let rhs ← placeAt 0
    let dst ← newTemporary
    emit (.binary dst op lhs rhs)
    return .place dst
  | .unary op =>
    let src ← placeAt 0
    let dst ← newTemporary
    emit (.unary dst op src)
    return .place dst
  | .ifTest =>
    let cond ← placeAt 1
    let otherwise ← newLabel
    emit (.ifFalse cond otherwise)
    return .label otherwise
  | .ifElseMark =>
    let otherwise ← labelAt 2
    let finish ← newLabel
    emit (.goto finish)
    emit (.label otherwise)
    return .label finish
  | .ifThen =>
    emit (.label (← labelAt 1))
    return .none
  | .ifElse =>
    emit (.label (← labelAt 1))
    return .none
  | .loopEnter =>
    let start ← newLabel
    let exit ← newLabel
    emit (.label start)
    pushBreak exit
    return .loop start exit
  | .loopTest =>
    let (_, exit) ← loopAt 3
    let cond ← placeAt 1
    emit (.ifFalse cond exit)
    return .none
  | .whileLoop =>
    let (start, exit) ← loopAt 5
    emit (.goto start)
    emit (.label exit)
    popBreak
    return .none
  | .doWhile =>
    let (start, exit) ← loopAt 6
    let cond ← placeAt 2
    emit (.ifTrue cond start)
    emit (.label exit)
    popBreak
    return .none
  | .breakLoop =>
    emit (.goto (← innermostExit))
    return .none
  | .scopeEnter =>
    enterScope
    return .none
  | .nestedBlock =>
    exitScope
    return .none

end Reduction

end ThreeAddress

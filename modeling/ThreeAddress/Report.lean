import ThreeAddress.Run
import ThreeAddress.Text.Position

/-!
Messages and reports of errors and diagnostics, with the place in the source they are about.
-/

set_option autoImplicit false

namespace ThreeAddress

namespace CompileError

/-- The byte offset that an error points at. Errors of the grammar have none. -/
def pos? : CompileError → Option Nat
  | .grammar _ => none
  | .lex error => some error.pos
  | .noAction _ _ pos => some pos
  | .noGoto _ _ pos => some pos
  | .translate _ pos => some pos

/-- The message of the error inside, for the kinds that wrap one. -/
def cause? : CompileError → Option String
  | .grammar error => some error.message
  | .lex error => some error.message
  | .noAction .. => none
  | .noGoto .. => none
  | .translate error _ => some error.message

def message : CompileError → String
  | .grammar error => error.message
  | .lex error => error.message
  | .noAction state terminal _ =>
    "no action in state " ++ toString state ++ " for " ++ terminal
  | .noGoto state nonterminal _ =>
    "no goto in state " ++ toString state ++ " for " ++ nonterminal
  | .translate error _ => error.message

/-- The class of an error in words. -/
def title : CompileError → String
  | .grammar _ => "grammar error"
  | .lex _ => "lexical error"
  | .noAction .. => "syntax error"
  | .noGoto .. => "syntax error"
  | .translate .breakOutsideLoop _ => "misplaced break"
  | .translate _ _ => "translation error"

end CompileError

/-- A file, a line and a column, as reports show them. -/
def placeText (path source : String) (pos : Nat) : String :=
  let place := Text.lineColumn source pos
  path ++ ":" ++ toString place.line ++ ":" ++ toString place.column

def CompileError.report (path source : String) (error : CompileError) : String :=
  let place := match error.pos? with
    | some pos => " at " ++ placeText path source pos
    | none => " in " ++ path
  error.title ++ place ++ "\nmessage: " ++ error.message ++ "\n"

def Diagnostic.report (path source : String) (diagnostic : Diagnostic) : String :=
  "warning at " ++ placeText path source diagnostic.pos ++ "\nmessage: " ++
    diagnostic.duplicate.message ++ "\n"

end ThreeAddress

import ThreeAddress.Instruction
import ThreeAddress.SymbolTable
import ThreeAddress.Table.Conflict
import ThreeAddress.Text.Quoted

/-!
Events worth a line in the log.
-/

set_option autoImplicit false

namespace ThreeAddress

inductive LogLevel where
  | warn
  | debug
  | trace
deriving Repr, DecidableEq

def LogLevel.text : LogLevel → String
  | .warn => "WARN"
  | .debug => "DEBUG"
  | .trace => "TRACE"

/-- What happens while tables are built and programs are read. The states of a step are listed from
the top of the stack. -/
inductive Event where
  | collected (states : Nat)
  | conflict (conflict : Conflict)
  | built (states conflicts : Nat)
  | step (number : Nat) (states : List Nat) (lexeme terminal : String) (action : Action)
  | accepted (steps : Nat)
  | emitted (instruction : Instruction)
  | defined (entry : SymbolEntry)
  | duplicate (duplicate : Duplicate)
deriving Repr, DecidableEq

namespace Event

def level : Event → LogLevel
  | .collected _ => .trace
  | .conflict _ => .warn
  | .built _ _ => .debug
  | .step .. => .trace
  | .accepted _ => .debug
  | .emitted _ => .trace
  | .defined _ => .debug
  | .duplicate _ => .warn

def message : Event → String
  | .collected states => "canonical collection has " ++ toString states ++ " states"
  | .conflict found => found.message
  | .built states conflicts =>
    "built " ++ toString states ++ " states, " ++ toString conflicts ++ " conflicts"
  | .step number states lexeme terminal action =>
    "step " ++ toString number ++ ": states [" ++
      ", ".intercalate (states.reverse.map toString) ++ "], lookahead " ++ Text.quote lexeme ++
      " (" ++ terminal ++ "), " ++ action.text
  | .accepted steps => "accepted after " ++ toString steps ++ " steps"
  | .emitted instruction => "emit " ++ instruction.text
  | .defined entry => "defined " ++ entry.text
  | .duplicate found => found.message

end Event

end ThreeAddress

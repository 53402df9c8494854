/-!
Tokens of the source language and the two ways in which reading them fails.
-/

set_option autoImplicit false

namespace ThreeAddress

/-- The classes of tokens. -/
inductive TokenKind where
  | eof
  | ident
  | number
  | real
  | reserved
  | typeName
  | operator
  | delimiter
  | str
deriving Repr, DecidableEq

/-- A token, its text and the byte offset at which it starts. The text of a string literal leaves
out the quotes, and the end of input has no text. -/
structure Token where
  kind : TokenKind
  text : String
  start : Nat
deriving Repr, DecidableEq

/-- The token that stands for the end of an input of the given length in bytes. -/
def Token.endOfInput (length : Nat) : Token := ⟨.eof, "", length⟩

inductive LexError where
  | invalidChar (char : Char) (pos : Nat)
  | unclosedString (pos : Nat)
deriving Repr, DecidableEq

def LexError.pos : LexError → Nat
  | .invalidChar _ pos => pos
  | .unclosedString pos => pos

def LexError.message : LexError → String
  | .invalidChar char _ => "invalid character '" ++ char.toString ++ "'"
  | .unclosedString _ => "unclosed string literal"

end ThreeAddress

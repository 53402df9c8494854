import ThreeAddress.Text.Alphabetic
import ThreeAddress.Text.Blank
import ThreeAddress.Text.Numeric
import ThreeAddress.Text.Position
import ThreeAddress.Token.Basic

/-!
Cutting source text into tokens. Between two tokens stand blanks and line comments; each token is
the longest that its class admits.
-/

set_option autoImplicit false

namespace ThreeAddress

open Text (byteLength isAlphabetic isNumeric isBlank)

namespace Token

def typeNames : List String := ["int", "bool", "string", "float", "byte"]

def reservedWords : List String :=
  ["if", "else", "for", "func", "return", "var", "break", "continue",
   "package", "import", "chan", "const", "default", "defer", "fallthrough",
   "case", "goto", "interface", "map", "range", "select", "struct", "switch",
   "type", "go", "do", "while", "true", "false"]

/-- The operators of two characters. Each is preferred to its first character alone. -/
def operatorPairs : List (Char × Char) :=
  [('=', '='), ('!', '='), ('<', '='), ('>', '='), ('&', '&'), ('|', '|')]

def operatorChars : List Char := ['+', '-', '*', '/', '=', '<', '>', '!', '&', '|']

def delimiterChars : List Char := [';', ',', '(', ')', '\x7b', '\x7d', '[', ']', ':', '.']

def startsWord (c : Char) : Bool := isAlphabetic c || c == '_'

def continuesWord (c : Char) : Bool := isAlphabetic c || isNumeric c || c == '_'

def continuesNumber (c : Char) : Bool := c.isDigit || c == '.'

def wordKind (word : String) : TokenKind :=
  if typeNames.contains word then .typeName
  else if reservedWords.contains word then .reserved
  else .ident

def numberKind (digits : List Char) : TokenKind :=
  if digits.contains '.' then .real else .number

/-- Splits off the blanks and comments in front. A comment runs from two slashes to the end of its
line, and `comment` says whether the input starts inside one. -/
def splitTrivia : (comment : Bool) → List Char → List Char × List Char
  | _, [] => ([], [])
  | true, c :: rest =>
    let (skipped, kept) := splitTrivia (c != '\n') rest
    (c :: skipped, kept)
  | false, c :: rest =>
    if isBlank c then
      let (skipped, kept) := splitTrivia false rest
      (c :: skipped, kept)
    else if c == '/' && rest.head? == some '/' then
      let (skipped, kept) := splitTrivia true rest
      (c :: skipped, kept)
    else
      ([], c :: rest)

theorem splitTrivia_append (comment : Bool) (input : List Char) :
    (splitTrivia comment input).1 ++ (splitTrivia comment input).2 = input := by
  induction input generalizing comment with
  | nil => cases comment <;> rfl
  | cons c rest ih =>
      cases comment with
      | true => simp [splitTrivia, ih]
      | false =>
          simp only [splitTrivia]
          split
          · simp [ih]
          · split
            · simp [ih]
            · rfl

theorem splitTrivia_length_le (comment : Bool) (input : List Char) :
    (splitTrivia comment input).2.length ≤ input.length := by
  have whole := congrArg List.length (splitTrivia_append comment input)
  simp only [List.length_append] at whole
  omega

/-- A token cut off the front of some characters: its text, all the characters it covers, and those
that follow. -/
structure Piece where
  kind : TokenKind
  text : List Char
  covered : List Char
  rest : List Char

/-- A piece whose text is all that it covers. -/
def Piece.plain (kind : TokenKind) (text rest : List Char) : Piece := ⟨kind, text, text, rest⟩

/-- Why no token begins at a character. -/
inductive CutError where
  | invalidChar (char : Char)
  | unclosedString
deriving Repr, DecidableEq

def CutError.atOffset (pos : Nat) : CutError → LexError
  | .invalidChar char => .invalidChar char pos
  | .unclosedString => .unclosedString pos

def cutWord (first : Char) (rest : List Char) : Piece :=
  let word := first :: rest.takeWhile continuesWord
  .plain (wordKind (String.ofList word)) word (rest.dropWhile continuesWord)

def cutNumber (first : Char) (rest : List Char) : Piece :=
  let digits := first :: rest.takeWhile continuesNumber
  .plain (numberKind digits) digits (rest.dropWhile continuesNumber)

/-- A string literal runs to the next quote and may hold any other character. -/
def cutString (quote : Char) (rest : List Char) : Except CutError Piece :=
  match rest.dropWhile (· != '"') with
  | [] => .error .unclosedString
  | closing :: after =>
    let text := rest.takeWhile (· != '"')
    .ok ⟨.str, text, quote :: text ++ [closing], after⟩

def cutMark (first : Char) (rest : List Char) : Except CutError Piece :=
  match rest with
  | second :: after =>
    if operatorPairs.contains (first, second) then
      .ok (.plain .operator [first, second] after)
    else
      single
  | [] => single
where
  single : Except CutError Piece :=
    if operatorChars.contains first then .ok (.plain .operator [first] rest)
    else if delimiterChars.contains first then .ok (.plain .delimiter [first] rest)
    else .error (.invalidChar first)

/-- Cuts the token that begins with `first`. -/
def cut (first : Char) (rest : List Char) : Except CutError Piece :=
  if startsWord first then .ok (cutWord first rest)
  else if first.isDigit then .ok (cutNumber first rest)
  else if first == '"' then cutString first rest
  else cutMark first rest

theorem cutWord_covers (first : Char) (rest : List Char) :
    (cutWord first rest).covered ++ (cutWord first rest).rest = first :: rest := by
  simp [cutWord, Piece.plain]

theorem cutNumber_covers (first : Char) (rest : List Char) :
    (cutNumber first rest).covered ++ (cutNumber first rest).rest = first :: rest := by
  simp [cutNumber, Piece.plain]

theorem cutString_covers (quote : Char) (rest : List Char) (piece : Piece)
    (success : cutString quote rest = .ok piece) :
    piece.covered ++ piece.rest = quote :: rest := by
  unfold cutString at success
  split at success
  · cases success
  · rename_i closing after found
    cases success
    have whole := List.takeWhile_append_dropWhile (p := (· != '"')) (l := rest)
    rw [found] at whole
    simpa using whole

theorem cutMark_covers (first : Char) (rest : List Char) (piece : Piece)
    (success : cutMark first rest = .ok piece) :
    piece.covered ++ piece.rest = first :: rest := by
  have single : cutMark.single first rest = .ok piece →
      piece.covered ++ piece.rest = first :: rest := by
    intro alone
    unfold cutMark.single at alone
    split at alone
    · cases alone
      rfl
    · split at alone
      · cases alone
        rfl
      · cases alone
  unfold cutMark at success
  split at success
  · split at success
    · cases success
      rfl
    · exact single success
  · exact single success

/-- Cutting loses no character. -/
theorem cut_covers (first : Char) (rest : List Char) (piece : Piece)
    (success : cut first rest = .ok piece) :
    piece.covered ++ piece.rest = first :: rest := by
  unfold cut at success
  split at success
  · cases success
    exact cutWord_covers first rest
  · split at success
    · cases success
      exact cutNumber_covers first rest
    · split at success
      · exact cutString_covers first rest piece success
      · exact cutMark_covers first rest piece success

theorem cutString_covered_ne_nil (quote : Char) (rest : List Char) (piece : Piece)
    (success : cutString quote rest = .ok piece) : piece.covered ≠ [] := by
  unfold cutString at success
  split at success
  · cases success
  · cases success
    simp

theorem cutMark_covered_ne_nil (first : Char) (rest : List Char) (piece : Piece)
    (success : cutMark first rest = .ok piece) : piece.covered ≠ [] := by
  have single : cutMark.single first rest = .ok piece → piece.covered ≠ [] := by
    intro alone
    unfold cutMark.single at alone
    split at alone
    · cases alone
      simp [Piece.plain]
    · split at alone
      · cases alone
        simp [Piece.plain]
      · cases alone
  unfold cutMark at success
  split at success
  · split at success
    · cases success
      simp [Piece.plain]
    · exact single success
  · exact single success

/-- A token covers at least one character. -/
theorem cut_covered_ne_nil (first : Char) (rest : List Char) (piece : Piece)
    (success : cut first rest = .ok piece) : piece.covered ≠ [] := by
  unfold cut at success
  split at success
  · cases success
    simp [cutWord, Piece.plain]
  · split at success
    · cases success
      simp [cutNumber, Piece.plain]
    · split at success
      · exact cutString_covered_ne_nil first rest piece success
      · exact cutMark_covered_ne_nil first rest piece success

theorem cut_rest_length_lt (first : Char) (rest : List Char) (piece : Piece)
    (success : cut first rest = .ok piece) : piece.rest.length < (first :: rest).length := by
  have whole := congrArg List.length (cut_covers first rest piece success)
  have positive := List.length_pos_iff.mpr (cut_covered_ne_nil first rest piece success)
  simp only [List.length_append] at whole
  omega

end Token

/-- What reading a text yields: its tokens in order, and the error that stopped it, if any. Without
an error the text ends after `length` bytes. -/
structure Scan where
  tokens : List Token
  error : Option LexError
  length : Nat
deriving Repr, DecidableEq

namespace Scan

def cons (token : Token) (scan : Scan) : Scan := { scan with tokens := token :: scan.tokens }

/-- Reads the characters that start at byte `offset`. -/
def ofChars (offset : Nat) (input : List Char) : Scan :=
  match kept : (Token.splitTrivia false input).2 with
  | [] => ⟨[], none, offset + byteLength input⟩
  | first :: rest =>
    let start := offset + byteLength (Token.splitTrivia false input).1
    match success : Token.cut first rest with
    | .error cause => ⟨[], some (cause.atOffset start), offset + byteLength input⟩
    | .ok piece =>
      have : piece.rest.length < input.length :=
        Nat.lt_of_lt_of_le (Token.cut_rest_length_lt first rest piece success)
          (kept ▸ Token.splitTrivia_length_le false input)
      (ofChars (start + byteLength piece.covered) piece.rest).cons
        ⟨piece.kind, String.ofList piece.text, start⟩
termination_by input.length

def ofString (source : String) : Scan := ofChars 0 source.toList

/-- The next token and what follows it. The end of input can be read again and again. -/
def next (scan : Scan) : Except LexError (Token × Scan) :=
  match scan.tokens with
  | token :: tokens => .ok (token, { scan with tokens })
  | [] =>
    match scan.error with
    | some error => .error error
    | none => .ok (.endOfInput scan.length, scan)

/-- Everything that reading meets, the end of input included, up to the first error. -/
def items (scan : Scan) : List (Except LexError Token) :=
  scan.tokens.map .ok ++ [match scan.error with
    | some error => .error error
    | none => .ok (.endOfInput scan.length)]

end Scan

end ThreeAddress

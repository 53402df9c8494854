/-!
Byte offsets into text, and the line and column they stand for.
-/

set_option autoImplicit false

namespace ThreeAddress.Text

/-- The number of bytes that the characters take in UTF-8. -/
def byteLength : List Char → Nat
  | [] => 0
  | c :: rest => c.utf8Size + byteLength rest

@[simp] theorem byteLength_nil : byteLength [] = 0 := rfl

@[simp] theorem byteLength_cons (c : Char) (rest : List Char) :
    byteLength (c :: rest) = c.utf8Size + byteLength rest := rfl

@[simp] theorem byteLength_append (front back : List Char) :
    byteLength (front ++ back) = byteLength front + byteLength back := by
  induction front with
  | nil => simp
  | cons c rest ih => simp [ih, Nat.add_assoc]

/-- The leading characters that take exactly `offset` bytes. There are none if the offset is past
the end or inside a character. -/
def takeBytes : Nat → List Char → Option (List Char)
  | 0, _ => some []
  | _ + 1, [] => none
  | offset + 1, c :: rest =>
    if c.utf8Size ≤ offset + 1 then
      (takeBytes (offset + 1 - c.utf8Size) rest).map (c :: ·)
    else
      none

@[simp] theorem takeBytes_zero (input : List Char) : takeBytes 0 input = some [] := by
  cases input <;> rfl

/-- Cutting at the end of a prefix gives that prefix back. -/
theorem takeBytes_append (front back : List Char) :
    takeBytes (byteLength front) (front ++ back) = some front := by
  induction front with
  | nil => simp
  | cons c rest ih =>
      have positive := c.utf8Size_pos
      obtain ⟨width, equal⟩ : ∃ width, c.utf8Size + byteLength rest = width + 1 :=
        ⟨c.utf8Size + byteLength rest - 1, by omega⟩
      have fits : c.utf8Size ≤ width + 1 := by omega
      have left : width + 1 - c.utf8Size = byteLength rest := by omega
      simp only [byteLength_cons, List.cons_append, equal, takeBytes, fits, ↓reduceIte, left, ih,
        Option.map_some]

/-- The characters before a byte offset. An offset past the end is taken as the end, and one inside
a character as the whole text. -/
def beforeOffset (input : List Char) (offset : Nat) : List Char :=
  (takeBytes (min offset (byteLength input)) input).getD input

/-- A place in a text, counted from one. -/
structure LineColumn where
  line : Nat
  column : Nat
deriving Repr, DecidableEq

/-- The line and column just after the given characters. -/
def LineColumn.after (before : List Char) : LineColumn where
  line := before.count '\n' + 1
  column := (before.reverse.takeWhile (· != '\n')).length + 1

def lineColumn (input : String) (offset : Nat) : LineColumn :=
  .after (beforeOffset input.toList offset)

end ThreeAddress.Text

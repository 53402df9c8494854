import ThreeAddress.Proofs.Token.Lexeme

/-!
A text is read as tokens with blanks and comments between them and nothing else. The tokens stand in
order and apart, each of them the longest lexeme where it starts, up to the end of the text or to
the first place where no token starts.
-/

set_option autoImplicit false

namespace ThreeAddress

open Text (byteLength isBlank)

/-- The offsets of a text are those of its bytes. -/
theorem Text.byteLength_toList (source : String) :
    byteLength source.toList = source.utf8ByteSize := by
  have size : ∀ chars : List Char, chars.utf8Encode.size = byteLength chars := by
    intro chars
    induction chars with
    | nil => rfl
    | cons c rest ih =>
        rw [List.utf8Encode_cons, ByteArray.size_append, ih]
        simp [List.utf8Encode_singleton]
  rw [← size]
  simp

/-- Blanks and comments. A comment runs from two slashes through the end of its line, and only the
last one of a text can do without a line end. -/
inductive Trivia (last : Bool) : List Char → Prop where
  | nil : Trivia last []
  | blank (c : Char) (rest : List Char) (white : isBlank c = true) (later : Trivia last rest) :
      Trivia last (c :: rest)
  | comment (text rest : List Char) (line : '\n' ∉ text) (later : Trivia last rest) :
      Trivia last ('/' :: '/' :: (text ++ '\n' :: rest))
  | unended (text : List Char) (ends : last = true) (line : '\n' ∉ text) :
      Trivia last ('/' :: '/' :: text)

/-- The text goes on with a blank or a comment. -/
def StartsTrivia : List Char → Prop
  | [] => False
  | c :: rest => isBlank c = true ∨ c = '/' ∧ rest.head? = some '/'

namespace Token

/-- The offset after the last character that a token covers. -/
def stop (token : Token) : Nat :=
  token.start + byteLength token.text.toList + if token.kind = .str then 2 else 0

/-- The token is the longest lexeme at its offset in the text, and its text is what it covers, the
quotes of a string literal apart. -/
def Covers (input : List Char) (token : Token) : Prop :=
  ∃ before covered after, input = before ++ covered ++ after ∧ token.start = byteLength before ∧
    token.stop = byteLength (before ++ covered) ∧
    Lexeme.Longest (covered ++ after) token.kind token.text.toList covered

/-- A comment is skipped through the end of its line. -/
theorem splitTrivia_line {text : List Char} (line : '\n' ∉ text) (rest : List Char) :
    splitTrivia true (text ++ '\n' :: rest) =
      (text ++ '\n' :: (splitTrivia false rest).1, (splitTrivia false rest).2) := by
  induction text with
  | nil => rfl
  | cons c text ih =>
      obtain ⟨other, later⟩ : c ≠ '\n' ∧ '\n' ∉ text := by
        simpa [eq_comm] using line
      have inside : (c != '\n') = true := bne_iff_ne.mpr other
      simp [splitTrivia, inside, ih later]

theorem splitTrivia_unended {text : List Char} (line : '\n' ∉ text) :
    splitTrivia true text = (text, []) := by
  induction text with
  | nil => rfl
  | cons c text ih =>
      obtain ⟨other, later⟩ : c ≠ '\n' ∧ '\n' ∉ text := by
        simpa [eq_comm] using line
      have inside : (c != '\n') = true := bne_iff_ne.mpr other
      simp [splitTrivia, inside, ih later]

/-- What is skipped are blanks and comments, and what is kept starts with neither. -/
theorem splitTrivia_trivia (input : List Char) :
    Trivia (splitTrivia false input).2.isEmpty (splitTrivia false input).1 ∧
      ¬ StartsTrivia (splitTrivia false input).2 := by
  induction length : input.length using Nat.strongRecOn generalizing input with
  | ind size ih =>
      cases input with
      | nil => exact ⟨.nil, id⟩
      | cons c rest =>
          simp only [List.length_cons] at length
          by_cases white : isBlank c = true
          · obtain ⟨trivia, stops⟩ := ih rest.length (by omega) rest rfl
            simp only [splitTrivia, white, ↓reduceIte]
            exact ⟨.blank c _ white trivia, stops⟩
          · by_cases opens : c = '/' ∧ rest.head? = some '/'
            · obtain ⟨rfl, slash⟩ := opens
              obtain ⟨text, rfl⟩ := List.head?_eq_some_iff.mp slash
              have skips : splitTrivia false ('/' :: '/' :: text) =
                  ('/' :: '/' :: (splitTrivia true text).1, (splitTrivia true text).2) := by
                simp [splitTrivia, white]
              rw [skips]
              by_cases ended : '\n' ∈ text
              · obtain ⟨text, rest, rfl, line⟩ := List.eq_append_cons_of_mem ended
                simp only [List.length_cons, List.length_append] at length
                obtain ⟨trivia, stops⟩ := ih rest.length (by omega) rest rfl
                rw [splitTrivia_line line]
                exact ⟨.comment text _ line trivia, stops⟩
              · rw [splitTrivia_unended ended]
                exact ⟨.unended text rfl ended, id⟩
            · have keeps : splitTrivia false (c :: rest) = ([], c :: rest) := by
                simp [splitTrivia, white, opens]
              rw [keeps]
              refine ⟨.nil, ?_⟩
              rintro (blank | comment)
              · exact white blank
              · exact opens comment

end Token

/-- From one offset to the other there are blanks and comments, and the text does not go on with
more of them. -/
def Text.Skipped (input : List Char) (start stop : Nat) : Prop :=
  ∃ before gap after, input = before ++ gap ++ after ∧ start = byteLength before ∧
    stop = byteLength (before ++ gap) ∧ Trivia after.isEmpty gap ∧ ¬ StartsTrivia after

/-- No lexeme starts at the offset of the error, which tells an open string from a character that
belongs to no class. -/
def LexError.Stands (input : List Char) (error : LexError) : Prop :=
  ∃ before first rest, input = before ++ first :: rest ∧ error.pos = byteLength before ∧
    Lexeme.Absent (first :: rest) ∧
    error = if first = '"' then .unclosedString error.pos else .invalidChar first error.pos

namespace Scan

/-- Where reading stops: at the error, or else at the end of the text. -/
def finish (scan : Scan) : Nat := (scan.error.map LexError.pos).getD scan.length

/-- What lies between the tokens, from an offset on: before each of them, and after the last. -/
def gaps (offset : Nat) (scan : Scan) : List (Nat × Nat) :=
  (offset :: scan.tokens.map Token.stop).zip (scan.tokens.map Token.start ++ [scan.finish])

/-- Tokens, gaps and the error take up the text from the start. -/
structure Tiles (input : List Char) (scan : Scan) : Prop where
  length_eq : scan.length = byteLength input
  covers : ∀ token ∈ scan.tokens, token.Covers input
  ordered : scan.tokens.Pairwise fun left right => left.stop ≤ right.start
  skipped : ∀ gap ∈ scan.gaps 0, Text.Skipped input gap.1 gap.2
  stands : ∀ error, scan.error = some error → error.Stands input

/-- How the rest of a text is read after the characters before it. -/
inductive Reads : (before rest : List Char) → Scan → Prop where
  | finish (before rest : List Char) (trivia : Trivia true rest) :
      Reads before rest ⟨[], none, byteLength (before ++ rest)⟩
  | refuse (before gap : List Char) (first : Char) (rest : List Char) (cause : Token.CutError)
      (trivia : Trivia false gap) (stops : ¬ StartsTrivia (first :: rest))
      (absent : Lexeme.Absent (first :: rest))
      (caused : cause = if first = '"' then .unclosedString else .invalidChar first) :
      Reads before (gap ++ first :: rest)
        ⟨[], some (cause.atOffset (byteLength (before ++ gap))),
          byteLength (before ++ (gap ++ first :: rest))⟩
  | token (before gap covered rest text : List Char) (kind : TokenKind) (scan : Scan)
      (trivia : Trivia (covered ++ rest).isEmpty gap) (stops : ¬ StartsTrivia (covered ++ rest))
      (longest : Lexeme.Longest (covered ++ rest) kind text covered)
      (later : Reads (before ++ gap ++ covered) rest scan) :
      Reads before (gap ++ (covered ++ rest))
        (scan.cons ⟨kind, String.ofList text, byteLength (before ++ gap)⟩)

section Equations

variable {offset : Nat} {input gap rest : List Char} {first : Char}

theorem ofChars_of_nil (parts : Token.splitTrivia false input = (gap, [])) :
    ofChars offset input = ⟨[], none, offset + byteLength input⟩ := by
  unfold ofChars
  split
  · rfl
  · rename_i kept
    rw [parts] at kept
    cases kept

theorem ofChars_of_error {cause : Token.CutError}
    (parts : Token.splitTrivia false input = (gap, first :: rest))
    (failed : Token.cut first rest = .error cause) :
    ofChars offset input =
      ⟨[], some (cause.atOffset (offset + byteLength gap)), offset + byteLength input⟩ := by
  unfold ofChars
  split
  · rename_i kept
    rw [parts] at kept
    cases kept
  · rename_i kept
    have same := kept
    rw [parts] at same
    cases same
    dsimp only
    split
    · rename_i again
      rw [failed] at again
      cases again
      rw [parts]
    · rename_i again
      rw [failed] at again
      cases again

theorem ofChars_of_ok {piece : Token.Piece}
    (parts : Token.splitTrivia false input = (gap, first :: rest))
    (success : Token.cut first rest = .ok piece) :
    ofChars offset input =
      (ofChars (offset + byteLength gap + byteLength piece.covered) piece.rest).cons
        ⟨piece.kind, String.ofList piece.text, offset + byteLength gap⟩ := by
  rw [ofChars]
  split
  · rename_i kept
    rw [parts] at kept
    cases kept
  · rename_i kept
    have same := kept
    rw [parts] at same
    cases same
    dsimp only
    split
    · rename_i again
      rw [success] at again
      cases again
    · rename_i again
      rw [success] at again
      cases again
      rw [parts]

end Equations

/-- Reading goes that way. -/
theorem reads_ofChars (before input : List Char) :
    Reads before input (ofChars (byteLength before) input) := by
  induction length : input.length using Nat.strongRecOn generalizing before input with
  | ind size ih =>
      obtain ⟨trivia, stops⟩ := Token.splitTrivia_trivia input
      have whole := Token.splitTrivia_append false input
      cases parts : Token.splitTrivia false input with
      | mk gap kept =>
          rw [parts] at trivia stops whole
          dsimp only at trivia stops whole
          subst whole
          cases kept with
          | nil =>
              rw [ofChars_of_nil parts, ← Text.byteLength_append]
              rw [List.append_nil]
              exact .finish before gap trivia
          | cons first rest =>
              cases made : Token.cut first rest with
              | error cause =>
                  obtain ⟨absent, caused⟩ := Token.cut_absent made
                  rw [ofChars_of_error parts made, ← Text.byteLength_append,
                    ← Text.byteLength_append]
                  exact .refuse before gap first rest cause trivia stops absent caused
              | ok piece =>
                  have longest := Token.cut_longest made
                  have shorter := Token.cut_rest_length_lt first rest piece made
                  rw [ofChars_of_ok parts made]
                  rw [← Token.cut_covers first rest piece made] at trivia stops longest ⊢
                  rw [← Text.byteLength_append, ← Text.byteLength_append]
                  refine .token before gap piece.covered piece.rest piece.text piece.kind _ trivia
                    stops longest ?_
                  apply ih piece.rest.length _ _ piece.rest rfl
                  simp only [List.length_append, List.length_cons] at length shorter
                  omega

namespace Reads

variable {before rest : List Char} {scan : Scan}

theorem stop_eq {kind : TokenKind} {text covered : List Char} (lexeme : Lexeme kind text covered)
    (before : List Char) :
    Token.stop ⟨kind, String.ofList text, byteLength before⟩ = byteLength (before ++ covered) := by
  simp only [Token.stop, String.toList_ofList, Text.byteLength_append, lexeme.byteLength_covered]
  omega

theorem length_eq (reads : Reads before rest scan) : scan.length = byteLength (before ++ rest) := by
  induction reads with
  | finish before rest trivia => rfl
  | refuse before gap first rest cause => rfl
  | token before gap covered rest text kind scan trivia stops longest later ih =>
      change scan.length = _
      rw [ih]
      simp only [List.append_assoc]

theorem covers (reads : Reads before rest scan) :
    ∀ token ∈ scan.tokens, token.Covers (before ++ rest) := by
  induction reads with
  | finish before rest trivia => exact fun token member => absurd member List.not_mem_nil
  | refuse before gap first rest cause => exact fun token member => absurd member List.not_mem_nil
  | token before gap covered rest text kind scan trivia stops longest later ih =>
      intro token member
      rcases List.mem_cons.mp member with rfl | earlier
      · refine ⟨before ++ gap, covered, rest, by simp, rfl, stop_eq longest.lexeme _, ?_⟩
        rw [String.toList_ofList]
        exact longest
      · have found := ih token earlier
        simpa only [List.append_assoc] using found

theorem le_start (reads : Reads before rest scan) :
    ∀ token ∈ scan.tokens, byteLength before ≤ token.start := by
  induction reads with
  | finish before rest trivia => exact fun token member => absurd member List.not_mem_nil
  | refuse before gap first rest cause => exact fun token member => absurd member List.not_mem_nil
  | token before gap covered rest text kind scan trivia stops longest later ih =>
      intro token member
      rcases List.mem_cons.mp member with rfl | earlier
      · change byteLength before ≤ byteLength (before ++ gap)
        rw [Text.byteLength_append]
        omega
      · have further := ih token earlier
        simp only [Text.byteLength_append] at further
        omega

theorem ordered (reads : Reads before rest scan) :
    scan.tokens.Pairwise fun left right => left.stop ≤ right.start := by
  induction reads with
  | finish before rest trivia => exact .nil
  | refuse before gap first rest cause => exact .nil
  | token before gap covered rest text kind scan trivia stops longest later ih =>
      refine .cons ?_ ih
      intro right member
      rw [stop_eq longest.lexeme]
      exact later.le_start right member

theorem skipped (reads : Reads before rest scan) :
    ∀ gap ∈ scan.gaps (byteLength before), Text.Skipped (before ++ rest) gap.1 gap.2 := by
  induction reads with
  | finish before rest trivia =>
      intro gap member
      obtain rfl := List.mem_singleton.mp member
      exact ⟨before, rest, [], by simp, rfl, rfl, trivia, id⟩
  | refuse before gap first rest cause trivia stops absent caused =>
      intro between member
      obtain rfl := List.mem_singleton.mp member
      refine ⟨before, gap, first :: rest, by simp, rfl, ?_, trivia, stops⟩
      cases cause <;> rfl
  | token before gap covered rest text kind scan trivia stops longest later ih =>
      intro between member
      have split : between = (byteLength before, byteLength (before ++ gap)) ∨
          between ∈ scan.gaps (byteLength (before ++ gap ++ covered)) := by
        rw [← stop_eq longest.lexeme (before ++ gap)]
        exact List.mem_cons.mp member
      rcases split with rfl | further
      · exact ⟨before, gap, covered ++ rest, by simp, rfl, rfl, trivia, stops⟩
      · have found := ih between further
        simpa only [List.append_assoc] using found

theorem stands (reads : Reads before rest scan) (error : LexError)
    (failed : scan.error = some error) : error.Stands (before ++ rest) := by
  induction reads with
  | finish before rest trivia => cases failed
  | refuse before gap first rest cause trivia stops absent caused =>
      cases failed
      refine ⟨before ++ gap, first, rest, by simp, ?_, absent, ?_⟩
      · cases cause <;> rfl
      · rw [caused]
        split <;> rfl
  | token before gap covered rest text kind scan trivia stops longest later ih =>
      have found := ih failed
      simpa only [List.append_assoc] using found

end Reads

theorem tiles_ofString (source : String) : (ofString source).Tiles source.toList := by
  have reads : Reads [] source.toList (ofString source) := reads_ofChars [] source.toList
  exact ⟨reads.length_eq, reads.covers, reads.ordered, reads.skipped, reads.stands⟩

end Scan

/-- A reader that hands out one item at a time: the offset it has come to, the characters from there
on, and whether it has come to an end. -/
structure Reader where
  offset : Nat
  rest : List Char
  done : Bool
deriving Repr, DecidableEq

namespace Reader

def ofString (source : String) : Reader := ⟨0, source.toList, false⟩

/-- Skips blanks and comments and hands out what comes next. After the end of input or an error
there is nothing more. -/
def next (reader : Reader) : Option (Except LexError Token) × Reader :=
  if reader.done then
    (none, reader)
  else
    let (gap, kept) := Token.splitTrivia false reader.rest
    let start := reader.offset + byteLength gap
    match kept with
    | [] => (some (.ok (.endOfInput start)), ⟨start, [], true⟩)
    | first :: rest =>
      match Token.cut first rest with
      | .error cause => (some (.error (cause.atOffset start)), ⟨start, first :: rest, true⟩)
      | .ok piece =>
        (some (.ok ⟨piece.kind, String.ofList piece.text, start⟩),
          ⟨start + byteLength piece.covered, piece.rest, false⟩)

/-- What the reader hands out after the given number of times. -/
def item (reader : Reader) : Nat → Option (Except LexError Token)
  | 0 => reader.next.1
  | count + 1 => reader.next.2.item count

/-- Everything that the reader has yet to hand out. -/
def remaining (reader : Reader) : List (Except LexError Token) :=
  if reader.done then [] else (Scan.ofChars reader.offset reader.rest).items

theorem next_eq (reader : Reader) :
    reader.next.1 = reader.remaining.head? ∧ reader.next.2.remaining = reader.remaining.tail := by
  obtain ⟨offset, rest, done⟩ := reader
  cases done with
  | true => exact ⟨rfl, rfl⟩
  | false =>
      have whole := Token.splitTrivia_append false rest
      cases parts : Token.splitTrivia false rest with
      | mk gap kept =>
          rw [parts] at whole
          cases kept with
          | nil =>
              rw [List.append_nil] at whole
              dsimp only at whole
              subst whole
              simp [next, remaining, parts, Scan.ofChars_of_nil parts, Scan.items]
          | cons first after =>
              cases made : Token.cut first after with
              | error cause =>
                  simp [next, remaining, parts, made, Scan.ofChars_of_error parts made, Scan.items]
              | ok piece =>
                  simp [next, remaining, parts, made, Scan.ofChars_of_ok parts made, Scan.items,
                    Scan.cons]

/-- Item by item, the reader hands out what remains, and then nothing. -/
theorem item_eq (reader : Reader) (count : Nat) :
    reader.item count = reader.remaining[count]? := by
  induction count generalizing reader with
  | zero =>
      rw [item, reader.next_eq.1, List.head?_eq_getElem?]
  | succ count ih =>
      rw [item, ih, reader.next_eq.2, List.getElem?_tail]

/-- Reading a text one item at a time gives its tokens in order, then either the end of input at the
length of the text or an error, and nothing after that. The text is taken up by the tokens, each the
longest lexeme at its offset, by the blanks and comments between them, and by what follows the
error. -/
theorem items_tile (source : String) :
    (∀ count, (ofString source).item count = (Scan.ofString source).items[count]?) ∧
      (Scan.ofString source).items = (Scan.ofString source).tokens.map .ok ++
        [match (Scan.ofString source).error with
          | none => .ok (.endOfInput source.utf8ByteSize)
          | some error => .error error] ∧
      (Scan.ofString source).Tiles source.toList := by
  have tiles := Scan.tiles_ofString source
  refine ⟨fun count => (ofString source).item_eq count, ?_, tiles⟩
  rw [Scan.items, tiles.length_eq, Text.byteLength_toList]
  cases (Scan.ofString source).error <;> rfl

end Reader

end ThreeAddress

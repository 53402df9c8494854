import ThreeAddress.Proofs.Token.Tiling

/-!
Tokens written out again. A blank goes on with no token and begins none, so tokens that are written
with a blank after each are read back one by one, whatever blanks and comments follow it.
-/

set_option autoImplicit false

namespace ThreeAddress

open Text (byteLength isBlank)

namespace Text

/-- All code points of a table. -/
def codes (table : List (Nat × Nat)) : List Nat :=
  table.flatMap fun range => List.range' range.1 (range.2 + 1 - range.1)

theorem mem_codes {table : List (Nat × Nat)} {code : Nat} :
    code ∈ codes table ↔ inRanges table code = true := by
  rw [codes, List.mem_flatMap, inRanges_iff]
  refine exists_congr fun range => and_congr_right fun _ => ?_
  rw [List.mem_range'_1]
  omega

/-- The text is over or goes on with a blank. -/
def Parted : List Char → Prop
  | [] => True
  | c :: _ => isBlank c = true

/-- Blanks and comments, each comment ended by its line, with a blank in front. -/
structure Gap (gap : List Char) : Prop where
  trivia : Trivia false gap
  parted : Parted gap
  nonempty : gap ≠ []

theorem Gap.parted_append {gap : List Char} (between : Gap gap) (rest : List Char) :
    Parted (gap ++ rest) := by
  obtain ⟨_, parted, nonempty⟩ := between
  cases gap with
  | nil => exact absurd rfl nonempty
  | cons c gap => exact parted

end Text

namespace Token

variable {kind : TokenKind} {text covered rest gap : List Char}

/-- A blank is part of no word and no number and begins no other token. -/
theorem blank_apart {c : Char} (white : isBlank c = true) :
    continuesWord c = false ∧ continuesNumber c = false ∧
      c ∉ '"' :: (operatorChars ++ delimiterChars) := by
  have all : ∀ code ∈ Text.codes Text.blankRanges,
      continuesWord (Char.ofNat code) = false ∧ continuesNumber (Char.ofNat code) = false ∧
        Char.ofNat code ∉ '"' :: (operatorChars ++ delimiterChars) := by decide +kernel
  have each := all c.toNat (Text.mem_codes.mpr white)
  rwa [Char.ofNat_toNat] at each

/-- Blanks and comments are skipped up to where something else begins. -/
theorem splitTrivia_gap (trivia : Trivia false gap) (stops : ¬ StartsTrivia rest) :
    splitTrivia false (gap ++ rest) = (gap, rest) := by
  induction trivia with
  | nil =>
      cases rest with
      | nil => rfl
      | cons c rest =>
          obtain ⟨visible, single⟩ : ¬ isBlank c = true ∧ ¬ (c = '/' ∧ rest.head? = some '/') :=
            not_or.mp stops
          simp [splitTrivia, visible, single]
  | blank c gap white _ ih => simp [splitTrivia, white, ih]
  | comment text gap line _ ih =>
      have slash : ¬ isBlank '/' = true := by decide
      simp [splitTrivia, slash, splitTrivia_line line, ih]
  | unended text ends => cases ends

/-- What goes on as long as a condition holds ends at a blank that does not meet it. -/
theorem takeWhile_parted {goes : Char → Bool} {more : List Char}
    (stops : ∀ c, isBlank c = true → goes c = false) (meets : ∀ c ∈ more, goes c = true)
    (parted : Text.Parted rest) :
    (more ++ rest).takeWhile goes = more ∧ (more ++ rest).dropWhile goes = rest := by
  rw [List.takeWhile_append_of_pos meets, List.dropWhile_append_of_pos meets]
  cases rest with
  | nil => simp
  | cons c rest => simp [stops c parted]

theorem cutMark_parted {mark : Char} (parted : Text.Parted rest) :
    cutMark mark rest = cutMark.single mark rest := by
  cases rest with
  | nil => rfl
  | cons second rest =>
      have apart : (mark, second) ∉ operatorPairs := by
        intro listed
        have seconds : ∀ pair ∈ operatorPairs, pair.2 ∈ operatorChars := by decide
        refine (blank_apart parted).2.2 (List.mem_cons_of_mem _ (List.mem_append_left _ ?_))
        exact seconds _ listed
      simp [cutMark, apart]

end Token

namespace Lexeme

variable {kind : TokenKind} {text covered rest : List Char}

/-- A lexeme begins with no blank, and with a slash only if it is one. -/
theorem exists_first (lexeme : Lexeme kind text covered) :
    ∃ first more, covered = first :: more ∧ isBlank first = false ∧ (first = '/' → more = []) := by
  have visible : ∀ c, Token.continuesWord c = true ∨ Token.continuesNumber c = true ∨
      c ∈ '"' :: (Token.operatorChars ++ Token.delimiterChars) → isBlank c = false := by
    intro c begins
    rw [← Bool.not_eq_true]
    intro white
    obtain ⟨word, number, mark⟩ := Token.blank_apart white
    rw [word, number] at begins
    simp [mark] at begins
  cases lexeme with
  | word first more starts _ =>
      refine ⟨first, more, rfl, visible first (.inl ?_), ?_⟩
      · rcases Bool.or_eq_true_iff.mp starts with letter | line
        · simp [Token.continuesWord, letter]
        · simp [Token.continuesWord, line]
      · rintro rfl
        exact absurd starts (by decide)
  | number first more starts _ =>
      refine ⟨first, more, rfl, visible first (.inr (.inl ?_)), ?_⟩
      · simp [Token.continuesNumber, starts]
      · rintro rfl
        exact absurd starts (by decide)
  | string text _ =>
      exact ⟨'"', text ++ ['"'], rfl, by decide, fun slash => absurd slash (by decide)⟩
  | pair first second listed =>
      refine ⟨first, [second], rfl, visible first (.inr (.inr ?_)), ?_⟩
      · exact List.mem_cons_of_mem _ (Token.fst_mem_marks _ listed)
      · rintro rfl
        exact absurd listed (by simp [Token.operatorPairs])
  | operator mark listed =>
      refine ⟨mark, [], rfl, visible mark (.inr (.inr ?_)), fun _ => rfl⟩
      exact List.mem_cons_of_mem _ (List.mem_append_left _ listed)
  | delimiter mark listed =>
      refine ⟨mark, [], rfl, visible mark (.inr (.inr ?_)), fun _ => rfl⟩
      exact List.mem_cons_of_mem _ (List.mem_append_right _ listed)

/-- Before a blank or the end of the text, a lexeme is not taken for a blank or a comment. -/
theorem not_startsTrivia (lexeme : Lexeme kind text covered) (parted : Text.Parted rest) :
    ¬ StartsTrivia (covered ++ rest) := by
  obtain ⟨first, more, rfl, visible, alone⟩ := lexeme.exists_first
  rintro (white | ⟨rfl, slash⟩)
  · rw [visible] at white
    cases white
  · obtain rfl := alone rfl
    obtain ⟨after, rfl⟩ := List.head?_eq_some_iff.mp slash
    have white : isBlank '/' = true := parted
    exact absurd white (by decide)

/-- There a lexeme is cut off as it is. -/
theorem cut_parted (lexeme : Lexeme kind text covered) (parted : Text.Parted rest) :
    ∃ first more, covered = first :: more ∧
      Token.cut first (more ++ rest) = .ok ⟨kind, text, covered, rest⟩ := by
  cases lexeme with
  | word first more starts continues =>
      obtain ⟨taken, dropped⟩ := Token.takeWhile_parted
        (fun _ white => (Token.blank_apart white).1) continues parted
      refine ⟨first, more, rfl, ?_⟩
      simp [Token.cut, starts, Token.cutWord, taken, dropped, Token.Piece.plain]
  | number first more starts continues =>
      have goes : ∀ c ∈ more, Token.continuesNumber c = true := by
        intro c member
        simpa [Token.continuesNumber] using continues c member
      obtain ⟨taken, dropped⟩ := Token.takeWhile_parted
        (fun _ white => (Token.blank_apart white).2.1) goes parted
      have wordless := Token.startsWord_of_isDigit starts
      refine ⟨first, more, rfl, ?_⟩
      simp [Token.cut, wordless, starts, Token.cutNumber, taken, dropped, Token.Piece.plain]
  | string text inside =>
      refine ⟨'"', text ++ ['"'], rfl, ?_⟩
      rw [List.append_assoc]
      exact Token.cutString_closed '"' inside rest
  | pair first second listed =>
      refine ⟨first, [second], rfl, ?_⟩
      rw [Token.cut_mark (Token.fst_mem_marks _ listed)]
      simp [Token.cutMark, listed, Token.Piece.plain]
  | operator mark listed =>
      refine ⟨mark, [], rfl, ?_⟩
      rw [Token.cut_mark (List.mem_append_left _ listed), List.nil_append,
        Token.cutMark_parted parted]
      simp [Token.cutMark.single, listed, Token.Piece.plain]
  | delimiter mark listed =>
      have other : mark ∉ Token.operatorChars := by
        have apart : ∀ mark ∈ Token.delimiterChars, mark ∉ Token.operatorChars := by
          simp [Token.delimiterChars, Token.operatorChars]
        exact apart mark listed
      refine ⟨mark, [], rfl, ?_⟩
      rw [Token.cut_mark (List.mem_append_right _ listed), List.nil_append,
        Token.cutMark_parted parted]
      simp [Token.cutMark.single, listed, other, Token.Piece.plain]

end Lexeme

namespace Token

/-- How a token is written: its text, between quotes if it is a string literal. -/
def written (token : Token) : List Char :=
  if token.kind = .str then '"' :: (token.text.toList ++ ['"']) else token.text.toList

/-- The token without its place. -/
def unplaced (token : Token) : Token := { token with start := 0 }

end Token

def LexError.unplaced : LexError → LexError
  | .invalidChar char _ => .invalidChar char 0
  | .unclosedString _ => .unclosedString 0

/-- The reading without the places of its tokens and its end. -/
def Scan.unplaced (scan : Scan) : Scan :=
  ⟨scan.tokens.map Token.unplaced, scan.error.map LexError.unplaced, 0⟩

/-- A text in which the tokens are written one after the other, with a gap between neighbours. -/
inductive Layout : List Token → List Char → Prop where
  | nil : Layout [] []
  | last (token : Token) : Layout [token] token.written
  | cons (token next : Token) (tokens : List Token) (gap text : List Char) (between : Text.Gap gap)
      (later : Layout (next :: tokens) text) :
      Layout (token :: next :: tokens) (token.written ++ (gap ++ text))

/-- One gap between all neighbours is a layout. -/
theorem Layout.intercalate {gap : List Char} (between : Text.Gap gap) (tokens : List Token) :
    Layout tokens (gap.intercalate (tokens.map Token.written)) := by
  induction tokens with
  | nil => exact .nil
  | cons token tokens ih =>
      cases tokens with
      | nil =>
          rw [List.map_singleton, List.intercalate_singleton]
          exact .last token
      | cons next tokens =>
          rw [List.map_cons, List.map_cons, List.intercalate_cons_cons, List.append_assoc]
          exact .cons token next tokens gap _ between ih

namespace Scan

/-- Every token of a source is a lexeme as it is written. -/
theorem lexeme_of_mem {source : String} {token : Token}
    (member : token ∈ (ofString source).tokens) :
    Lexeme token.kind token.text.toList token.written := by
  obtain ⟨before, covered, after, _, _, _, longest⟩ :=
    (reads_ofChars [] source.toList).covers token member
  have same : covered = token.written := longest.lexeme.covered_eq
  exact same ▸ longest.lexeme

/-- Behind a gap and before a blank, a written token is read as it is. -/
theorem ofChars_written {token : Token} {gap rest : List Char} (offset : Nat)
    (lexeme : Lexeme token.kind token.text.toList token.written) (trivia : Trivia false gap)
    (parted : Text.Parted rest) :
    ofChars offset (gap ++ (token.written ++ rest)) =
      (ofChars (offset + byteLength gap + byteLength token.written) rest).cons
        { token with start := offset + byteLength gap } := by
  have parts := Token.splitTrivia_gap trivia (lexeme.not_startsTrivia parted)
  obtain ⟨first, more, spelled, success⟩ := lexeme.cut_parted parted
  have split : gap ++ (token.written ++ rest) = gap ++ first :: (more ++ rest) := by
    rw [spelled, List.cons_append]
  rw [split] at parts ⊢
  rw [spelled] at parts
  rw [ofChars_of_ok parts success, String.ofList_toList]

@[simp] theorem unplaced_cons (token : Token) (scan : Scan) :
    (scan.cons token).unplaced = scan.unplaced.cons token.unplaced := rfl

/-- Tokens that are laid out are read back. -/
theorem ofChars_layout {tokens : List Token} {text : List Char} (laid : Layout tokens text)
    (lexemes : ∀ token ∈ tokens, Lexeme token.kind token.text.toList token.written)
    {gap : List Char} (trivia : Trivia false gap) (offset : Nat) :
    (ofChars offset (gap ++ text)).unplaced = ⟨tokens.map Token.unplaced, none, 0⟩ := by
  -- The gap in front is the one that the token before leaves behind.
  induction laid generalizing gap offset with
  | nil =>
      rw [ofChars_of_nil (Token.splitTrivia_gap trivia id)]
      rfl
  | last token =>
      have ended : Text.Parted [] := trivial
      have read := ofChars_written offset (lexemes token List.mem_cons_self) trivia ended
      rw [List.append_nil] at read
      rw [read, unplaced_cons, ofChars_of_nil rfl]
      rfl
  | cons token next tokens between text parts later ih =>
      rw [ofChars_written offset (lexemes token List.mem_cons_self) trivia
        (parts.parted_append text), unplaced_cons,
        ih (fun other member => lexemes other (.tail _ member)) parts.trivia]
      rfl

/-- A source laid out anew reads as before, but for the places. -/
theorem ofString_layout {source layout : String} (clean : (ofString source).error = none)
    (laid : Layout (ofString source).tokens layout.toList) :
    (ofString layout).unplaced = (ofString source).unplaced := by
  have read := ofChars_layout laid (fun token member => lexeme_of_mem member) .nil 0
  rw [List.nil_append] at read
  rw [ofString, read, unplaced, clean]
  rfl

end Scan

end ThreeAddress

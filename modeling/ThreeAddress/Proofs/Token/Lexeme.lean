import ThreeAddress.Token.Scan

/-!
The classes of tokens by what they cover. Cutting a token off the front of a text finds the longest
prefix that belongs to some class, and fails only where no prefix does.
-/

set_option autoImplicit false

namespace ThreeAddress

open Text (byteLength isAlphabetic)

/-- The characters that a token can cover, with its kind and its text. -/
inductive Lexeme : TokenKind → (text covered : List Char) → Prop where
  | word (first : Char) (rest : List Char) (starts : Token.startsWord first = true)
      (continues : ∀ c ∈ rest, Token.continuesWord c = true) :
      Lexeme (Token.wordKind (String.ofList (first :: rest))) (first :: rest) (first :: rest)
  | number (first : Char) (rest : List Char) (starts : first.isDigit = true)
      (continues : ∀ c ∈ rest, c.isDigit = true ∨ c = '.') :
      Lexeme (Token.numberKind (first :: rest)) (first :: rest) (first :: rest)
  | string (text : List Char) (inside : '"' ∉ text) : Lexeme .str text ('"' :: (text ++ ['"']))
  | pair (first second : Char) (listed : (first, second) ∈ Token.operatorPairs) :
      Lexeme .operator [first, second] [first, second]
  | operator (mark : Char) (listed : mark ∈ Token.operatorChars) : Lexeme .operator [mark] [mark]
  | delimiter (mark : Char) (listed : mark ∈ Token.delimiterChars) :
      Lexeme .delimiter [mark] [mark]

namespace Lexeme

/-- A lexeme at the front of the text, none of those at its front being longer. -/
structure Longest (input : List Char) (kind : TokenKind) (text covered : List Char) : Prop where
  lexeme : Lexeme kind text covered
  front : covered <+: input
  longest : ∀ (other : TokenKind) (spelled taken : List Char), Lexeme other spelled taken →
    taken <+: input → taken.length ≤ covered.length

/-- No lexeme stands at the front of the text. -/
def Absent (input : List Char) : Prop :=
  ∀ (kind : TokenKind) (text covered : List Char), Lexeme kind text covered → ¬ covered <+: input

variable {kind : TokenKind} {text covered : List Char}

/-- A token covers its text, and the two quotes if it is a string literal. -/
theorem covered_eq (lexeme : Lexeme kind text covered) :
    covered = if kind = .str then '"' :: (text ++ ['"']) else text := by
  cases lexeme with
  | word first rest =>
      have plain : Token.wordKind (String.ofList (first :: rest)) ≠ .str := by
        unfold Token.wordKind
        split
        · simp
        · split <;> simp
      rw [if_neg plain]
  | number first rest =>
      have plain : Token.numberKind (first :: rest) ≠ .str := by
        unfold Token.numberKind
        split <;> simp
      rw [if_neg plain]
  | string text inside => rw [if_pos rfl]
  | _ => simp

theorem byteLength_covered (lexeme : Lexeme kind text covered) :
    byteLength covered = byteLength text + if kind = .str then 2 else 0 := by
  have quote : Char.utf8Size '"' = 1 := by decide
  rw [lexeme.covered_eq]
  split
  · simp only [Text.byteLength_cons, Text.byteLength_append, Text.byteLength_nil, quote]
    omega
  · rfl

end Lexeme

namespace Token

variable {first : Char} {rest : List Char} {piece : Piece}

theorem startsWord_of_isDigit {c : Char} (digit : c.isDigit = true) : startsWord c = false := by
  have range : '0'.toNat ≤ c.toNat ∧ c.toNat ≤ '9'.toNat := Char.isDigit_iff_toNat.mp digit
  change 48 ≤ c.toNat ∧ c.toNat ≤ 57 at range
  have other : c ≠ '_' := by
    rintro rfl
    exact absurd digit (by decide)
  have letter : ¬ c.isAlpha = true := by
    intro letter
    rcases Bool.or_eq_true_iff.mp letter with upper | lower
    · have above := UInt32.le_iff_toNat_le.mp (of_decide_eq_true upper).1
      change 65 ≤ c.toNat at above
      omega
    · have above := UInt32.le_iff_toNat_le.mp
        (of_decide_eq_true (Bool.and_eq_true_iff.mp lower).1)
      change 97 ≤ c.toNat at above
      omega
  have small : c.toNat < 0x80 := by omega
  simp [startsWord, isAlphabetic, small, other, letter]

/-- A character that is a token by itself begins no word, no number and no string. -/
theorem mark_apart : ∀ mark ∈ operatorChars ++ delimiterChars,
    startsWord mark = false ∧ mark.isDigit = false ∧ (mark == '"') = false := by
  have all : (operatorChars ++ delimiterChars).all (fun mark =>
      !startsWord mark && !mark.isDigit && !(mark == '"')) = true := by decide
  intro mark listed
  simpa [and_assoc] using List.all_eq_true.mp all mark listed

theorem cut_mark {mark : Char} (listed : mark ∈ operatorChars ++ delimiterChars)
    (rest : List Char) : cut mark rest = cutMark mark rest := by
  obtain ⟨word, digit, quote⟩ := mark_apart mark listed
  simp [cut, word, digit, quote]

/-- All that can come of a mark. -/
theorem cutMark_cases (first : Char) (rest : List Char) :
    (∃ second after, rest = second :: after ∧ (first, second) ∈ operatorPairs ∧
        cutMark first rest = .ok (.plain .operator [first, second] after)) ∨
      (first ∈ operatorChars ∧ cutMark first rest = .ok (.plain .operator [first] rest)) ∨
      (first ∈ delimiterChars ∧ cutMark first rest = .ok (.plain .delimiter [first] rest)) ∨
      (first ∉ operatorChars ++ delimiterChars ∧
        cutMark first rest = .error (.invalidChar first)) := by
  have single : cutMark first rest = cutMark.single first rest →
      (first ∈ operatorChars ∧ cutMark first rest = .ok (.plain .operator [first] rest)) ∨
        (first ∈ delimiterChars ∧ cutMark first rest = .ok (.plain .delimiter [first] rest)) ∨
        (first ∉ operatorChars ++ delimiterChars ∧
          cutMark first rest = .error (.invalidChar first)) := by
    intro alone
    rw [alone, cutMark.single]
    by_cases operator : first ∈ operatorChars
    · simp [operator]
    · by_cases delimiter : first ∈ delimiterChars
      · simp [operator, delimiter]
      · simp [operator, delimiter]
  cases rest with
  | nil => exact .inr (single rfl)
  | cons second after =>
      by_cases listed : (first, second) ∈ operatorPairs
      · exact .inl ⟨second, after, rfl, listed, by simp [cutMark, listed]⟩
      · exact .inr (single (by simp [cutMark, listed]))

theorem bne_quote {text : List Char} (inside : '"' ∉ text) : ∀ c ∈ text, (c != '"') = true := by
  intro c member
  rw [bne_iff_ne]
  rintro rfl
  exact inside member

/-- A string literal ends at the first quote after the one that opens it. -/
theorem cutString_closed (quote : Char) {text : List Char} (inside : '"' ∉ text)
    (after : List Char) : cutString quote (text ++ '"' :: after) =
      .ok ⟨.str, text, quote :: (text ++ ['"']), after⟩ := by
  have dropped : (text ++ '"' :: after).dropWhile (· != '"') = '"' :: after := by
    rw [List.dropWhile_append_of_pos (bne_quote inside)]
    rfl
  have taken : (text ++ '"' :: after).takeWhile (· != '"') = text := by
    rw [List.takeWhile_append_of_pos (bne_quote inside)]
    simp
  simp only [cutString, dropped, taken, List.cons_append]

theorem cutString_unclosed (quote : Char) (inside : '"' ∉ rest) :
    cutString quote rest = .error .unclosedString := by
  have dropped : rest.dropWhile (· != '"') = [] := by
    rw [← List.append_nil rest, List.dropWhile_append_of_pos (bne_quote inside)]
    rfl
  simp only [cutString, dropped]

/-- What is cut is a lexeme. -/
theorem cut_lexeme (success : cut first rest = .ok piece) :
    Lexeme piece.kind piece.text piece.covered := by
  unfold cut at success
  split at success
  · rename_i starts
    cases success
    apply Lexeme.word first _ starts
    intro c member
    exact List.all_eq_true.mp List.all_takeWhile c member
  · split at success
    · rename_i starts
      cases success
      apply Lexeme.number first _ starts
      intro c member
      simpa [continuesNumber] using List.all_eq_true.mp List.all_takeWhile c member
    · split at success
      · rename_i quote
        rw [eq_of_beq quote] at success
        by_cases closed : '"' ∈ rest
        · obtain ⟨text, after, rfl, inside⟩ := List.eq_append_cons_of_mem closed
          rw [cutString_closed _ inside] at success
          cases success
          exact .string text inside
        · rw [cutString_unclosed _ closed] at success
          cases success
      · rcases cutMark_cases first rest with ⟨second, after, -, listed, made⟩ | ⟨listed, made⟩ |
          ⟨listed, made⟩ | ⟨-, made⟩
        · rw [made] at success
          cases success
          exact .pair first second listed
        · rw [made] at success
          cases success
          exact .operator first listed
        · rw [made] at success
          cases success
          exact .delimiter first listed
        · rw [made] at success
          cases success

/-- What goes on as long as a condition holds takes in all that meets it. -/
theorem prefix_takeWhile {goes : Char → Bool} {taken : List Char}
    (meets : ∀ c ∈ taken, goes c = true) (front : taken <+: rest) :
    taken <+: rest.takeWhile goes := by
  obtain ⟨after, rfl⟩ := front
  rw [List.takeWhile_append_of_pos meets]
  exact List.prefix_append _ _

/-- A mark is cut alone or with a second one. -/
theorem exists_cut_mark (listed : first ∈ operatorChars ++ delimiterChars) (rest : List Char) :
    ∃ piece, cut first rest = .ok piece ∧ [first] <+: piece.covered := by
  rw [cut_mark listed]
  rcases cutMark_cases first rest with ⟨second, after, -, -, made⟩ | ⟨-, made⟩ | ⟨-, made⟩ |
    ⟨absent, -⟩
  · exact ⟨_, made, List.prefix_append [first] [second]⟩
  · exact ⟨_, made, List.prefix_rfl⟩
  · exact ⟨_, made, List.prefix_rfl⟩
  · exact absurd listed absent

theorem fst_mem_marks : ∀ pair ∈ operatorPairs, pair.1 ∈ operatorChars ++ delimiterChars := by
  decide

/-- Where a lexeme stands, a token is cut that takes it in. -/
theorem exists_cut {kind : TokenKind} {text covered : List Char}
    (lexeme : Lexeme kind text covered) (front : covered <+: first :: rest) :
    ∃ piece, cut first rest = .ok piece ∧ covered <+: piece.covered := by
  cases lexeme with
  | word begin more starts continues =>
      obtain ⟨rfl, further⟩ := List.cons_prefix_cons.mp front
      refine ⟨cutWord begin rest, by rw [cut, if_pos starts], ?_⟩
      exact List.cons_prefix_cons.mpr ⟨rfl, prefix_takeWhile continues further⟩
  | number begin more starts continues =>
      obtain ⟨rfl, further⟩ := List.cons_prefix_cons.mp front
      have wordless := startsWord_of_isDigit starts
      refine ⟨cutNumber begin rest, by simp [cut, wordless, starts], ?_⟩
      have goes : ∀ c ∈ more, continuesNumber c = true := by
        intro c member
        simpa [continuesNumber] using continues c member
      exact List.cons_prefix_cons.mpr ⟨rfl, prefix_takeWhile goes further⟩
  | string text inside =>
      obtain ⟨rfl, after, rfl⟩ := List.cons_prefix_cons.mp front
      rw [List.append_assoc]
      exact ⟨_, cutString_closed '"' inside after, List.prefix_rfl⟩
  | pair begin second listed =>
      obtain ⟨rfl, further⟩ := List.cons_prefix_cons.mp front
      obtain ⟨after, rfl⟩ := further
      rw [cut_mark (fst_mem_marks _ listed)]
      refine ⟨.plain .operator [begin, second] after, ?_, List.prefix_rfl⟩
      simp [cutMark, listed]
  | operator mark listed =>
      obtain ⟨rfl, -⟩ := List.cons_prefix_cons.mp front
      exact exists_cut_mark (List.mem_append_left delimiterChars listed) rest
  | delimiter mark listed =>
      obtain ⟨rfl, -⟩ := List.cons_prefix_cons.mp front
      exact exists_cut_mark (List.mem_append_right operatorChars listed) rest

/-- A token is the longest lexeme where it begins. -/
theorem cut_longest (success : cut first rest = .ok piece) :
    Lexeme.Longest (first :: rest) piece.kind piece.text piece.covered := by
  refine ⟨cut_lexeme success, ⟨piece.rest, cut_covers first rest piece success⟩, ?_⟩
  intro other spelled taken lexeme front
  obtain ⟨found, again, within⟩ := exists_cut lexeme front
  obtain rfl : piece = found := by simpa [success] using again
  exact within.length_le

/-- Where no token is cut there is no lexeme: a quote opens a string that nothing closes, and any
other character belongs to no class. -/
theorem cut_absent {cause : CutError} (failed : cut first rest = .error cause) :
    Lexeme.Absent (first :: rest) ∧
      cause = if first = '"' then .unclosedString else .invalidChar first := by
  constructor
  · intro kind text covered lexeme front
    obtain ⟨piece, success, -⟩ := exists_cut lexeme front
    rw [failed] at success
    cases success
  · by_cases quote : first = '"'
    · subst quote
      change cutString '"' rest = .error cause at failed
      by_cases closed : '"' ∈ rest
      · obtain ⟨text, after, rfl, inside⟩ := List.eq_append_cons_of_mem closed
        rw [cutString_closed _ inside] at failed
        cases failed
      · rw [cutString_unclosed _ closed] at failed
        cases failed
        rfl
    · rw [if_neg quote]
      have marked : cutMark first rest = .error cause := by
        unfold cut at failed
        split at failed
        · cases failed
        · split at failed
          · cases failed
          · rwa [if_neg (by simpa using quote)] at failed
      rcases cutMark_cases first rest with ⟨_, _, -, -, made⟩ | ⟨-, made⟩ | ⟨-, made⟩ | ⟨-, made⟩
      all_goals
        rw [made] at marked
        cases marked
      rfl

end Token

end ThreeAddress

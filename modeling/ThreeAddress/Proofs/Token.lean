import ThreeAddress.Token.Scan

/-!
What the text of a token looks like, by its class.
-/

set_option autoImplicit false

namespace ThreeAddress

/-- The texts that a class admits, as far as they tell it from others. The end of input is not met
while reading, and identifiers and string literals are left open. -/
def TokenKind.Spells (kind : TokenKind) (text : List Char) : Prop :=
  match kind with
  | .eof => False
  | .ident | .str => True
  | .number | .real => ∃ first rest, text = first :: rest ∧ first.isDigit = true
  | .reserved => String.ofList text ∈ Token.reservedWords
  | .typeName => String.ofList text ∈ Token.typeNames
  | .operator => ∃ first rest, text = first :: rest ∧ first ∈ Token.operatorChars
  | .delimiter => ∃ first, text = [first] ∧ first ∈ Token.delimiterChars

namespace Token

theorem wordKind_spells (word : List Char) : (wordKind (String.ofList word)).Spells word := by
  unfold wordKind
  split
  · rename_i listed
    exact List.contains_iff_mem.mp listed
  · split
    · rename_i listed
      exact List.contains_iff_mem.mp listed
    · trivial

theorem numberKind_spells {first : Char} (rest : List Char) (digit : first.isDigit = true) :
    (numberKind (first :: rest)).Spells (first :: rest) := by
  unfold numberKind
  split
  · exact ⟨first, rest, rfl, digit⟩
  · exact ⟨first, rest, rfl, digit⟩

theorem cutString_kind {quote : Char} {rest : List Char} {piece : Piece}
    (success : cutString quote rest = .ok piece) : piece.kind = .str := by
  unfold cutString at success
  split at success
  · cases success
  · cases success
    rfl

theorem fst_mem_operatorChars : ∀ pair ∈ operatorPairs, pair.1 ∈ operatorChars := by
  decide

theorem cutMark_spells {first : Char} {rest : List Char} {piece : Piece}
    (success : cutMark first rest = .ok piece) : piece.kind.Spells piece.text := by
  have single : cutMark.single first rest = .ok piece → piece.kind.Spells piece.text := by
    intro alone
    unfold cutMark.single at alone
    split at alone
    · rename_i listed
      cases alone
      exact ⟨first, [], rfl, List.contains_iff_mem.mp listed⟩
    · split at alone
      · rename_i listed
        cases alone
        exact ⟨first, rfl, List.contains_iff_mem.mp listed⟩
      · cases alone
  unfold cutMark at success
  split at success
  · rename_i second after
    split at success
    · rename_i listed
      cases success
      exact ⟨first, [second], rfl,
        fst_mem_operatorChars (first, second) (List.contains_iff_mem.mp listed)⟩
    · exact single success
  · exact single success

/-- The text of a token fits its class. -/
theorem cut_spells {first : Char} {rest : List Char} {piece : Piece}
    (success : cut first rest = .ok piece) : piece.kind.Spells piece.text := by
  unfold cut at success
  split at success
  · cases success
    exact wordKind_spells _
  · split at success
    · rename_i digit
      cases success
      exact numberKind_spells _ digit
    · split at success
      · rw [cutString_kind success]
        trivial
      · exact cutMark_spells success

end Token

namespace Scan

theorem spells_of_mem {offset : Nat} {input : List Char} {token : Token}
    (member : token ∈ (ofChars offset input).tokens) : token.kind.Spells token.text.toList := by
  induction length : input.length using Nat.strongRecOn generalizing offset input with
  | ind length ih =>
      unfold ofChars at member
      split at member
      · cases member
      · rename_i first rest kept
        dsimp only at member
        split at member
        · cases member
        · rename_i piece success
          rcases List.mem_cons.mp member with rfl | later
          · rw [String.toList_ofList]
            exact Token.cut_spells success
          · have shorter := Token.cut_rest_length_lt first rest piece success
            have trivia := Token.splitTrivia_length_le false input
            rw [kept] at trivia
            exact ih _ (by omega) later rfl

/-- Every token of a source fits its class. -/
theorem spells_of_mem_ofString {source : String} {token : Token}
    (member : token ∈ (ofString source).tokens) : token.kind.Spells token.text.toList :=
  spells_of_mem member

end Scan

end ThreeAddress

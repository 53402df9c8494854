import ThreeAddress.Grammar.Basic

/-!
Augmentation: a new start symbol with the single production to the old one, and a token for the end
of input.
-/

set_option autoImplicit false

namespace ThreeAddress

/-- Appends `mark` to a name for as long as it is taken, at most `tries` times. -/
def freshName (taken : List String) (mark : String) : (tries : Nat) → String → String
  | 0, name => name
  | tries + 1, name =>
    if taken.contains name then freshName taken mark tries (name ++ mark) else name

/-- An augmented grammar and the number of its token for the end of input. -/
structure Augmented where
  grammar : Grammar
  eof : Nat
deriving Repr, DecidableEq

/-- Adds `S' -> S` as the last production and a token `$`. A prime is added to the new head while a
nonterminal has its name, and a dollar sign to the new token while a token has its name. -/
def Grammar.augment (grammar : Grammar) : Augmented where
  grammar :=
    { tokens := grammar.tokens ++ [freshName grammar.tokens "$" grammar.tokens.length "$"]
      nonterminals := grammar.nonterminals ++
        [freshName grammar.nonterminals "'" grammar.nonterminals.length
          (grammar.nonterminals.getD grammar.start "S" ++ "'")]
      productions := grammar.productions ++
        [⟨grammar.nonterminals.length, [.nonterminal grammar.start]⟩]
      byHead := grammar.byHead.insert grammar.nonterminals.length [grammar.productions.length]
      start := grammar.nonterminals.length }
  eof := grammar.tokens.length

end ThreeAddress

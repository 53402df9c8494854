import ThreeAddress.Ascending
import ThreeAddress.Grammar.Basic

/-!
The tokens that can begin what a symbol derives, and the symbols that derive nothing.
-/

set_option autoImplicit false

namespace ThreeAddress

/-- Repeats a pass until it changes nothing, at most `rounds` times. -/
def settle {α : Type} [DecidableEq α] (pass : α → α) : (rounds : Nat) → α → α
  | 0, state => state
  | rounds + 1, state =>
    let next := pass state
    if next = state then state else settle pass rounds next

/-- One set of tokens for each nonterminal, by number. -/
structure TokenSets where
  rows : List (List Nat)
deriving Repr, DecidableEq

namespace TokenSets

def empty (nonterminals : Nat) : TokenSets := ⟨List.replicate nonterminals []⟩

def get (sets : TokenSets) (nonterminal : Nat) : List Nat := sets.rows.getD nonterminal []

/-- Adds tokens to the set of one nonterminal. -/
def add (sets : TokenSets) (nonterminal : Nat) (tokens : List Nat) : TokenSets :=
  ⟨sets.rows.modify nonterminal (Ascending.union tokens)⟩

@[simp] theorem get_empty (nonterminals nonterminal : Nat) :
    (empty nonterminals).get nonterminal = [] := by
  simp only [empty, get, List.getD_eq_getElem?_getD, List.getElem?_replicate]
  split <;> rfl

@[simp] theorem add_length (sets : TokenSets) (nonterminal : Nat) (tokens : List Nat) :
    (sets.add nonterminal tokens).rows.length = sets.rows.length := by
  simp [add]

theorem get_add_same (sets : TokenSets) (nonterminal : Nat) (tokens : List Nat)
    (known : nonterminal < sets.rows.length) :
    (sets.add nonterminal tokens).get nonterminal =
      Ascending.union tokens (sets.get nonterminal) := by
  simp [add, get, known]

theorem get_add_other (sets : TokenSets) (nonterminal other : Nat) (tokens : List Nat)
    (different : nonterminal ≠ other) :
    (sets.add nonterminal tokens).get other = sets.get other := by
  simp [add, get, different]

end TokenSets

/-- A token never derives the empty string; a nonterminal does if it is listed. -/
def Symbol.isNullable (nullable : List Nat) : Symbol → Bool
  | .token _ => false
  | .nonterminal id => nullable.contains id

/-- The first tokens of each nonterminal, and the nonterminals that derive the empty string. -/
structure FirstSets where
  first : TokenSets
  nullable : List Nat
deriving Repr, DecidableEq

namespace FirstSets

def symbolFirst (sets : FirstSets) : Symbol → List Nat
  | .token id => [id]
  | .nonterminal id => sets.first.get id

def isNullable (sets : FirstSets) (symbol : Symbol) : Bool :=
  symbol.isNullable sets.nullable

/-- The tokens that can begin what a sequence derives. -/
def sequenceFirst (sets : FirstSets) : List Symbol → List Nat
  | [] => []
  | symbol :: rest =>
    if sets.isNullable symbol then
      Ascending.union (sets.symbolFirst symbol) (sets.sequenceFirst rest)
    else
      sets.symbolFirst symbol

/-- The tokens that can begin what a sequence followed by `lookahead` derives. -/
def lookahead (sets : FirstSets) (sequence : List Symbol) (lookahead : Nat) : List Nat :=
  if sequence.all sets.isNullable then
    Ascending.insert lookahead (sets.sequenceFirst sequence)
  else
    sets.sequenceFirst sequence

end FirstSets

namespace Grammar

/-- Marks the heads of the productions whose whole body is marked already. -/
def nullablePass (grammar : Grammar) (nullable : List Nat) : List Nat :=
  grammar.productions.foldl
    (fun known production =>
      if production.body.all (Symbol.isNullable known) then
        Ascending.insert production.head known
      else
        known)
    nullable

def nullable (grammar : Grammar) : List Nat :=
  settle grammar.nullablePass (grammar.nonterminals.length + 1) []

/-- Adds to each head what its productions can begin with by the sets known so far. -/
def firstPass (grammar : Grammar) (nullable : List Nat) (first : TokenSets) : TokenSets :=
  grammar.productions.foldl
    (fun known production =>
      known.add production.head (FirstSets.sequenceFirst ⟨known, nullable⟩ production.body))
    first

/-- The least sets that the productions allow. Each round but the last adds at least one token to
one nonterminal, which bounds their number. -/
def firstSets (grammar : Grammar) : FirstSets :=
  let nullable := grammar.nullable
  let rounds := grammar.nonterminals.length * grammar.tokens.length + 1
  ⟨settle (grammar.firstPass nullable) rounds (.empty grammar.nonterminals.length), nullable⟩

end Grammar

end ThreeAddress

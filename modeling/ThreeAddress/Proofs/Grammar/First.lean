import ThreeAddress.Proofs.FixedPoint
import ThreeAddress.Proofs.Grammar.Tree
import ThreeAddress.Proofs.Grammar.WellFormed

/-!
First sets are closed under the productions, so they hold whatever a syntax tree begins with: the
first leaf of the trees of a sequence, or the token after them, is among the lookaheads of the
sequence.
-/

set_option autoImplicit false

namespace ThreeAddress

namespace FirstSets

variable {sets : FirstSets}

theorem mem_sequenceFirst_cons {token : Nat} {symbol : Symbol} {rest : List Symbol} :
    token ∈ sets.sequenceFirst (symbol :: rest) ↔ token ∈ sets.symbolFirst symbol ∨
      (sets.isNullable symbol = true ∧ token ∈ sets.sequenceFirst rest) := by
  rw [sequenceFirst]
  split
  · rename_i nullable
    simp only [Ascending.mem_union, nullable, true_and]
  · rename_i nullable
    simp only [nullable, false_and, or_false, Bool.false_eq_true]

theorem mem_lookahead {token after : Nat} {sequence : List Symbol} :
    token ∈ sets.lookahead sequence after ↔ token ∈ sets.sequenceFirst sequence ∨
      (sequence.all sets.isNullable = true ∧ token = after) := by
  unfold lookahead
  split
  · rename_i vanishes
    simp only [Ascending.mem_insert, vanishes, true_and, or_comm]
  · rename_i vanishes
    simp only [vanishes, false_and, or_false, Bool.false_eq_true]

@[simp] theorem lookahead_nil (after : Nat) : sets.lookahead [] after = [after] := rfl

@[simp] theorem lookahead_token (id after : Nat) (rest : List Symbol) :
    sets.lookahead (.token id :: rest) after = [id] := rfl

theorem sequenceFirst_mono {nullable : List Nat} {small large : TokenSets}
    (below : TokenSets.Le small large) {sequence : List Symbol} {token : Nat}
    (member : token ∈ sequenceFirst ⟨small, nullable⟩ sequence) :
    token ∈ sequenceFirst ⟨large, nullable⟩ sequence := by
  induction sequence with
  | nil => cases member
  | cons symbol rest ih =>
      rw [mem_sequenceFirst_cons] at member ⊢
      rcases member with first | ⟨vanishes, later⟩
      · cases symbol with
        | token id => exact .inl first
        | nonterminal id => exact .inl (below id token first)
      · exact .inr ⟨vanishes, ih later⟩

/-- First sets over the tokens of an alphabet. -/
theorem strict_sequenceFirst {count : Nat} {alphabet : List Nat}
    (within : TokenSets.Within count alphabet sets.first) (sequence : List Symbol) :
    Ascending.Strict (sets.sequenceFirst sequence) := by
  have single : ∀ symbol, Ascending.Strict (sets.symbolFirst symbol) := by
    intro symbol
    cases symbol with
    | token id => exact Ascending.strict_singleton id
    | nonterminal id => exact within.strict_get id
  induction sequence with
  | nil => exact Ascending.strict_nil
  | cons symbol rest ih =>
      unfold sequenceFirst
      split
      · exact Ascending.strict_union _ _ (single symbol) ih
      · exact single symbol

theorem sequenceFirst_inside {count : Nat} {alphabet : List Nat}
    (within : TokenSets.Within count alphabet sets.first) {sequence : List Symbol}
    (known : ∀ id, Symbol.token id ∈ sequence → id ∈ alphabet) {token : Nat}
    (member : token ∈ sets.sequenceFirst sequence) : token ∈ alphabet := by
  induction sequence with
  | nil => cases member
  | cons symbol rest ih =>
      rcases mem_sequenceFirst_cons.mp member with first | ⟨_, later⟩
      · cases symbol with
        | token id =>
            rw [List.mem_singleton.mp first]
            exact known id List.mem_cons_self
        | nonterminal id => exact within.mem_get first
      · exact ih (fun id listed => known id (List.mem_cons_of_mem _ listed)) later

end FirstSets

namespace Grammar

variable {grammar : Grammar}

/-- The numbers of the tokens. -/
def alphabet (grammar : Grammar) : List Nat := List.range grammar.tokens.length

@[simp] theorem mem_alphabet {token : Nat} :
    token ∈ grammar.alphabet ↔ token < grammar.tokens.length := List.mem_range

@[simp] theorem alphabet_length : grammar.alphabet.length = grammar.tokens.length :=
  List.length_range

/-- The sets are closed under productions. -/
def FirstClosed (nullable : List Nat) (sets : TokenSets) (productions : List Production) : Prop :=
  ∀ production ∈ productions, ∀ token ∈ FirstSets.sequenceFirst ⟨sets, nullable⟩ production.body,
    token ∈ sets.get production.head

namespace InRange

theorem token_mem_alphabet (inRange : grammar.InRange) {production : Production}
    (member : production ∈ grammar.productions) {id : Nat}
    (inBody : Symbol.token id ∈ production.body) : id ∈ grammar.alphabet :=
  mem_alphabet.mpr (inRange.body_has production member _ inBody)

/-- Marking the head of a production is a growing step. -/
theorem growing_mark (inRange : grammar.InRange) (production : Production)
    (member : production ∈ grammar.productions) :
    Growing (fun known => Ascending.Strict known ∧ ∀ id ∈ known, id < grammar.nonterminals.length)
      List.length
      (fun known =>
        if production.body.all (Symbol.isNullable known) then
          Ascending.insert production.head known
        else
          known) := by
  constructor
  · rintro known ⟨strict, bounded⟩
    split
    · refine ⟨Ascending.strict_insert _ _ strict, ?_⟩
      intro id listed
      rcases (Ascending.mem_insert id _ _).mp listed with rfl | old
      · exact inRange.head_lt production member
      · exact bounded id old
    · exact ⟨strict, bounded⟩
  · rintro known ⟨strict, bounded⟩ different
    split at different
    · rename_i vanishes
      rw [if_pos vanishes]
      exact strict.length_lt (Ascending.strict_insert _ _ strict)
        (fun id listed => (Ascending.mem_insert id _ _).mpr (.inr listed)) different
    · exact absurd rfl different

/-- A production with a nullable body has a nullable head. -/
theorem mem_nullable (inRange : grammar.InRange) {production : Production}
    (member : production ∈ grammar.productions)
    (vanishes : production.body.all (Symbol.isNullable grammar.nullable) = true) :
    production.head ∈ grammar.nullable := by
  have growing := inRange.growing_mark
  have pass := Growing.foldl growing
  have initial : Ascending.Strict ([] : List Nat) ∧ ∀ id ∈ ([] : List Nat),
      id < grammar.nonterminals.length := ⟨Ascending.strict_nil, by simp⟩
  have bounded : ∀ known : List Nat,
      (Ascending.Strict known ∧ ∀ id ∈ known, id < grammar.nonterminals.length) →
      known.length ≤ grammar.nonterminals.length := by
    rintro known ⟨strict, below⟩
    have inside : ∀ id ∈ known, id ∈ List.range grammar.nonterminals.length :=
      fun id listed => List.mem_range.mpr (below id listed)
    simpa using strict.length_le inside
  have rest := pass.settle_fixed bounded (grammar.nonterminals.length + 1) [] initial
    (by simp only [List.length_nil]; omega)
  have valid := settle_induction pass.keeps (grammar.nonterminals.length + 1) [] initial
  have unchanged := Growing.foldl_fixed growing grammar.nullable valid rest production member
  rw [if_pos vanishes] at unchanged
  rw [← unchanged]
  exact (Ascending.mem_insert _ _ _).mpr (.inl rfl)

/-- Adding what a production begins with to its head is a growing step. -/
theorem growing_first (inRange : grammar.InRange) (nullable : List Nat) (production : Production)
    (member : production ∈ grammar.productions) :
    Growing (TokenSets.Within grammar.nonterminals.length grammar.alphabet) TokenSets.size
      (fun known => known.add production.head
        (FirstSets.sequenceFirst ⟨known, nullable⟩ production.body)) := by
  refine TokenSets.growing_add production.head _ ?_ ?_
  · intro known within
    have rows : TokenSets.Within _ _ (FirstSets.mk known nullable).first := within
    exact FirstSets.strict_sequenceFirst rows production.body
  · intro known within token first
    have rows : TokenSets.Within _ _ (FirstSets.mk known nullable).first := within
    exact FirstSets.sequenceFirst_inside rows
      (fun id inBody => inRange.token_mem_alphabet member inBody) first

theorem firstSets_within (inRange : grammar.InRange) :
    TokenSets.Within grammar.nonterminals.length grammar.alphabet grammar.firstSets.first :=
  settle_induction
    (Growing.foldl (inRange.growing_first grammar.nullable)).keeps
    (grammar.nonterminals.length * grammar.tokens.length + 1) _ TokenSets.within_empty

theorem firstClosed_of_fixed (inRange : grammar.InRange) {nullable : List Nat} {sets : TokenSets}
    (within : TokenSets.Within grammar.nonterminals.length grammar.alphabet sets)
    (fixed : grammar.firstPass nullable sets = sets) :
    FirstClosed nullable sets grammar.productions := by
  intro production member token begins
  have unchanged := Growing.foldl_fixed (inRange.growing_first nullable) sets within fixed production
    member
  refine TokenSets.mem_get_of_add_eq ?_ unchanged begins
  rw [within.length_eq]
  exact inRange.head_lt production member

/-- A head begins with whatever the body of a production of it begins with. -/
theorem mem_first (inRange : grammar.InRange) {production : Production}
    (member : production ∈ grammar.productions) {token : Nat}
    (begins : token ∈ grammar.firstSets.sequenceFirst production.body) :
    token ∈ grammar.firstSets.first.get production.head := by
  have growing := inRange.growing_first grammar.nullable
  have bounded : ∀ known : TokenSets,
      TokenSets.Within grammar.nonterminals.length grammar.alphabet known →
      known.size ≤ grammar.nonterminals.length * grammar.tokens.length := by
    intro known within
    have small := within.size_le
    rwa [alphabet_length] at small
  have rest := (Growing.foldl growing).settle_fixed bounded
    (grammar.nonterminals.length * grammar.tokens.length + 1)
    (.empty grammar.nonterminals.length) TokenSets.within_empty (by omega)
  exact inRange.firstClosed_of_fixed inRange.firstSets_within rest production member token begins

end InRange

/-- Sets that are closed under productions stay above what these add to smaller ones. -/
theorem FirstClosed.firstPass_below {nullable : List Nat} {small large : TokenSets}
    (closed : FirstClosed nullable large grammar.productions) (below : TokenSets.Le small large) :
    TokenSets.Le (grammar.firstPass nullable small) large := by
  unfold firstPass
  generalize grammar.productions = productions at closed
  induction productions generalizing small with
  | nil => exact below
  | cons production rest ih =>
      refine ih ?_ fun other member => closed other (List.mem_cons_of_mem _ member)
      intro nonterminal token member
      rcases TokenSets.mem_get_add member with old | ⟨rfl, begins⟩
      · exact below nonterminal token old
      · exact closed production List.mem_cons_self token (FirstSets.sequenceFirst_mono below begins)

namespace InRange

/-- First sets can be found by going through the productions in any order, as often as it takes. -/
theorem first_eq_of_order (inRange : grammar.InRange) (order : List Production) {sets : TokenSets}
    (listed : ∀ production ∈ order, production ∈ grammar.productions)
    (reached : { grammar with productions := order }.firstPass grammar.nullable
      (.empty grammar.nonterminals.length) = sets)
    (fixed : grammar.firstPass grammar.nullable sets = sets) :
    grammar.firstSets.first = sets := by
  have growing : ∀ production ∈ order, Growing _ _ _ := fun production member =>
    inRange.growing_first grammar.nullable production (listed production member)
  have within : TokenSets.Within grammar.nonterminals.length grammar.alphabet sets := by
    rw [← reached]
    exact (Growing.foldl growing).keeps _ TokenSets.within_empty
  refine inRange.firstSets_within.ext within ?_ ?_
  · have closed := inRange.firstClosed_of_fixed within fixed
    have keeps : ∀ state : TokenSets, TokenSets.Le state sets →
        TokenSets.Le (grammar.firstPass grammar.nullable state) sets :=
      fun state below => closed.firstPass_below below
    exact settle_induction keeps _ _ TokenSets.empty_le
  · rw [← reached]
    have closed : FirstClosed grammar.nullable grammar.firstSets.first order :=
      fun production member token begins => inRange.mem_first (listed production member) begins
    exact FirstClosed.firstPass_below closed TokenSets.empty_le

end InRange

/-- The trees of a sequence begin with one of its first tokens, unless they have no leaves, and then
the whole sequence is nullable. -/
theorem Parses.begins {α : Type} {reads : α → Option Nat} {symbols : List Symbol}
    {trees : List (Tree α)} (parsed : grammar.Parses reads symbols trees)
    (inRange : grammar.InRange) :
    (trees.flatMap Tree.leaves = [] ∧ symbols.all grammar.firstSets.isNullable = true) ∨
      ∃ token rest terminal, trees.flatMap Tree.leaves = token :: rest ∧
        reads token = some terminal ∧ terminal ∈ grammar.firstSets.sequenceFirst symbols := by
  induction parsed with
  | nil => exact .inl ⟨rfl, rfl⟩
  | leaf token terminal symbols trees read _ _ =>
      refine .inr ⟨token, trees.flatMap Tree.leaves, terminal, rfl, read, ?_⟩
      exact FirstSets.mem_sequenceFirst_cons.mpr (.inl List.mem_cons_self)
  | node index production children symbols trees found _ _ bodyIh ih =>
      have member := List.mem_of_getElem? found
      rw [List.flatMap_cons, Tree.leaves_node]
      rcases bodyIh with ⟨empty, vanishes⟩ | ⟨token, rest, terminal, leaves, read, first⟩
      · have nullable : grammar.firstSets.isNullable (.nonterminal production.head) = true :=
          List.contains_iff_mem.mpr (inRange.mem_nullable member vanishes)
        rw [empty, List.nil_append]
        rcases ih with ⟨noLeaves, all⟩ | ⟨token, rest, terminal, leaves, read, first⟩
        · exact .inl ⟨noLeaves, by rw [List.all_cons, nullable, all, Bool.and_self]⟩
        · exact .inr ⟨token, rest, terminal, leaves, read,
            FirstSets.mem_sequenceFirst_cons.mpr (.inr ⟨nullable, first⟩)⟩
      · refine .inr ⟨token, rest ++ trees.flatMap Tree.leaves, terminal, ?_, read, ?_⟩
        · rw [leaves, List.cons_append]
        · exact FirstSets.mem_sequenceFirst_cons.mpr (.inl (inRange.mem_first member first))

/-- The terminal that is read first, which is the given one at the end of the tokens. -/
def firstRead {α : Type} (reads : α → Option Nat) (ending : Nat) : List α → Option Nat
  | [] => some ending
  | token :: _ => reads token

/-- What is read first of the trees of a sequence and the tokens after them is a lookahead of the
sequence. -/
theorem Parses.lookahead {α : Type} {reads : α → Option Nat} {symbols : List Symbol}
    {trees : List (Tree α)} (parsed : grammar.Parses reads symbols trees)
    (inRange : grammar.InRange) {ending after : Nat} {tokens : List α}
    (next : firstRead reads ending tokens = some after) :
    ∃ terminal, firstRead reads ending (trees.flatMap Tree.leaves ++ tokens) = some terminal ∧
      terminal ∈ grammar.firstSets.lookahead symbols after := by
  rcases parsed.begins inRange with ⟨empty, vanishes⟩ | ⟨token, tail, terminal, leaves, read, first⟩
  · refine ⟨after, ?_, FirstSets.mem_lookahead.mpr (.inr ⟨vanishes, rfl⟩)⟩
    rw [empty, List.nil_append, next]
  · refine ⟨terminal, ?_, FirstSets.mem_lookahead.mpr (.inl first)⟩
    rw [leaves, List.cons_append]
    exact read

end Grammar

end ThreeAddress

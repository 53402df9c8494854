import ThreeAddress.Proofs.Grammar.Derivation
import ThreeAddress.Proofs.Grammar.First

/-!
What first sets mean: the nullable sequences are those that derive nothing, and the first tokens of a
sequence are those that can stand first in what it derives.
-/

set_option autoImplicit false

namespace ThreeAddress.Grammar

/-- The sequence derives nothing. -/
inductive Vanishes (grammar : Grammar) : List Symbol → Prop where
  | nil : Vanishes grammar []
  | cons (index : Nat) (production : Production) (rest : List Symbol)
      (found : grammar.productions[index]? = some production)
      (body : Vanishes grammar production.body) (later : Vanishes grammar rest) :
      Vanishes grammar (.nonterminal production.head :: rest)

/-- The token can stand first in what the sequence derives. -/
inductive Begins (grammar : Grammar) (token : Nat) : List Symbol → Prop where
  | token (rest : List Symbol) : Begins grammar token (.token token :: rest)
  | inside (index : Nat) (production : Production) (rest : List Symbol)
      (found : grammar.productions[index]? = some production)
      (body : Begins grammar token production.body) :
      Begins grammar token (.nonterminal production.head :: rest)
  | past (index : Nat) (production : Production) (rest : List Symbol)
      (found : grammar.productions[index]? = some production)
      (body : grammar.Vanishes production.body) (later : Begins grammar token rest) :
      Begins grammar token (.nonterminal production.head :: rest)

variable {grammar : Grammar}

namespace Vanishes

theorem append {front back : List Symbol} (first : grammar.Vanishes front)
    (second : grammar.Vanishes back) : grammar.Vanishes (front ++ back) := by
  induction first with
  | nil => exact second
  | cons index production rest found body _ _ ih => exact .cons index production _ found body ih

theorem split {front back : List Symbol} (vanishes : grammar.Vanishes (front ++ back)) :
    grammar.Vanishes front ∧ grammar.Vanishes back := by
  induction front with
  | nil => exact ⟨.nil, vanishes⟩
  | cons symbol front ih =>
      cases vanishes with
      | cons index production _ found body later =>
          obtain ⟨first, second⟩ := ih later
          exact ⟨.cons index production front found body first, second⟩

theorem all_isNullable {symbols : List Symbol} (vanishes : grammar.Vanishes symbols)
    (inRange : grammar.InRange) : symbols.all grammar.firstSets.isNullable = true := by
  induction vanishes with
  | nil => rfl
  | cons index production rest found _ _ bodyIh ih =>
      have nullable : grammar.firstSets.isNullable (.nonterminal production.head) = true :=
        List.contains_iff_mem.mpr (inRange.mem_nullable (List.mem_of_getElem? found) bodyIh)
      rw [List.all_cons, nullable, ih, Bool.and_self]

theorem of_all {known : List Nat} (sound : ∀ id ∈ known, grammar.Vanishes [.nonterminal id])
    {symbols : List Symbol} (nullable : symbols.all (Symbol.isNullable known) = true) :
    grammar.Vanishes symbols := by
  induction symbols with
  | nil => exact .nil
  | cons symbol rest ih =>
      rw [List.all_cons, Bool.and_eq_true] at nullable
      cases symbol with
      | token id => exact absurd nullable.1 Bool.false_ne_true
      | nonterminal id =>
          have first := sound id (List.contains_iff_mem.mp nullable.1)
          exact first.append (ih nullable.2)

/-- A pass marks only heads that vanish. -/
theorem of_mem_nullablePass {known : List Nat}
    (sound : ∀ id ∈ known, grammar.Vanishes [.nonterminal id]) :
    ∀ id ∈ grammar.nullablePass known, grammar.Vanishes [.nonterminal id] := by
  refine List.foldlRecOn (motive := fun marked => ∀ id ∈ marked, grammar.Vanishes [.nonterminal id])
    grammar.productions _ sound ?_
  intro marked kept production member
  obtain ⟨index, found⟩ := List.getElem?_of_mem member
  split
  · rename_i vanishes
    intro id listed
    rcases (Ascending.mem_insert id _ _).mp listed with rfl | old
    · exact .cons index production [] found (of_all kept vanishes) .nil
    · exact kept id old
  · exact kept

theorem of_mem_nullable : ∀ id ∈ grammar.nullable, grammar.Vanishes [.nonterminal id] := by
  refine settle_induction (motive := fun known => ∀ id ∈ known, grammar.Vanishes [.nonterminal id])
    (fun _ sound => of_mem_nullablePass sound) _ [] ?_
  intro id listed
  cases listed

end Vanishes

theorem all_isNullable_iff (inRange : grammar.InRange) {symbols : List Symbol} :
    symbols.all grammar.firstSets.isNullable = true ↔ grammar.Vanishes symbols :=
  ⟨Vanishes.of_all Vanishes.of_mem_nullable, fun vanishes => vanishes.all_isNullable inRange⟩

namespace Begins

variable {token : Nat}

theorem append {front : List Symbol} (back : List Symbol) (begins : grammar.Begins token front) :
    grammar.Begins token (front ++ back) := by
  induction begins with
  | token rest => exact .token _
  | inside index production rest found body _ => exact .inside index production _ found body
  | past index production rest found body _ ih => exact .past index production _ found body ih

theorem after {front back : List Symbol} (vanishes : grammar.Vanishes front)
    (begins : grammar.Begins token back) : grammar.Begins token (front ++ back) := by
  induction vanishes with
  | nil => exact begins
  | cons index production rest found body _ _ ih => exact .past index production _ found body ih

theorem split {front back : List Symbol} (begins : grammar.Begins token (front ++ back)) :
    grammar.Begins token front ∨ (grammar.Vanishes front ∧ grammar.Begins token back) := by
  induction front with
  | nil => exact .inr ⟨.nil, begins⟩
  | cons symbol front ih =>
      cases begins with
      | token _ => exact .inl (.token front)
      | inside index production _ found body => exact .inl (.inside index production front found body)
      | past index production _ found body later =>
          rcases ih later with first | ⟨vanishes, second⟩
          · exact .inl (.past index production front found body first)
          · exact .inr ⟨.cons index production front found body vanishes, second⟩

theorem mem_sequenceFirst {symbols : List Symbol} (begins : grammar.Begins token symbols)
    (inRange : grammar.InRange) : token ∈ grammar.firstSets.sequenceFirst symbols := by
  induction begins with
  | token rest => exact FirstSets.mem_sequenceFirst_cons.mpr (.inl List.mem_cons_self)
  | inside index production rest found _ ih =>
      exact FirstSets.mem_sequenceFirst_cons.mpr
        (.inl (inRange.mem_first (List.mem_of_getElem? found) ih))
  | past index production rest found body _ ih =>
      have vanishes : grammar.Vanishes [.nonterminal production.head] :=
        .cons index production [] found body .nil
      have nullable := vanishes.all_isNullable inRange
      rw [List.all_cons, List.all_nil, Bool.and_true] at nullable
      exact FirstSets.mem_sequenceFirst_cons.mpr (.inr ⟨nullable, ih⟩)

theorem of_mem_sequenceFirst {known : TokenSets}
    (sound : ∀ id, ∀ first ∈ known.get id, grammar.Begins first [.nonterminal id])
    {symbols : List Symbol}
    (member : token ∈ FirstSets.sequenceFirst ⟨known, grammar.nullable⟩ symbols) :
    grammar.Begins token symbols := by
  induction symbols with
  | nil => cases member
  | cons symbol rest ih =>
      rcases FirstSets.mem_sequenceFirst_cons.mp member with first | ⟨nullable, later⟩
      · cases symbol with
        | token id =>
            rw [List.mem_singleton.mp first]
            exact .token rest
        | nonterminal id => exact (sound id token first).append rest
      · cases symbol with
        | token id => exact absurd nullable Bool.false_ne_true
        | nonterminal id =>
            have vanishes := Vanishes.of_mem_nullable id (List.contains_iff_mem.mp nullable)
            exact after vanishes (ih later)

/-- A pass adds only tokens that stand first. -/
theorem of_mem_firstPass {known : TokenSets}
    (sound : ∀ id, ∀ first ∈ known.get id, grammar.Begins first [.nonterminal id]) :
    ∀ id, ∀ first ∈ (grammar.firstPass grammar.nullable known).get id,
      grammar.Begins first [.nonterminal id] := by
  refine List.foldlRecOn (motive := fun added : TokenSets => ∀ id, ∀ first ∈ added.get id,
    grammar.Begins first [.nonterminal id]) grammar.productions _ sound ?_
  intro added kept production member id first listed
  obtain ⟨index, found⟩ := List.getElem?_of_mem member
  rcases TokenSets.mem_get_add listed with old | ⟨rfl, new⟩
  · exact kept id first old
  · exact .inside index production [] found (of_mem_sequenceFirst kept new)

theorem of_mem_first : ∀ id, ∀ first ∈ grammar.firstSets.first.get id,
    grammar.Begins first [.nonterminal id] := by
  refine settle_induction (motive := fun known : TokenSets => ∀ id, ∀ first ∈ known.get id,
    grammar.Begins first [.nonterminal id]) (fun _ sound => of_mem_firstPass sound) _ _ ?_
  intro id first listed
  rw [TokenSets.get_empty] at listed
  cases listed

end Begins

theorem mem_sequenceFirst_iff (inRange : grammar.InRange) {token : Nat} {symbols : List Symbol} :
    token ∈ grammar.firstSets.sequenceFirst symbols ↔ grammar.Begins token symbols :=
  ⟨Begins.of_mem_sequenceFirst Begins.of_mem_first, fun begins => begins.mem_sequenceFirst inRange⟩

/-! Derivations, followed backwards. -/

theorem Derives.trans {first second third : List Symbol} (one : grammar.Derives first second)
    (two : grammar.Derives second third) : grammar.Derives first third := by
  induction one with
  | refl form => exact two
  | step front back index production target found _ ih =>
      exact .step front back index production _ found (ih two)

theorem Derives.vanishes {form target : List Symbol} (derives : grammar.Derives form target)
    (vanishes : grammar.Vanishes target) : grammar.Vanishes form := by
  induction derives with
  | refl form => exact vanishes
  | step front back index production target found _ ih =>
      obtain ⟨outer, after⟩ := (ih vanishes).split
      obtain ⟨before, body⟩ := outer.split
      exact before.append (.cons index production back found body after)

theorem Derives.begins {form target : List Symbol} {token : Nat}
    (derives : grammar.Derives form target) (begins : grammar.Begins token target) :
    grammar.Begins token form := by
  induction derives with
  | refl form => exact begins
  | step front back index production target found _ ih =>
      rcases (ih begins).split with outer | ⟨vanishes, after⟩
      · rcases outer.split with before | ⟨vanishes, body⟩
        · exact before.append _
        · exact .after vanishes (.inside index production back found body)
      · obtain ⟨before, body⟩ := vanishes.split
        exact .after before (.past index production back found body after)

/-- The nonterminal derives nothing, or a form that begins with a token. -/
def Live (grammar : Grammar) (id : Nat) : Prop :=
  grammar.Derives [.nonterminal id] [] ∨
    ∃ token rest, grammar.Derives [.nonterminal id] (.token token :: rest)

/-- The nonterminal stands in a form that the start symbol derives. -/
def Occurs (grammar : Grammar) (id : Nat) : Prop :=
  ∃ front back, grammar.Derives [.nonterminal grammar.start] (front ++ .nonterminal id :: back)

theorem occurs_start (grammar : Grammar) : grammar.Occurs grammar.start := ⟨[], [], .refl _⟩

/-- What stands in a body of a nonterminal that occurs, occurs itself. -/
theorem Occurs.body {id index : Nat} {production : Production}
    (occurs : grammar.Occurs production.head)
    (found : grammar.productions[index]? = some production)
    (inBody : Symbol.nonterminal id ∈ production.body) : grammar.Occurs id := by
  obtain ⟨front, back, derives⟩ := occurs
  obtain ⟨left, right, body⟩ := List.append_of_mem inBody
  refine ⟨front ++ left, right ++ back, derives.trans ?_⟩
  refine .step front back index production _ found ?_
  rw [body]
  simpa only [List.append_assoc, List.cons_append] using Derives.refl _

/-- Only symbols of the grammar occur. -/
theorem Occurs.lt {id : Nat} (occurs : grammar.Occurs id) (wellFormed : grammar.WellFormed) :
    id < grammar.nonterminals.length := by
  obtain ⟨front, back, derives⟩ := occurs
  have kept : ∀ form target, grammar.Derives form target → (∀ symbol ∈ form, grammar.Has symbol) →
      ∀ symbol ∈ target, grammar.Has symbol := by
    intro form target derives
    induction derives with
    | refl form => exact fun known => known
    | step front back index production target found _ ih =>
        intro known
        refine ih ?_
        simp only [List.forall_mem_append, List.forall_mem_cons] at known ⊢
        exact ⟨⟨known.1, wellFormed.body_has production (List.mem_of_getElem? found)⟩, known.2.2⟩
  have starts : ∀ symbol ∈ [Symbol.nonterminal grammar.start], grammar.Has symbol := by
    intro symbol member
    rw [List.mem_singleton.mp member]
    exact wellFormed.start_lt
  exact kept _ _ derives starts (.nonterminal id) (by simp)

/-! The augmented grammar derives what the grammar derives. -/

theorem Vanishes.construction {symbols : List Symbol} (vanishes : grammar.Vanishes symbols) :
    grammar.construction.grammar.Vanishes symbols := by
  induction vanishes with
  | nil => exact .nil
  | cons index production rest found _ _ bodyIh ih =>
      exact .cons index production rest (construction_of_found found) bodyIh ih

theorem Begins.construction {token : Nat} {symbols : List Symbol}
    (begins : grammar.Begins token symbols) :
    grammar.construction.grammar.Begins token symbols := by
  induction begins with
  | token rest => exact .token rest
  | inside index production rest found _ ih =>
      exact .inside index production rest (construction_of_found found) ih
  | past index production rest found body _ ih =>
      exact .past index production rest (construction_of_found found) body.construction ih

/-- The lookaheads of a sequence are what it can begin with, and what follows it if it vanishes. -/
theorem WellFormed.mem_lookahead_iff (wellFormed : grammar.WellFormed) {token after : Nat}
    {sequence : List Symbol} :
    token ∈ grammar.construction.first.lookahead sequence after ↔
      grammar.construction.grammar.Begins token sequence ∨
        (grammar.construction.grammar.Vanishes sequence ∧ token = after) := by
  have inRange := wellFormed.construction_inRange
  have first_eq : grammar.construction.first = grammar.construction.grammar.firstSets := rfl
  rw [first_eq, FirstSets.mem_lookahead, mem_sequenceFirst_iff inRange, all_isNullable_iff inRange]

theorem WellFormed.mem_lookahead_append (wellFormed : grammar.WellFormed) {token after : Nat}
    {front back : List Symbol} (vanishes : grammar.construction.grammar.Vanishes front)
    (member : token ∈ grammar.construction.first.lookahead back after) :
    token ∈ grammar.construction.first.lookahead (front ++ back) after := by
  rw [wellFormed.mem_lookahead_iff] at member ⊢
  rcases member with begins | ⟨nothing, same⟩
  · exact .inl (.after vanishes begins)
  · exact .inr ⟨vanishes.append nothing, same⟩

/-- After live symbols there is always something to expect. -/
theorem WellFormed.exists_mem_lookahead (wellFormed : grammar.WellFormed) {sequence : List Symbol}
    (live : ∀ id, Symbol.nonterminal id ∈ sequence → grammar.Live id) (after : Nat) :
    ∃ token, token ∈ grammar.construction.first.lookahead sequence after := by
  induction sequence with
  | nil => exact ⟨after, wellFormed.mem_lookahead_iff.mpr (.inr ⟨.nil, rfl⟩)⟩
  | cons symbol rest ih =>
      by_cases vanishes : grammar.construction.grammar.Vanishes [symbol]
      · obtain ⟨token, member⟩ := ih fun id listed => live id (List.mem_cons_of_mem _ listed)
        exact ⟨token, wellFormed.mem_lookahead_append vanishes member⟩
      · have begins : ∃ first, grammar.construction.grammar.Begins first [symbol] := by
          cases symbol with
          | token id => exact ⟨id, .token []⟩
          | nonterminal id =>
              rcases live id List.mem_cons_self with nothing | ⟨first, tail, derives⟩
              · exact absurd (nothing.vanishes .nil).construction vanishes
              · exact ⟨first, (derives.begins (.token tail)).construction⟩
        obtain ⟨first, begins⟩ := begins
        exact ⟨first, wellFormed.mem_lookahead_iff.mpr (.inl (begins.append rest))⟩

end ThreeAddress.Grammar

import ThreeAddress.Proofs.Grammar.Begins

/-!
First sets found in rounds over the productions. A production adds what its body begins with to its
head and marks the head if the whole body is marked, both at once and in place, so that the
productions after it see the larger sets in the same round. The rounds end with the first sets,
which say exactly what the sequences of the grammar derive.
-/

set_option autoImplicit false

namespace ThreeAddress

namespace FirstSets

/-- Nothing is known yet of the nonterminals. -/
def unknown (nonterminals : Nat) : FirstSets := ⟨.empty nonterminals, []⟩

/-- What is known after one more production. Both parts are read off the sets as they were. -/
def learn (sets : FirstSets) (production : Production) : FirstSets where
  first := sets.first.add production.head (sets.sequenceFirst production.body)
  nullable :=
    if production.body.all sets.isNullable then
      Ascending.insert production.head sets.nullable
    else
      sets.nullable

/-- The number of members of all sets together. -/
def size (sets : FirstSets) : Nat := sets.first.size + sets.nullable.length

/-- Ascending sets of the tokens and nonterminals of a grammar. -/
structure Within (grammar : Grammar) (sets : FirstSets) : Prop where
  first : TokenSets.Within grammar.nonterminals.length grammar.alphabet sets.first
  nullable : Ascending.Strict sets.nullable ∧
    ∀ id ∈ sets.nullable, id < grammar.nonterminals.length

/-- All that the first sets know, the second know. -/
structure Le (small large : FirstSets) : Prop where
  first : TokenSets.Le small.first large.first
  nullable : ∀ id ∈ small.nullable, id ∈ large.nullable

/-- Nothing can be learned from the production. -/
structure Closed (sets : FirstSets) (production : Production) : Prop where
  first : ∀ token ∈ sets.sequenceFirst production.body, token ∈ sets.first.get production.head
  nullable : production.body.all sets.isNullable = true → production.head ∈ sets.nullable

variable {grammar : Grammar} {small large : FirstSets}

theorem within_unknown : Within grammar (unknown grammar.nonterminals.length) := by
  refine ⟨TokenSets.within_empty, Ascending.strict_nil, ?_⟩
  intro id known
  cases known

theorem unknown_le (count : Nat) (sets : FirstSets) : Le (unknown count) sets := by
  refine ⟨TokenSets.empty_le, ?_⟩
  intro id known
  cases known

theorem Within.size_le {sets : FirstSets} (within : Within grammar sets) :
    sets.size ≤ grammar.nonterminals.length * (grammar.tokens.length + 1) := by
  have tokens := within.first.size_le
  have marked : sets.nullable.length ≤ (List.range grammar.nonterminals.length).length :=
    within.nullable.1.length_le fun id known => List.mem_range.mpr (within.nullable.2 id known)
  simp only [Grammar.alphabet_length, List.length_range] at tokens marked
  simp only [size, Nat.mul_add, Nat.mul_one]
  omega

/-- Sets that know the same are equal. -/
theorem Within.ext (smallWithin : Within grammar small) (largeWithin : Within grammar large)
    (below : Le small large) (above : Le large small) : small = large := by
  have first : small.first = large.first :=
    smallWithin.first.ext largeWithin.first below.first above.first
  have nullable : small.nullable = large.nullable :=
    smallWithin.nullable.1.ext largeWithin.nullable.1 fun id =>
      ⟨below.nullable id, above.nullable id⟩
  cases small
  cases large
  simp_all

namespace Le

theorem isNullable (below : Le small large) {symbol : Symbol}
    (nullable : small.isNullable symbol = true) : large.isNullable symbol = true := by
  cases symbol with
  | token id => exact nullable
  | nonterminal id =>
      exact List.contains_iff_mem.mpr (below.nullable id (List.contains_iff_mem.mp nullable))

theorem all_isNullable (below : Le small large) {sequence : List Symbol}
    (nullable : sequence.all small.isNullable = true) :
    sequence.all large.isNullable = true := by
  rw [List.all_eq_true] at nullable ⊢
  intro symbol member
  exact below.isNullable (nullable symbol member)

theorem mem_sequenceFirst (below : Le small large) {sequence : List Symbol} {token : Nat}
    (member : token ∈ small.sequenceFirst sequence) : token ∈ large.sequenceFirst sequence := by
  induction sequence with
  | nil => cases member
  | cons symbol rest ih =>
      rw [mem_sequenceFirst_cons] at member ⊢
      rcases member with first | ⟨nullable, later⟩
      · left
        cases symbol with
        | token id => exact first
        | nonterminal id => exact below.first id token first
      · exact .inr ⟨below.isNullable nullable, ih later⟩

/-- Sets from which nothing more can be learned stay above smaller ones that learn. -/
theorem learn (below : Le small large) {production : Production}
    (closed : large.Closed production) : Le (small.learn production) large := by
  constructor
  · intro nonterminal token member
    rcases TokenSets.mem_get_add member with old | ⟨rfl, new⟩
    · exact below.first nonterminal token old
    · exact closed.first token (below.mem_sequenceFirst new)
  · intro id member
    unfold FirstSets.learn at member
    split at member
    · rename_i nullable
      rcases (Ascending.mem_insert id _ _).mp member with rfl | old
      · exact closed.nullable (below.all_isNullable nullable)
      · exact below.nullable id old
    · exact below.nullable id member

end Le

end FirstSets

namespace Grammar

/-- One round over the productions. -/
def round (grammar : Grammar) (sets : FirstSets) : FirstSets :=
  grammar.productions.foldl FirstSets.learn sets

variable {grammar : Grammar}

theorem round_le {small large : FirstSets} (below : FirstSets.Le small large)
    (closed : ∀ production ∈ grammar.productions, large.Closed production) :
    FirstSets.Le (grammar.round small) large :=
  List.foldlRecOn (motive := (FirstSets.Le · large)) grammar.productions _ below
    fun _ kept production member => kept.learn (closed production member)

/-- Sets that have nothing to learn know all that the first sets know. -/
theorem firstSets_le {sets : FirstSets}
    (closed : ∀ production ∈ grammar.productions, sets.Closed production) :
    FirstSets.Le grammar.firstSets sets := by
  have marked : ∀ id ∈ grammar.nullable, id ∈ sets.nullable := by
    have pass : ∀ known : List Nat, (∀ id ∈ known, id ∈ sets.nullable) →
        ∀ id ∈ grammar.nullablePass known, id ∈ sets.nullable := by
      intro known below
      refine List.foldlRecOn (motive := fun marked => ∀ id ∈ marked, id ∈ sets.nullable)
        grammar.productions _ below ?_
      intro marked kept production member
      have le : FirstSets.Le ⟨.empty 0, marked⟩ sets := ⟨TokenSets.empty_le, kept⟩
      exact (le.learn (closed production member)).nullable
    refine settle_induction (motive := fun known => ∀ id ∈ known, id ∈ sets.nullable) pass _ [] ?_
    intro id known
    cases known
  refine ⟨?_, marked⟩
  have firstClosed : FirstClosed grammar.nullable sets.first grammar.productions := by
    intro production member token begins
    have le : FirstSets.Le ⟨sets.first, grammar.nullable⟩ sets := ⟨.refl _, marked⟩
    exact (closed production member).first token (le.mem_sequenceFirst begins)
  have keeps : ∀ state : TokenSets, TokenSets.Le state sets.first →
      TokenSets.Le (grammar.firstPass grammar.nullable state) sets.first :=
    fun state below => firstClosed.firstPass_below below
  exact settle_induction keeps _ _ TokenSets.empty_le

namespace InRange

variable (inRange : grammar.InRange)

include inRange

/-- To learn from a production is a growing step. -/
theorem growing_learn (production : Production) (member : production ∈ grammar.productions) :
    Growing (FirstSets.Within grammar) FirstSets.size (FirstSets.learn · production) := by
  have marks := inRange.growing_mark production member
  have adds := fun nullable => inRange.growing_first nullable production member
  constructor
  · intro sets within
    exact ⟨(adds sets.nullable).keeps sets.first within.first,
      marks.keeps sets.nullable within.nullable⟩
  · intro sets within different
    have more := (adds sets.nullable).size_le sets.first within.first inferInstance
    have marked := marks.size_le sets.nullable within.nullable inferInstance
    change sets.first.size + sets.nullable.length <
      (sets.learn production).first.size + (sets.learn production).nullable.length
    -- One of the two parts has changed, and then it is larger.
    by_cases same : (sets.learn production).first = sets.first
    · have other : (sets.learn production).nullable ≠ sets.nullable := by
        intro both
        apply different
        calc sets.learn production
          _ = ⟨(sets.learn production).first, (sets.learn production).nullable⟩ := rfl
          _ = sets := by rw [same, both]
      have larger := marks.grows sets.nullable within.nullable other
      exact Nat.add_lt_add_of_le_of_lt more larger
    · have larger := (adds sets.nullable).grows sets.first within.first same
      exact Nat.add_lt_add_of_lt_of_le larger marked

theorem growing_round : Growing (FirstSets.Within grammar) FirstSets.size grammar.round :=
  Growing.foldl inRange.growing_learn

/-- A round that changes nothing has nothing to learn from any production. -/
theorem closed_of_round {sets : FirstSets} (within : sets.Within grammar)
    (fixed : grammar.round sets = sets) (production : Production)
    (member : production ∈ grammar.productions) : sets.Closed production := by
  have unchanged := Growing.foldl_fixed inRange.growing_learn sets within fixed production member
  constructor
  · intro token begins
    refine TokenSets.mem_get_of_add_eq ?_ (congrArg FirstSets.first unchanged) begins
    rw [within.first.length_eq]
    exact inRange.head_lt production member
  · intro nullable
    have marked := congrArg FirstSets.nullable unchanged
    simp only [FirstSets.learn, nullable, ↓reduceIte] at marked
    rw [← marked]
    exact (Ascending.mem_insert _ _ _).mpr (.inl rfl)

theorem firstSets_closed (production : Production) (member : production ∈ grammar.productions) :
    grammar.firstSets.Closed production :=
  ⟨fun _ begins => inRange.mem_first member begins,
    fun nullable => inRange.mem_nullable member nullable⟩

theorem within_firstSets : grammar.firstSets.Within grammar := by
  refine ⟨inRange.firstSets_within, ?_⟩
  refine settle_induction (Growing.foldl inRange.growing_mark).keeps _ [] ⟨Ascending.strict_nil, ?_⟩
  intro id known
  cases known

/-- The rounds end before there are more of them than there is to learn. -/
theorem round_settle :
    grammar.round (settle grammar.round
        (grammar.nonterminals.length * (grammar.tokens.length + 1) + 1)
        (.unknown grammar.nonterminals.length)) =
      settle grammar.round (grammar.nonterminals.length * (grammar.tokens.length + 1) + 1)
        (.unknown grammar.nonterminals.length) :=
  inRange.growing_round.settle_fixed (fun _ within => within.size_le) _ _
    FirstSets.within_unknown (by omega)

/-- The rounds end with the first sets. -/
theorem settle_round :
    settle grammar.round (grammar.nonterminals.length * (grammar.tokens.length + 1) + 1)
      (.unknown grammar.nonterminals.length) = grammar.firstSets := by
  have within := settle_induction inRange.growing_round.keeps
    (grammar.nonterminals.length * (grammar.tokens.length + 1) + 1) _ FirstSets.within_unknown
  apply within.ext inRange.within_firstSets
  · refine settle_induction (motive := (FirstSets.Le · grammar.firstSets)) ?_ _ _
      (FirstSets.unknown_le _ _)
    intro sets below
    exact round_le below inRange.firstSets_closed
  · exact firstSets_le (inRange.closed_of_round within inRange.round_settle)

theorem round_firstSets : grammar.round grammar.firstSets = grammar.firstSets := by
  have fixed := inRange.round_settle
  rwa [inRange.settle_round] at fixed

end InRange

/-! What vanishes derives nothing, and what begins with a token derives a form that does. -/

theorem Derives.context {form target : List Symbol} (before after : List Symbol)
    (derives : grammar.Derives form target) :
    grammar.Derives (before ++ form ++ after) (before ++ target ++ after) := by
  induction derives with
  | refl form => exact .refl _
  | step front back index production target found _ ih =>
      have step := Derives.step (before ++ front) (back ++ after) index production _ found
        (by simpa only [List.append_assoc] using ih)
      simpa only [List.append_assoc, List.cons_append] using step

/-- A nonterminal that comes first is replaced by a body. -/
theorem Derives.head {index : Nat} {production : Production} {rest target : List Symbol}
    (found : grammar.productions[index]? = some production)
    (derives : grammar.Derives (production.body ++ rest) target) :
    grammar.Derives (.nonterminal production.head :: rest) target :=
  .step [] rest index production target found derives

theorem Vanishes.derives {symbols : List Symbol} (vanishes : grammar.Vanishes symbols) :
    grammar.Derives symbols [] := by
  induction vanishes with
  | nil => exact .refl []
  | cons index production rest found _ _ bodyIh ih =>
      have gone := bodyIh.context [] rest
      exact .head found (gone.trans ih)

theorem Begins.derives {token : Nat} {symbols : List Symbol}
    (begins : grammar.Begins token symbols) :
    ∃ rest, grammar.Derives symbols (.token token :: rest) := by
  induction begins with
  | token rest => exact ⟨rest, .refl _⟩
  | inside index production rest found _ ih =>
      obtain ⟨tail, derives⟩ := ih
      exact ⟨tail ++ rest, .head found (derives.context [] rest)⟩
  | past index production rest found body _ ih =>
      obtain ⟨tail, derives⟩ := ih
      have gone := body.derives.context [] rest
      exact ⟨tail, .head found (gone.trans derives)⟩

theorem derives_nil_iff {symbols : List Symbol} :
    grammar.Derives symbols [] ↔ grammar.Vanishes symbols :=
  ⟨fun derives => derives.vanishes .nil, Vanishes.derives⟩

theorem derives_token_iff {token : Nat} {symbols : List Symbol} :
    (∃ rest, grammar.Derives symbols (.token token :: rest)) ↔ grammar.Begins token symbols := by
  constructor
  · rintro ⟨rest, derives⟩
    exact derives.begins (.token rest)
  · exact Begins.derives

/-- A sequence with a token after it begins as the sequence does, or with the token. -/
theorem begins_concat_iff {token after : Nat} {sequence : List Symbol} :
    grammar.Begins token (sequence ++ [.token after]) ↔
      grammar.Begins token sequence ∨ (grammar.Vanishes sequence ∧ token = after) := by
  constructor
  · intro begins
    rcases begins.split with inside | ⟨vanishes, last⟩
    · exact .inl inside
    · cases last
      exact .inr ⟨vanishes, rfl⟩
  · rintro (inside | ⟨vanishes, rfl⟩)
    · exact inside.append _
    · exact .after vanishes (.token [])

namespace InRange

theorem all_isNullable_iff_derives (inRange : grammar.InRange) {sequence : List Symbol} :
    sequence.all grammar.firstSets.isNullable = true ↔ grammar.Derives sequence [] := by
  rw [all_isNullable_iff inRange, derives_nil_iff]

theorem mem_nullable_iff_derives (inRange : grammar.InRange) {id : Nat} :
    id ∈ grammar.firstSets.nullable ↔ grammar.Derives [.nonterminal id] [] := by
  rw [← inRange.all_isNullable_iff_derives, List.all_cons, List.all_nil, Bool.and_true]
  exact List.contains_iff_mem.symm

theorem mem_first_iff_derives (inRange : grammar.InRange) {id token : Nat} :
    token ∈ grammar.firstSets.first.get id ↔
      ∃ rest, grammar.Derives [.nonterminal id] (.token token :: rest) := by
  have single : token ∈ grammar.firstSets.sequenceFirst [.nonterminal id] ↔
      token ∈ grammar.firstSets.first.get id := by
    simp [FirstSets.sequenceFirst, FirstSets.symbolFirst]
  rw [← single, mem_sequenceFirst_iff inRange, derives_token_iff]

theorem mem_lookahead_iff_derives (inRange : grammar.InRange) {sequence : List Symbol}
    {after token : Nat} :
    token ∈ grammar.firstSets.lookahead sequence after ↔
      ∃ rest, grammar.Derives (sequence ++ [.token after]) (.token token :: rest) := by
  rw [FirstSets.mem_lookahead, mem_sequenceFirst_iff inRange, all_isNullable_iff inRange,
    derives_token_iff, begins_concat_iff]

end InRange

/-- The rounds over the productions of a grammar, augmented or not, end with its first sets, and
these are exact: the nullable symbols are those that derive nothing, the first tokens of a symbol are
those that begin a form derived from it, and the lookaheads of a sequence are the tokens that begin a
form derived from the sequence with the token after it. -/
theorem firstSets_exact {description : Description} {grammar whole : Grammar}
    (built : description.build = .ok grammar)
    (kind : whole = grammar ∨ whole = grammar.augment.grammar) :
    settle whole.round (whole.nonterminals.length * (whole.tokens.length + 1) + 1)
      (.unknown whole.nonterminals.length) = whole.firstSets ∧
    whole.round whole.firstSets = whole.firstSets ∧
    (∀ id, id ∈ whole.firstSets.nullable ↔ whole.Derives [.nonterminal id] []) ∧
    (∀ id token, token ∈ whole.firstSets.first.get id ↔
      ∃ rest, whole.Derives [.nonterminal id] (.token token :: rest)) ∧
    (∀ sequence after token, token ∈ whole.firstSets.lookahead sequence after ↔
      ∃ rest, whole.Derives (sequence ++ [.token after]) (.token token :: rest)) ∧
    ∀ sequence, sequence.all whole.firstSets.isNullable = true ↔ whole.Derives sequence [] := by
  have wellFormed := Description.wellFormed_of_build built
  have inRange : whole.InRange := by
    rcases kind with rfl | rfl
    · exact wellFormed.toInRange
    · exact wellFormed.construction_inRange
  refine ⟨inRange.settle_round, inRange.round_firstSets, ?_, ?_, ?_, ?_⟩
  · intro id
    exact inRange.mem_nullable_iff_derives
  · intro id token
    exact inRange.mem_first_iff_derives
  · intro sequence after token
    exact inRange.mem_lookahead_iff_derives
  · intro sequence
    exact inRange.all_isNullable_iff_derives

end Grammar

/-- Lists of pairs, each pair a list before an `a`, and a symbol of which nothing ever comes. -/
def Description.paired : Description :=
  ((((Description.addTokens {} ["a", "b"]).rule "list" ["list", "pair"]).rule "list" []).rule "pair"
    ["list", "a"]).rule "lost" ["lost", "b"]

def Grammar.paired : Grammar :=
  ⟨["a", "b"], ["list", "pair", "lost"],
    [⟨0, [.nonterminal 0, .nonterminal 1]⟩, ⟨0, []⟩, ⟨1, [.nonterminal 0, .token 0]⟩,
      ⟨2, [.nonterminal 2, .token 1]⟩],
    ⟨[(0, [0, 1]), (1, [2]), (2, [3])]⟩, 0⟩

/-- A list may be empty and a pair begins with an `a`, the lost symbol begins with nothing, and
after two lists comes what follows them. -/
theorem Grammar.firstSets_exact_paired :
    Description.paired.build = .ok .paired ∧
    settle Grammar.paired.augment.grammar.round 17 (.unknown 4) =
      Grammar.paired.augment.grammar.firstSets ∧
    Grammar.paired.augment.grammar.Derives [.nonterminal 0] [] ∧
    (∃ rest, Grammar.paired.augment.grammar.Derives [.nonterminal 1] (.token 0 :: rest)) ∧
    (¬∃ rest, Grammar.paired.augment.grammar.Derives [.nonterminal 2] (.token 1 :: rest)) ∧
    ∃ rest, Grammar.paired.augment.grammar.Derives [.nonterminal 0, .nonterminal 3, .token 2]
      (.token 2 :: rest) := by
  have built : Description.paired.build = .ok .paired := by decide +kernel
  obtain ⟨ends, _, nullable, first, lookahead, _⟩ := Grammar.firstSets_exact built (.inr rfl)
  refine ⟨built, ends, (nullable 0).mp ?_, (first 1 0).mp ?_, mt (first 2 1).mpr ?_,
    (lookahead [.nonterminal 0, .nonterminal 3] 2 2).mp ?_⟩
  · decide +kernel
  · decide +kernel
  · decide +kernel
  · decide +kernel

end ThreeAddress

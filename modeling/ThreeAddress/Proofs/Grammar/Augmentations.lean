import ThreeAddress.Proofs.Grammar.Augmented
import ThreeAddress.Proofs.Grammar.Begins
import ThreeAddress.Proofs.Grammar.Description

/-!
Augmentation, once and any number of times. Symbols and productions keep their numbers and names, the
new ones come last under names that are free among those of their kind, and the words of the new start
symbol are those of the old one. Names of the other kind are not looked at, so a token and a
nonterminal can end up with one name.
-/

set_option autoImplicit false

namespace ThreeAddress

namespace Grammar

/-- The grammar after a number of augmentations. -/
def augmented (grammar : Grammar) : (times : Nat) → Grammar
  | 0 => grammar
  | times + 1 => (grammar.augmented times).augment.grammar

/-- The symbols of each kind have names of their own, and only symbols of the grammar are used. -/
structure Numbered (grammar : Grammar) : Prop extends grammar.InRange where
  start_lt : grammar.start < grammar.nonterminals.length
  tokens_nodup : grammar.tokens.Nodup
  nonterminals_nodup : grammar.nonterminals.Nodup

/-- Numbers and names of the symbols of a kind determine each other, and each production is listed
with its head and with no other nonterminal. -/
structure Indexed (grammar : Grammar) : Prop extends grammar.InRange where
  start_lt : grammar.start < grammar.nonterminals.length
  token?_iff : ∀ name id, grammar.token? name = some id ↔
    id < grammar.tokens.length ∧ grammar.tokenName id = name
  nonterminal?_iff : ∀ name id, grammar.nonterminal? name = some id ↔
    id < grammar.nonterminals.length ∧ grammar.nonterminalName id = name
  mem_productionsOf : ∀ head index, index ∈ grammar.productionsOf head ↔
    ∃ production, grammar.productions[index]? = some production ∧ production.head = head
  listed : ∀ index < grammar.productions.length, ∃ head < grammar.nonterminals.length,
    ∀ other, index ∈ grammar.productionsOf other ↔ other = head
  increasing : ∀ head, (grammar.productionsOf head).Pairwise (· < ·)

/-- The symbols and productions of the one grammar have the same numbers in the other. -/
structure KeptIn (old new : Grammar) : Prop where
  tokens : old.tokens <+: new.tokens
  nonterminals : old.nonterminals <+: new.nonterminals
  productions : old.productions <+: new.productions

end Grammar

/-- What is new in an augmented grammar: one production, and the symbol of either kind with the
highest number, under the first free name. -/
structure Augmented.Adds (after : Augmented) (before : Grammar) : Prop where
  productions : after.grammar.productions =
    before.productions ++ [⟨after.grammar.start, [.nonterminal before.start]⟩]
  productionsOf_start :
    after.grammar.productionsOf after.grammar.start = [before.productions.length]
  start_unused : ∀ production ∈ after.grammar.productions,
    .nonterminal after.grammar.start ∉ production.body
  eof_unused : ∀ production ∈ after.grammar.productions, .token after.eof ∉ production.body
  start_last : after.grammar.start + 1 = after.grammar.nonterminals.length
  eof_last : after.eof + 1 = after.grammar.tokens.length
  startName : FirstFree before.nonterminals "'" (before.nonterminalName before.start ++ "'")
    (after.grammar.nonterminalName after.grammar.start)
  eofName : FirstFree before.tokens "$" "$" (after.grammar.tokenName after.eof)

namespace Grammar

variable {grammar : Grammar}

section Names

theorem getD_concat_length (names : List String) (name fallback : String) :
    (names ++ [name]).getD names.length fallback = name := by
  rw [List.getD_eq_getElem?_getD, List.getElem?_concat_length, Option.getD_some]

theorem augment_eofName (grammar : Grammar) :
    grammar.augment.grammar.tokenName grammar.augment.eof =
      freshName grammar.tokens "$" grammar.tokens.length "$" :=
  getD_concat_length _ _ _

theorem augment_startName (start_lt : grammar.start < grammar.nonterminals.length) :
    grammar.augment.grammar.nonterminalName grammar.augment.grammar.start =
      freshName grammar.nonterminals "'" grammar.nonterminals.length
        (grammar.nonterminalName grammar.start ++ "'") := by
  have known : grammar.nonterminals.getD grammar.start "S" =
      grammar.nonterminalName grammar.start := by
    simp only [nonterminalName, List.getD_eq_getElem?_getD, List.getElem?_eq_getElem start_lt,
      Option.getD_some]
  rw [← known]
  exact getD_concat_length _ _ _

theorem augment_tokens (grammar : Grammar) :
    grammar.augment.grammar.tokens =
      grammar.tokens ++ [grammar.augment.grammar.tokenName grammar.augment.eof] := by
  rw [augment_eofName]
  rfl

theorem augment_nonterminals (grammar : Grammar) :
    grammar.augment.grammar.nonterminals = grammar.nonterminals ++
      [grammar.augment.grammar.nonterminalName grammar.augment.grammar.start] := by
  conv_rhs => rw [nonterminalName]
  exact congrArg (fun name => grammar.nonterminals ++ [name]) (getD_concat_length _ _ _).symm

end Names

theorem KeptIn.refl (grammar : Grammar) : grammar.KeptIn grammar :=
  ⟨List.prefix_rfl, List.prefix_rfl, List.prefix_rfl⟩

theorem KeptIn.trans {first second third : Grammar} (one : first.KeptIn second)
    (other : second.KeptIn third) : first.KeptIn third :=
  ⟨one.tokens.trans other.tokens, one.nonterminals.trans other.nonterminals,
    one.productions.trans other.productions⟩

theorem keptIn_augment (grammar : Grammar) : grammar.KeptIn grammar.augment.grammar :=
  ⟨List.prefix_append _ _, List.prefix_append _ _, List.prefix_append _ _⟩

theorem keptIn_augmented (grammar : Grammar) (times : Nat) :
    grammar.KeptIn (grammar.augmented times) := by
  induction times with
  | zero => exact .refl grammar
  | succ times ih => exact ih.trans (keptIn_augment _)

namespace Numbered

theorem of_build {calls : List Description.Call}
    (built : (Description.ofCalls calls).build = .ok grammar) : grammar.Numbered := by
  have keeps := Description.keeps_of_build built
  exact ⟨keeps.inRange, keeps.start_lt, keeps.tokens.nodup, keeps.nonterminals.nodup⟩

variable (numbered : grammar.Numbered)
include numbered

theorem wellFormed : grammar.WellFormed := by
  refine ⟨numbered.toInRange, numbered.start_lt, ?_⟩
  intro production member id inBody
  have inside : id < grammar.tokens.length := numbered.body_has production member _ inBody
  exact (Description.idxOf?_eq_some_iff_getD numbered.tokens_nodup "$" _ id).mpr ⟨inside, rfl⟩

theorem augment : grammar.augment.grammar.Numbered where
  toInRange := numbered.wellFormed.construction_inRange
  start_lt := by
    rw [augment_nonterminals, List.length_append]
    exact Nat.lt_succ_self _
  tokens_nodup := nodup_augment_tokens numbered.tokens_nodup
  nonterminals_nodup := nodup_concat_freshName (by decide) numbered.nonterminals_nodup _

theorem augmented (times : Nat) : (grammar.augmented times).Numbered := by
  induction times with
  | zero => exact numbered
  | succ times ih => exact ih.augment

theorem indexed : grammar.Indexed where
  toInRange := numbered.toInRange
  start_lt := numbered.start_lt
  token?_iff := Description.idxOf?_eq_some_iff_getD numbered.tokens_nodup "$"
  nonterminal?_iff := Description.idxOf?_eq_some_iff_getD numbered.nonterminals_nodup "?"
  mem_productionsOf := by
    intro head index
    rw [numbered.mem_productionsOf, Option.map_eq_some_iff]
  listed := by
    intro index inside
    refine ⟨grammar.productions[index].head, numbered.head_lt _ (List.getElem_mem inside), ?_⟩
    intro other
    rw [numbered.mem_productionsOf, List.getElem?_eq_getElem inside, Option.map_some,
      Option.some.injEq, eq_comm]
  increasing := by
    intro head
    rw [numbered.productionsOf_eq]
    exact headedBy_pairwise _ _

theorem adds : grammar.augment.Adds grammar where
  productions := rfl
  productionsOf_start := by
    change (grammar.byHead.insert _ _).get grammar.nonterminals.length = _
    rw [HeadIndex.get_insert, if_pos rfl]
  start_unused := by
    intro production member inBody
    exact Nat.lt_irrefl _ (numbered.wellFormed.construction_body_has member inBody)
  eof_unused := by
    intro production member inBody
    exact Nat.lt_irrefl _ (numbered.wellFormed.construction_body_has member inBody)
  start_last := by
    rw [augment_nonterminals, List.length_append]
    rfl
  eof_last := by
    rw [augment_tokens, List.length_append]
    rfl
  startName := by
    rw [augment_startName numbered.start_lt]
    exact firstFree_freshName (by decide) _ _
  eofName := by
    rw [augment_eofName]
    exact firstFree_freshName (by decide) _ _

end Numbered

section Words

theorem KeptIn.found {new : Grammar} (kept : grammar.KeptIn new) {index : Nat}
    {production : Production} (found : grammar.productions[index]? = some production) :
    new.productions[index]? = some production := by
  obtain ⟨added, whole⟩ := kept.productions
  rw [← whole, List.getElem?_append_left (List.getElem?_eq_some_iff.mp found).1, found]

theorem Derives.kept {new : Grammar} {form target : List Symbol} (kept : grammar.KeptIn new)
    (derives : grammar.Derives form target) : new.Derives form target := by
  induction derives with
  | refl form => exact .refl form
  | step front back index production target found _ ih =>
      exact .step front back index production target (kept.found found) ih

/-- From symbols of a grammar the augmented grammar derives nothing more. -/
theorem Derives.of_augment (wellFormed : grammar.WellFormed) {form target : List Symbol}
    (derives : grammar.augment.grammar.Derives form target)
    (known : ∀ symbol ∈ form, grammar.Has symbol) : grammar.Derives form target := by
  induction derives with
  | refl form => exact .refl form
  | step front back index production target found _ ih =>
      simp only [List.forall_mem_append, List.forall_mem_cons] at known ih
      rcases wellFormed.construction_found found with ⟨old, _⟩ | ⟨_, rfl⟩
      · have body := wellFormed.body_has production (List.mem_of_getElem? old)
        exact .step front back index production target old
          (ih ⟨⟨known.1, body⟩, known.2.2⟩)
      · exact absurd known.2.1 (Nat.lt_irrefl _)

/-- A form of one symbol that leads to a word leads to the body of a production first. -/
theorem Derives.exists_production {id : Nat} {word : List Nat}
    (derives : grammar.Derives [.nonterminal id] (word.map .token)) :
    ∃ (index : Nat) (production : Production), grammar.productions[index]? = some production ∧
      production.head = id ∧ grammar.Derives production.body (word.map .token) := by
  generalize given : [Symbol.nonterminal id] = form at derives
  generalize reached : word.map Symbol.token = target at derives
  cases derives with
  | refl form =>
      have member : Symbol.nonterminal id ∈ word.map Symbol.token := by
        rw [reached, ← given]
        exact List.mem_singleton_self _
      obtain ⟨_, _, other⟩ := List.mem_map.mp member
      cases other
  | step front back index production target found rest =>
      cases front with
      | nil =>
          obtain ⟨same, rfl⟩ := List.cons.inj given
          cases same
          simp only [List.nil_append, List.append_nil] at rest
          exact ⟨index, production, found, rfl, rest⟩
      | cons first front => simp at given

theorem derives_augment_iff (wellFormed : grammar.WellFormed) (word : List Nat) :
    grammar.augment.grammar.Derives [.nonterminal grammar.augment.grammar.start]
        (word.map .token) ↔
      grammar.Derives [.nonterminal grammar.start] (word.map .token) := by
  constructor
  · intro derives
    obtain ⟨index, production, found, head, rest⟩ := derives.exists_production
    rcases wellFormed.construction_found found with ⟨_, old⟩ | ⟨_, rfl⟩
    · rw [head] at old
      exact absurd old (Nat.lt_irrefl _)
    · refine rest.of_augment wellFormed fun symbol member => ?_
      rw [List.mem_singleton.mp member]
      exact wellFormed.start_lt
  · intro derives
    exact .step [] [] _ _ _ grammar.construction_last (derives.kept (keptIn_augment grammar))

theorem Numbered.derives_augmented_iff (numbered : grammar.Numbered) (times : Nat)
    (word : List Nat) :
    (grammar.augmented times).Derives [.nonterminal (grammar.augmented times).start]
        (word.map .token) ↔
      grammar.Derives [.nonterminal grammar.start] (word.map .token) := by
  induction times with
  | zero => exact Iff.rfl
  | succ times ih =>
      exact (derives_augment_iff (numbered.augmented times).wellFormed word).trans ih

end Words

/-- Any number of augmentations leaves a grammar with unambiguous numbers and names for each kind of
symbol, with what was there before and one production more, and with the same words. -/
theorem augmented_indexed {calls : List Description.Call}
    (built : (Description.ofCalls calls).build = .ok grammar) (times : Nat) :
    (grammar.augmented (times + 1)).Indexed ∧
      grammar.KeptIn (grammar.augmented (times + 1)) ∧
      (grammar.augmented times).KeptIn (grammar.augmented (times + 1)) ∧
      (grammar.augmented times).augment.Adds (grammar.augmented times) ∧
      ∀ word : List Nat,
        (grammar.augmented (times + 1)).Derives
            [.nonterminal (grammar.augmented (times + 1)).start] (word.map .token) ↔
          grammar.Derives [.nonterminal grammar.start] (word.map .token) := by
  have numbered := Numbered.of_build built
  refine ⟨(numbered.augmented (times + 1)).indexed, keptIn_augmented grammar (times + 1),
    keptIn_augment (grammar.augmented times), (numbered.augmented times).adds, ?_⟩
  exact numbered.derives_augmented_iff (times + 1)

/-- Names of both kinds that look as if augmentation had chosen them. -/
def disguised : List Description.Call :=
  [.tokens ["$", "a", "$$"], .rule "S" ["S'", "$"], .rule "S'" ["a"], .rule "S'" []]

def disguisedGrammar : Grammar where
  tokens := ["$", "a", "$$"]
  nonterminals := ["S", "S'"]
  productions := [⟨0, [.nonterminal 1, .token 0]⟩, ⟨1, [.token 1]⟩, ⟨1, []⟩]
  byHead := ⟨[(0, [0]), (1, [1, 2])]⟩
  start := 0

theorem augmented_indexed_disguised :
    (disguisedGrammar.augmented 2).tokens = ["$", "a", "$$", "$$$", "$$$$"] ∧
      (disguisedGrammar.augmented 2).nonterminals = ["S", "S'", "S''", "S'''"] ∧
      (disguisedGrammar.augmented 2).Indexed ∧
      (disguisedGrammar.augmented 1).augment.Adds (disguisedGrammar.augmented 1) ∧
      (disguisedGrammar.augmented 2).Derives [.nonterminal 3] [.token 1, .token 0] := by
  have built : (Description.ofCalls disguised).build = .ok disguisedGrammar := by decide
  obtain ⟨indexed, _, _, adds, derives⟩ := augmented_indexed built 1
  refine ⟨by decide, by decide, indexed, adds, (derives [1, 0]).mpr ?_⟩
  exact .step [] [] 0 ⟨0, [.nonterminal 1, .token 0]⟩ _ rfl
    (.step [] [.token 0] 1 ⟨1, [.token 1]⟩ _ rfl (.refl _))

/-- The new token and the new start symbol are told apart by the last character of their names. -/
theorem Numbered.eofName_ne_startName (numbered : grammar.Numbered) :
    grammar.augment.grammar.tokenName grammar.augment.eof ≠
      grammar.augment.grammar.nonterminalName grammar.augment.grammar.start := by
  obtain ⟨dollars, eofName, _, _⟩ := numbered.adds.eofName
  obtain ⟨primes, startName, _, _⟩ := numbered.adds.startName
  obtain ⟨front, dollar⟩ := exists_marked_concat "$" dollars ""
  obtain ⟨longer, prime⟩ := exists_marked_concat "'" primes (grammar.nonterminalName grammar.start)
  intro same
  have ends : front ++ "$" = longer ++ "'" := by
    calc front ++ "$" = marked "$" dollars ("" ++ "$") := dollar.symm
      _ = grammar.augment.grammar.tokenName grammar.augment.eof := eofName.symm
      _ = grammar.augment.grammar.nonterminalName grammar.augment.grammar.start := same
      _ = marked "'" primes (grammar.nonterminalName grammar.start ++ "'") := startName
      _ = longer ++ "'" := prime
  have last := congrArg (fun name : String => name.toList.getLast?) ends
  simp at last

/-- Only a name that was there before can come to stand for symbols of both kinds: the one chosen for
the end of input if it is a nonterminal's, the one chosen for the new start if it is a token's. -/
theorem shared_name_iff {calls : List Description.Call}
    (built : (Description.ofCalls calls).build = .ok grammar) (name : String) :
    (name ∈ grammar.augment.grammar.tokens ∧ name ∈ grammar.augment.grammar.nonterminals) ↔
      (FirstFree grammar.tokens "$" "$" name ∧ name ∈ grammar.nonterminals) ∨
        (FirstFree grammar.nonterminals "'" (grammar.nonterminalName grammar.start ++ "'") name ∧
          name ∈ grammar.tokens) := by
  have numbered := Numbered.of_build built
  have adds := numbered.adds
  rw [augment_tokens, augment_nonterminals, List.mem_append, List.mem_append, List.mem_singleton,
    List.mem_singleton]
  constructor
  · rintro ⟨token | rfl, nonterminal | same⟩
    · rcases (Description.keeps_of_build built).apart name with none | none
      · exact absurd token (List.idxOf?_eq_none_iff.mp none)
      · exact absurd nonterminal (List.idxOf?_eq_none_iff.mp none)
    · exact .inr ⟨same ▸ adds.startName, token⟩
    · exact .inl ⟨adds.eofName, nonterminal⟩
    · exact absurd same numbered.eofName_ne_startName
  · rintro (⟨chosen, nonterminal⟩ | ⟨chosen, token⟩)
    · exact ⟨.inr (chosen.unique adds.eofName), .inl nonterminal⟩
    · exact ⟨.inl token, .inr (chosen.unique adds.startName)⟩

/-- A nonterminal named like the end of input, and a token named like the new start symbol. -/
def confused : List Description.Call := [.token "S'", .rule "S" ["$"], .rule "$" ["S'"]]

def confusedGrammar : Grammar where
  tokens := ["S'"]
  nonterminals := ["S", "$"]
  productions := [⟨0, [.nonterminal 1]⟩, ⟨1, [.token 0]⟩]
  byHead := ⟨[(0, [0]), (1, [1])]⟩
  start := 0

theorem shared_name_confused :
    ("$" ∈ confusedGrammar.augment.grammar.tokens ∧
        "$" ∈ confusedGrammar.augment.grammar.nonterminals) ∧
      ("S'" ∈ confusedGrammar.augment.grammar.tokens ∧
        "S'" ∈ confusedGrammar.augment.grammar.nonterminals) ∧
      confusedGrammar.augment.grammar.symbol? "$" = some (.token 1) ∧
      confusedGrammar.augment.grammar.symbolName (.nonterminal 1) = "$" := by
  have built : (Description.ofCalls confused).build = .ok confusedGrammar := by decide
  refine ⟨(shared_name_iff built "$").mpr (.inl ⟨⟨0, rfl, ?_, ?_⟩, by decide⟩),
    (shared_name_iff built "S'").mpr (.inr ⟨⟨0, rfl, ?_, ?_⟩, by decide⟩), by decide, by decide⟩
  · decide
  · exact fun fewer less => absurd less (Nat.not_lt_zero fewer)
  · decide
  · exact fun fewer less => absurd less (Nat.not_lt_zero fewer)

end Grammar

end ThreeAddress

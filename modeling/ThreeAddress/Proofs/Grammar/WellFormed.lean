import ThreeAddress.Grammar.Augmented
import ThreeAddress.Grammar.Description
import ThreeAddress.Item.Closure
import ThreeAddress.Proofs.Grammar.Tree

/-!
Grammars whose productions use only their own symbols. Every grammar that a description builds is of
this kind, and augmentation keeps it so.
-/

set_option autoImplicit false

namespace ThreeAddress

/-- The symbol has a number below the number of names of its kind. -/
def Grammar.Has (grammar : Grammar) : Symbol → Prop
  | .token id => id < grammar.tokens.length
  | .nonterminal id => id < grammar.nonterminals.length

/-- The numbers of the productions with the given head, in increasing order. -/
def headedBy (productions : List Production) (head : Nat) : List Nat :=
  (List.range productions.length).filter fun index =>
    (productions[index]?.map Production.head) == some head

/-- The productions use only symbols that the grammar has, and the index lists each of them with its
head. -/
structure Grammar.InRange (grammar : Grammar) : Prop where
  head_lt : ∀ production ∈ grammar.productions, production.head < grammar.nonterminals.length
  body_has : ∀ production ∈ grammar.productions, ∀ symbol ∈ production.body, grammar.Has symbol
  productionsOf_eq : ∀ head, grammar.productionsOf head = headedBy grammar.productions head

/-- The start symbol is one of the grammar's too, and each token of a body is the one found under its
name. -/
structure Grammar.WellFormed (grammar : Grammar) : Prop extends grammar.InRange where
  start_lt : grammar.start < grammar.nonterminals.length
  named : ∀ production ∈ grammar.productions, ∀ id, Symbol.token id ∈ production.body →
    grammar.token? (grammar.tokenName id) = some id

section Headed

theorem mem_headedBy {productions : List Production} {head index : Nat} :
    index ∈ headedBy productions head ↔
      productions[index]?.map Production.head = some head := by
  simp only [headedBy, List.mem_filter, List.mem_range, beq_iff_eq, and_iff_right_iff_imp]
  intro found
  obtain ⟨entry, at_index, _⟩ := Option.map_eq_some_iff.mp found
  exact (List.getElem?_eq_some_iff.mp at_index).1

theorem headedBy_pairwise (productions : List Production) (head : Nat) :
    (headedBy productions head).Pairwise (· < ·) :=
  List.pairwise_lt_range.filter _

/-- A production that comes last is listed last with its head, and changes no other list. -/
theorem headedBy_concat (productions : List Production) (last : Production) (head : Nat) :
    headedBy (productions ++ [last]) head =
      headedBy productions head ++ if last.head = head then [productions.length] else [] := by
  have earlier : ∀ index ∈ List.range productions.length,
      (((productions ++ [last])[index]?.map Production.head) == some head) =
        ((productions[index]?.map Production.head) == some head) := by
    intro index inside
    rw [List.getElem?_append_left (List.mem_range.mp inside)]
  rw [headedBy, List.length_append, List.length_singleton, List.range_succ, List.filter_append,
    List.filter_congr earlier, ← headedBy]
  congr 1
  by_cases same : last.head = head <;> simp [same]

/-- A nonterminal that no production can have heads none. -/
theorem headedBy_eq_nil {productions : List Production} {head : Nat}
    (apart : ∀ production ∈ productions, production.head ≠ head) : headedBy productions head = [] := by
  refine List.eq_nil_iff_forall_not_mem.mpr fun index member => ?_
  obtain ⟨production, found, headed⟩ := Option.map_eq_some_iff.mp (mem_headedBy.mp member)
  exact apart production (List.mem_of_getElem? found) headed

theorem Grammar.InRange.mem_productionsOf {grammar : Grammar} (inRange : grammar.InRange)
    {head index : Nat} :
    index ∈ grammar.productionsOf head ↔
      grammar.productions[index]?.map Production.head = some head := by
  rw [inRange.productionsOf_eq, mem_headedBy]

end Headed

namespace Description

variable {description : Description}

theorem resolveBody_ok {production : Nat} {names : List String} {symbols : List Symbol}
    (resolved : description.resolveBody production names = .ok symbols) :
    names.map description.symbol? = symbols.map some := by
  induction names generalizing symbols with
  | nil =>
      cases resolved
      rfl
  | cons name rest ih =>
      unfold resolveBody at resolved
      split at resolved
      · cases resolved
      · rename_i symbol known
        cases inner : description.resolveBody production rest with
        | error error =>
            rw [inner] at resolved
            cases resolved
        | ok others =>
            rw [inner] at resolved
            cases resolved
            rw [List.map_cons, List.map_cons, known, ih inner]

/-- The production of a rule: its head among the heads, and the symbols that its body names. -/
def Resolves (description : Description) (rule : RuleText) (production : Production) : Prop :=
  production.head = (description.heads.idxOf? rule.head).getD 0 ∧
    rule.body.map description.symbol? = production.body.map some

/-- What resolving a rule and the ones after it comes to. -/
theorem resolveRules_cons_ok {first : Nat} {index filled : HeadIndex} {rule : RuleText}
    {rest : List RuleText} {productions : List Production}
    (resolved : description.resolveRules first index (rule :: rest) = .ok (productions, filled)) :
    ∃ production others, productions = production :: others ∧
      description.Resolves rule production ∧
      description.resolveRules (first + 1) (index.push production.head first) rest =
        .ok (others, filled) := by
  unfold resolveRules at resolved
  cases bodyResult : description.resolveBody first rule.body with
  | error error =>
      rw [bodyResult] at resolved
      cases resolved
  | ok body =>
      rw [bodyResult] at resolved
      cases restResult : description.resolveRules (first + 1)
          (index.push ((description.heads.idxOf? rule.head).getD 0) first) rest with
      | error error =>
          simp only [restResult, bind, Except.bind, reduceCtorEq] at resolved
      | ok pair =>
          simp only [restResult, bind, Except.bind, pure, Except.pure] at resolved
          cases resolved
          exact ⟨_, pair.1, rfl, ⟨rfl, resolveBody_ok bodyResult⟩, restResult⟩

theorem resolveRules_ok {first : Nat} {before filled : HeadIndex} {rules : List RuleText}
    {productions : List Production}
    (resolved : description.resolveRules first before rules = .ok (productions, filled))
    (index : Nat) (production : Production) (found : productions[index]? = some production) :
    ∃ rule, rules[index]? = some rule ∧ description.Resolves rule production := by
  induction rules generalizing first before productions index with
  | nil =>
      cases resolved
      cases found
  | cons rule rest ih =>
      obtain ⟨head, others, rfl, resolves, later⟩ := resolveRules_cons_ok resolved
      cases index with
      | zero =>
          cases found
          exact ⟨rule, rfl, resolves⟩
      | succ index => exact ih later index found

/-- An index that lists the productions before some rules lists theirs too once they are resolved. -/
theorem get_of_resolveRules (earlier : List Production) {before filled : HeadIndex}
    {rules : List RuleText} {productions : List Production}
    (resolved : description.resolveRules earlier.length before rules = .ok (productions, filled))
    (listed : ∀ head, before.get head = headedBy earlier head) (head : Nat) :
    filled.get head = headedBy (earlier ++ productions) head := by
  induction rules generalizing earlier before productions with
  | nil =>
      cases resolved
      rw [List.append_nil, listed]
  | cons rule rest ih =>
      obtain ⟨production, others, rfl, _, later⟩ := resolveRules_cons_ok resolved
      rw [List.append_cons]
      refine ih (earlier ++ [production]) (by rwa [List.length_append, List.length_singleton])
        fun other => ?_
      rw [HeadIndex.get_push, listed, headedBy_concat]

/-- What a description that can be built has resolved to. -/
theorem build_ok {grammar : Grammar} (built : description.build = .ok grammar) :
    grammar.tokens = description.tokens ∧ grammar.nonterminals = description.heads ∧
      description.resolveRules 0 {} description.rules = .ok (grammar.productions, grammar.byHead) ∧
      ∃ name, description.heads.idxOf? name = some grammar.start := by
  unfold build at built
  split at built
  · cases built
  · split at built
    · cases built
    · rename_i first rest rules _ _
      cases resolved : description.resolveRules 0 {} description.rules with
      | error error =>
          rw [resolved] at built
          cases built
      | ok pair =>
          rw [resolved] at built
          simp only [bind, Except.bind] at built
          split at built
          · cases built
          · rename_i id start
            cases built
            exact ⟨rfl, rfl, rfl, _, start⟩

theorem symbol?_token {name : String} {id : Nat}
    (known : description.symbol? name = some (.token id)) :
    description.tokens.idxOf? name = some id := by
  unfold symbol? at known
  split at known
  · rename_i other found
    cases known
    exact found
  · simp at known

theorem symbol?_nonterminal {name : String} {id : Nat}
    (known : description.symbol? name = some (.nonterminal id)) :
    description.heads.idxOf? name = some id := by
  unfold symbol? at known
  split at known
  · cases known
  · simpa using known

theorem idxOf?_lt {names : List String} {name : String} {id : Nat}
    (found : names.idxOf? name = some id) : id < names.length :=
  (List.idxOf?_eq_some_iff.mp found).1

theorem getD_of_idxOf? {names : List String} {name : String} {id : Nat} (fallback : String)
    (found : names.idxOf? name = some id) : names.getD id fallback = name := by
  obtain ⟨bound, same, _⟩ := List.idxOf?_eq_some_iff.mp found
  rw [List.getD_eq_getElem?_getD, List.getElem?_eq_getElem bound, same, Option.getD_some]

/-- A name that a body of the description resolves to is a symbol of the grammar. -/
theorem Resolves.exists_name {rule : RuleText} {production : Production}
    (resolves : description.Resolves rule production) {symbol : Symbol}
    (member : symbol ∈ production.body) : ∃ name, description.symbol? name = some symbol := by
  have listed : some symbol ∈ rule.body.map description.symbol? := by
    rw [resolves.2]
    exact List.mem_map_of_mem member
  obtain ⟨name, _, known⟩ := List.mem_map.mp listed
  exact ⟨name, known⟩

/-- Only well-formed grammars are built. -/
theorem wellFormed_of_build {grammar : Grammar} (built : description.build = .ok grammar) :
    grammar.WellFormed := by
  obtain ⟨tokens, nonterminals, resolved, startName, start⟩ := build_ok built
  have each : ∀ production ∈ grammar.productions,
      ∃ rule ∈ description.rules, description.Resolves rule production := by
    intro production member
    obtain ⟨index, found⟩ := List.getElem?_of_mem member
    obtain ⟨rule, listed, resolves⟩ := resolveRules_ok resolved index production found
    exact ⟨rule, List.mem_of_getElem? listed, resolves⟩
  refine ⟨⟨?_, ?_, get_of_resolveRules [] resolved fun head => rfl⟩, ?_, ?_⟩
  · intro production member
    obtain ⟨rule, listed, resolves⟩ := each production member
    have head : rule.head ∈ description.heads :=
      List.mem_eraseDups.mpr (List.mem_map_of_mem listed)
    obtain ⟨id, found⟩ := Option.isSome_iff_exists.mp
      (List.isSome_idxOf?.mpr head)
    rw [nonterminals, resolves.1, found]
    exact idxOf?_lt found
  · intro production member symbol inBody
    obtain ⟨rule, _, resolves⟩ := each production member
    obtain ⟨name, known⟩ := resolves.exists_name inBody
    cases symbol with
    | token id =>
        change id < grammar.tokens.length
        rw [tokens]
        exact idxOf?_lt (symbol?_token known)
    | nonterminal id =>
        change id < grammar.nonterminals.length
        rw [nonterminals]
        exact idxOf?_lt (symbol?_nonterminal known)
  · rw [nonterminals]
    exact idxOf?_lt start
  · intro production member id inBody
    obtain ⟨rule, _, resolves⟩ := each production member
    obtain ⟨name, known⟩ := resolves.exists_name inBody
    have found := symbol?_token known
    rw [Grammar.token?, Grammar.tokenName, tokens, getD_of_idxOf? "$" found]
    exact found

end Description

namespace Grammar

/-- The construction over the augmented grammar. -/
def construction (grammar : Grammar) : Construction :=
  .ofGrammar grammar.augment.grammar grammar.augment.eof

variable {grammar : Grammar}

@[simp] theorem construction_eof (grammar : Grammar) :
    grammar.construction.eof = grammar.tokens.length := rfl

@[simp] theorem construction_tokens_length (grammar : Grammar) :
    grammar.construction.grammar.tokens.length = grammar.tokens.length + 1 := by
  simp [construction, Construction.ofGrammar, augment]

@[simp] theorem construction_nonterminals_length (grammar : Grammar) :
    grammar.construction.grammar.nonterminals.length = grammar.nonterminals.length + 1 := by
  simp [construction, Construction.ofGrammar, augment]

theorem construction_productions (grammar : Grammar) :
    grammar.construction.grammar.productions =
      grammar.productions ++ [⟨grammar.nonterminals.length, [.nonterminal grammar.start]⟩] := rfl

theorem mem_construction_productions {production : Production} :
    production ∈ grammar.construction.grammar.productions ↔ production ∈ grammar.productions ∨
      production = ⟨grammar.nonterminals.length, [.nonterminal grammar.start]⟩ := by
  rw [construction_productions, List.mem_append, List.mem_singleton]

/-- The production added last leads from the new start symbol to the old one. -/
theorem construction_last (grammar : Grammar) :
    grammar.construction.grammar.productions[grammar.productions.length]? =
      some ⟨grammar.nonterminals.length, [.nonterminal grammar.start]⟩ := by
  rw [construction_productions, List.getElem?_concat_length]

theorem construction_of_found {index : Nat} {production : Production}
    (found : grammar.productions[index]? = some production) :
    grammar.construction.grammar.productions[index]? = some production := by
  rw [construction_productions, List.getElem?_append_left (List.getElem?_eq_some_iff.mp found).1,
    found]

/-- Trees of a grammar are trees of the augmented grammar. -/
theorem Parses.construction {α : Type} {reads : α → Option Nat} {symbols : List Symbol}
    {trees : List (Tree α)} (parsed : grammar.Parses reads symbols trees) :
    grammar.construction.grammar.Parses reads symbols trees := by
  induction parsed with
  | nil => exact .nil
  | leaf token terminal symbols trees read _ ih => exact .leaf token terminal symbols trees read ih
  | node index production children symbols trees found _ _ bodyIh ih =>
      exact .node index production children symbols trees (construction_of_found found) bodyIh ih

namespace WellFormed

/-- The new production is listed with the new start symbol, which heads no other. -/
theorem construction_productionsOf (wellFormed : grammar.WellFormed) (head : Nat) :
    grammar.construction.grammar.productionsOf head =
      headedBy grammar.construction.grammar.productions head := by
  rw [construction_productions, headedBy_concat, ← wellFormed.productionsOf_eq]
  change (grammar.byHead.insert _ _).get head = _
  rw [HeadIndex.get_insert]
  split
  · rename_i same
    have unused : grammar.productionsOf head = [] := by
      rw [wellFormed.productionsOf_eq]
      refine headedBy_eq_nil fun production member => ?_
      have bound := wellFormed.head_lt production member
      omega
    rw [unused, List.nil_append]
  · exact (List.append_nil _).symm

theorem construction_inRange (wellFormed : grammar.WellFormed) :
    grammar.construction.grammar.InRange := by
  have start := wellFormed.start_lt
  refine ⟨?_, ?_, wellFormed.construction_productionsOf⟩
  · intro production member
    rw [construction_nonterminals_length]
    rcases mem_construction_productions.mp member with old | rfl
    · have bound := wellFormed.head_lt production old
      omega
    · exact Nat.lt_succ_self _
  · intro production member symbol inBody
    rcases mem_construction_productions.mp member with old | rfl
    · have known := wellFormed.body_has production old symbol inBody
      cases symbol with
      | token id =>
          change id < _ at known
          change id < _
          rw [construction_tokens_length]
          omega
      | nonterminal id =>
          change id < _ at known
          change id < _
          rw [construction_nonterminals_length]
          omega
    · rw [List.mem_singleton.mp inBody]
      change grammar.start < _
      rw [construction_nonterminals_length]
      omega

/-- No production mentions the new start symbol or the end of input. -/
theorem construction_body_has (wellFormed : grammar.WellFormed) {production : Production}
    (member : production ∈ grammar.construction.grammar.productions) {symbol : Symbol}
    (inBody : symbol ∈ production.body) : grammar.Has symbol := by
  rcases mem_construction_productions.mp member with old | rfl
  · exact wellFormed.body_has production old symbol inBody
  · rw [List.mem_singleton.mp inBody]
    exact wellFormed.start_lt

/-- A production of the augmented grammar is an old one, or the one of the new start symbol. -/
theorem construction_found (wellFormed : grammar.WellFormed) {index : Nat}
    {production : Production}
    (found : grammar.construction.grammar.productions[index]? = some production) :
    (grammar.productions[index]? = some production ∧
        production.head < grammar.nonterminals.length) ∨
      (index = grammar.productions.length ∧
        production = ⟨grammar.nonterminals.length, [.nonterminal grammar.start]⟩) := by
  rw [construction_productions] at found
  by_cases old : index < grammar.productions.length
  · rw [List.getElem?_append_left old] at found
    exact .inl ⟨found, wellFormed.head_lt production (List.mem_of_getElem? found)⟩
  · rw [List.getElem?_append_right (by omega)] at found
    have last := (List.getElem?_eq_some_iff.mp found).1
    have index_eq : index = grammar.productions.length := by
      simp only [List.length_singleton] at last
      omega
    subst index_eq
    rw [Nat.sub_self, List.getElem?_cons_zero] at found
    cases found
    exact .inr ⟨rfl, rfl⟩

theorem acceptProduction_eq (wellFormed : grammar.WellFormed) :
    grammar.construction.acceptProduction = grammar.productions.length := by
  have only : ∀ index, index ∈ grammar.construction.grammar.productionsOf
      grammar.construction.grammar.start ↔ index = grammar.productions.length := by
    intro index
    rw [wellFormed.construction_inRange.mem_productionsOf]
    constructor
    · intro headed
      obtain ⟨production, found, head⟩ := Option.map_eq_some_iff.mp headed
      rcases wellFormed.construction_found found with ⟨_, bound⟩ | ⟨last, _⟩
      · rw [head] at bound
        exact absurd bound (Nat.lt_irrefl _)
      · exact last
    · rintro rfl
      rw [construction_last]
      rfl
  unfold Construction.acceptProduction
  cases listed : grammar.construction.grammar.productionsOf
      grammar.construction.grammar.start with
  | nil =>
      have member := (only _).mpr rfl
      rw [listed] at member
      cases member
  | cons first rest =>
      exact (only first).mp (by rw [listed]; exact List.mem_cons_self)

end WellFormed

end Grammar

end ThreeAddress

import Mathlib.Data.List.Basic
import Mathlib.Data.List.Induction
import ThreeAddress.Proofs.Grammar.WellFormed

/-!
What a description that is put together call by call describes: which calls have no grammar and
which fault is reported for them, and for all others that the grammar keeps what the calls say.
-/

set_option autoImplicit false

namespace ThreeAddress

namespace Description

/-- A call on a description. -/
inductive Call where
  | token (name : String)
  | tokens (names : List String)
  | rule (head : String) (body : List String)
  | start (name : String)
deriving Repr, DecidableEq

namespace Call

def tokenNames : Call → List String
  | .token name => [name]
  | .tokens names => names
  | _ => []

def rule? : Call → Option RuleText
  | .rule head body => some ⟨head, body⟩
  | _ => none

def start? : Call → Option String
  | .start name => some name
  | _ => none

end Call

def call (description : Description) : Call → Description
  | .token name => description.token name
  | .tokens names => description.addTokens names
  | .rule head body => description.rule head body
  | .start name => description.startWith name

/-- The description that the calls put together, one after another. -/
def ofCalls (calls : List Call) : Description :=
  calls.foldl call {}

/-! What the calls say, with repetitions. -/

def declared (calls : List Call) : List String :=
  calls.flatMap Call.tokenNames

def ruled (calls : List Call) : List RuleText :=
  calls.filterMap Call.rule?

def headed (calls : List Call) : List String :=
  (ruled calls).map RuleText.head

/-- The start that the calls choose: that of the last start call, else the first head. -/
def chosen (calls : List Call) : Option String :=
  (calls.filterMap Call.start?).getLast?.or (headed calls).head?

def Knows (calls : List Call) (name : String) : Prop :=
  name ∈ declared calls ∨ name ∈ headed calls

/-- No head is a token. -/
def Apart (calls : List Call) : Prop :=
  ∀ name ∈ headed calls, name ∉ declared calls

/-- All names in the bodies of the rules are known. -/
def Defined (calls : List Call) (rules : List RuleText) : Prop :=
  ∀ rule ∈ rules, ∀ name ∈ rule.body, Knows calls name

/-- The name is the first unknown one of the rules, and stands in the rule of the given number. -/
def FirstUnknown (calls : List Call) (rules : List RuleText) (name : String) (production : Nat) :
    Prop :=
  ∃ before rule after, rules = before ++ rule :: after ∧ before.length = production ∧
    Defined calls before ∧ ∃ earlier later, rule.body = earlier ++ name :: later ∧
      (∀ other ∈ earlier, Knows calls other) ∧ ¬ Knows calls name

/-- The calls are refused with this error: it is the first of its kind, and there is none of the
kinds that are looked for before it. -/
def Refused (calls : List Call) : GrammarError → Prop
  | .noProductions => ruled calls = []
  | .nameConflict name =>
    ∃ before after, headed calls = before ++ name :: after ∧
      (∀ earlier ∈ before, earlier ∉ declared calls) ∧ name ∈ declared calls
  | .undefinedSymbol name production =>
    Apart calls ∧ FirstUnknown calls (ruled calls) name production
  | .undefinedStart name =>
    ruled calls ≠ [] ∧ Apart calls ∧ Defined calls (ruled calls) ∧ chosen calls = some name ∧
      name ∉ headed calls

/-- The calls describe a grammar. -/
structure Valid (calls : List Call) : Prop where
  ruled_ne : ruled calls ≠ []
  apart : Apart calls
  defined : Defined calls (ruled calls)
  start : ∃ name ∈ headed calls, chosen calls = some name

/-- The names that occur, each once, in the order in which they occur first. -/
structure Enumerates (names occurrences : List String) : Prop where
  mem_iff : ∀ name, name ∈ names ↔ name ∈ occurrences
  ordered : names.Pairwise fun left right => occurrences.idxOf left < occurrences.idxOf right

/-- The rule that a production is read back as. -/
def readBack (grammar : Grammar) (production : Production) : RuleText :=
  ⟨grammar.nonterminalName production.head, production.body.map grammar.symbolName⟩

/-- The grammar keeps all that the calls say. -/
structure Keeps (calls : List Call) (grammar : Grammar) : Prop where
  tokens : Enumerates grammar.tokens (declared calls)
  nonterminals : Enumerates grammar.nonterminals (headed calls)
  token?_iff : ∀ name id, grammar.token? name = some id ↔
    id < grammar.tokens.length ∧ grammar.tokenName id = name
  nonterminal?_iff : ∀ name id, grammar.nonterminal? name = some id ↔
    id < grammar.nonterminals.length ∧ grammar.nonterminalName id = name
  apart : ∀ name, grammar.token? name = none ∨ grammar.nonterminal? name = none
  inRange : grammar.InRange
  rules : grammar.productions.map (readBack grammar) = ruled calls
  increasing : ∀ head, (grammar.productionsOf head).Pairwise (· < ·)
  mem_productionsOf : ∀ head index, index ∈ grammar.productionsOf head ↔
    ∃ production, grammar.productions[index]? = some production ∧ production.head = head
  start_lt : grammar.start < grammar.nonterminals.length
  start : chosen calls = some (grammar.nonterminalName grammar.start)

section Names

theorem eraseDups_concat {α : Type} [DecidableEq α] (values : List α) (value : α) :
    (values ++ [value]).eraseDups =
      if value ∈ values then values.eraseDups else values.eraseDups ++ [value] := by
  rw [List.eraseDups_append]
  by_cases old : value ∈ values
  · simp [old, List.removeAll]
  · simp [old, List.removeAll, List.eraseDups_cons]

theorem enumerates_eraseDups (occurrences : List String) :
    Enumerates occurrences.eraseDups occurrences := by
  refine ⟨fun name => List.mem_eraseDups, ?_⟩
  induction occurrences using List.reverseRecOn with
  | nil => exact List.Pairwise.nil
  | append_singleton earlier name ih =>
      -- Names that occurred before keep their place, and a new one comes after all of them.
      have kept : earlier.eraseDups.Pairwise fun left right =>
          (earlier ++ [name]).idxOf left < (earlier ++ [name]).idxOf right := by
        apply ih.imp_of_mem
        intro left right inLeft inRight before
        rw [List.idxOf_append_of_mem (List.mem_eraseDups.mp inLeft),
          List.idxOf_append_of_mem (List.mem_eraseDups.mp inRight)]
        exact before
      rw [eraseDups_concat]
      by_cases old : name ∈ earlier
      · rwa [if_pos old]
      · rw [if_neg old, List.pairwise_append]
        refine ⟨kept, List.pairwise_singleton _ _, ?_⟩
        intro left inLeft right inRight
        rw [List.mem_singleton.mp inRight,
          List.idxOf_append_of_mem (List.mem_eraseDups.mp inLeft),
          List.idxOf_append_of_notMem old]
        have bound := List.idxOf_lt_length_of_mem (List.mem_eraseDups.mp inLeft)
        omega

theorem Enumerates.nodup {names occurrences : List String}
    (enumerates : Enumerates names occurrences) : names.Nodup := by
  apply enumerates.ordered.imp
  intro left right before same
  rw [same] at before
  exact Nat.lt_irrefl _ before

/-- Among names without repetitions a name and its number determine each other. -/
theorem idxOf?_eq_some_iff_getD {names : List String} (nodup : names.Nodup) (fallback name : String)
    (id : Nat) :
    names.idxOf? name = some id ↔ id < names.length ∧ names.getD id fallback = name := by
  constructor
  · intro found
    exact ⟨idxOf?_lt found, getD_of_idxOf? fallback found⟩
  · rintro ⟨bound, same⟩
    rw [List.getD_eq_getElem?_getD, List.getElem?_eq_getElem bound, Option.getD_some] at same
    apply List.idxOf?_eq_some_iff.mpr
    refine ⟨bound, same, ?_⟩
    intro earlier before equal
    have distinct := List.pairwise_iff_getElem.mp nodup earlier id (by omega) bound before
    exact distinct (equal.trans same.symm)

end Names

section Calls

theorem token_eraseDups (occurrences : List String) (rules : List RuleText) (start : Option String)
    (name : String) :
    token ⟨occurrences.eraseDups, rules, start⟩ name =
      ⟨(occurrences ++ [name]).eraseDups, rules, start⟩ := by
  rw [eraseDups_concat]
  by_cases old : name ∈ occurrences
  · simp [token, old]
  · simp [token, old]

theorem addTokens_eraseDups (occurrences names : List String) (rules : List RuleText)
    (start : Option String) :
    addTokens ⟨occurrences.eraseDups, rules, start⟩ names =
      ⟨(occurrences ++ names).eraseDups, rules, start⟩ := by
  unfold addTokens
  induction names generalizing occurrences with
  | nil => simp
  | cons name rest ih =>
      rw [List.foldl_cons, token_eraseDups, ih, List.append_assoc, List.singleton_append]

theorem declared_cons (first : Call) (rest : List Call) :
    declared (first :: rest) = first.tokenNames ++ declared rest :=
  List.flatMap_cons

theorem foldl_call (calls : List Call) (occurrences : List String) (rules : List RuleText)
    (start : Option String) :
    calls.foldl call ⟨occurrences.eraseDups, rules, start⟩ =
      ⟨(occurrences ++ declared calls).eraseDups, rules ++ ruled calls,
        (calls.filterMap Call.start?).getLast?.or start⟩ := by
  induction calls generalizing occurrences rules start with
  | nil => simp [declared, ruled]
  | cons first rest ih =>
      rw [List.foldl_cons, declared_cons, ← List.append_assoc, ruled, List.filterMap_cons,
        List.filterMap_cons, ← ruled]
      cases first with
      | token name =>
          rw [call, token_eraseDups, ih]
          rfl
      | tokens names =>
          rw [call, addTokens_eraseDups, ih]
          rfl
      | rule head body =>
          rw [call, rule, ih]
          simp [Call.tokenNames, Call.rule?, Call.start?]
      | start name =>
          rw [call, startWith, ih]
          simp [Call.tokenNames, Call.rule?, Call.start?, List.getLast?_cons]

/-- The description keeps each token once, the rules as they are and the last start. -/
theorem ofCalls_eq (calls : List Call) :
    ofCalls calls =
      ⟨(declared calls).eraseDups, ruled calls, (calls.filterMap Call.start?).getLast?⟩ := by
  have folded := foldl_call calls [] [] none
  rwa [List.nil_append, List.nil_append, Option.or_none] at folded

theorem ofCalls_tokens (calls : List Call) :
    (ofCalls calls).tokens = (declared calls).eraseDups := by
  rw [ofCalls_eq]

theorem ofCalls_rules (calls : List Call) : (ofCalls calls).rules = ruled calls := by
  rw [ofCalls_eq]

theorem ofCalls_heads (calls : List Call) : (ofCalls calls).heads = (headed calls).eraseDups := by
  rw [heads, ofCalls_rules]
  rfl

end Calls

section Faults

/-- The production of a rule whose names are all known. -/
def production (description : Description) (rule : RuleText) : Production :=
  ⟨(description.heads.idxOf? rule.head).getD 0, rule.body.filterMap description.symbol?⟩

/-- The first unknown name of the body. -/
def unknown? (description : Description) (body : List String) : Option String :=
  body.find? fun name => (description.symbol? name).isNone

/-- The first unknown name of the rules, the first of which has the given number. -/
def undefined? (description : Description) (first : Nat) (rules : List RuleText) :
    Option GrammarError :=
  (rules.zipIdx first).findSome? fun entry =>
    (description.unknown? entry.1.body).map (.undefinedSymbol · entry.2)

/-- The start that the description chooses. -/
def start? (description : Description) : Option String :=
  description.start.or (description.rules.map RuleText.head).head?

/-- The first fault in the order of the checks. -/
def fault? (description : Description) : Option GrammarError :=
  (if description.rules = [] then some .noProductions else none).or <|
    (description.clash?.map .nameConflict).or <|
      (description.undefined? 0 description.rules).or <|
        description.start?.bind fun name =>
          if name ∈ description.heads then none else some (.undefinedStart name)

variable (description : Description)

theorem resolveBody_eq (production : Nat) (names : List String) :
    description.resolveBody production names =
      match description.unknown? names with
      | some name => .error (.undefinedSymbol name production)
      | none => .ok (names.filterMap description.symbol?) := by
  unfold unknown?
  induction names with
  | nil => rfl
  | cons name rest ih =>
      cases known : description.symbol? name with
      | none => simp [resolveBody, known]
      | some symbol =>
          simp only [resolveBody, known, ih, List.find?_cons, Option.isNone_some,
            List.filterMap_cons]
          cases rest.find? fun name => (description.symbol? name).isNone with
          | none => rfl
          | some other => rfl

/-- The index after the productions, the first of which has the given number, are listed in it. -/
def pushAll (index : HeadIndex) (first : Nat) : List Production → HeadIndex
  | [] => index
  | production :: rest => pushAll (index.push production.head first) (first + 1) rest

theorem resolveRules_eq (first : Nat) (index : HeadIndex) (rules : List RuleText) :
    description.resolveRules first index rules =
      match description.undefined? first rules with
      | some error => .error error
      | none =>
        .ok (rules.map description.production,
          pushAll index first (rules.map description.production)) := by
  unfold undefined?
  induction rules generalizing first index with
  | nil => rfl
  | cons rule rest ih =>
      rw [resolveRules, resolveBody_eq, ih, List.zipIdx_cons, List.findSome?_cons]
      cases description.unknown? rule.body with
      | some name => rfl
      | none =>
          cases (rest.zipIdx (first + 1)).findSome? fun entry =>
              (description.unknown? entry.1.body).map (GrammarError.undefinedSymbol · entry.2) with
          | some error => rfl
          | none => rfl

/-- A description with a fault is answered by its first one, and any other by its grammar. -/
theorem build_cases :
    (∃ error, description.fault? = some error ∧ description.build = .error error) ∨
      description.fault? = none ∧ ∃ grammar, description.build = .ok grammar ∧
        ∃ name, description.start? = some name ∧
          description.heads.idxOf? name = some grammar.start := by
  unfold fault? build
  cases rules : description.rules with
  | nil => exact .inl ⟨_, rfl, rfl⟩
  | cons first rest =>
      have start : description.start? = some (description.start.getD first.head) := by
        rw [start?, rules]
        cases description.start with
        | none => rfl
        | some name => rfl
      rw [start, if_neg (List.cons_ne_nil first rest), Option.none_or]
      cases clash : description.clash? with
      | some name => exact .inl ⟨_, rfl, rfl⟩
      | none =>
          simp only [resolveRules_eq, Option.map_none, Option.none_or, Option.bind_some]
          cases description.undefined? 0 (first :: rest) with
          | some error => exact .inl ⟨_, rfl, rfl⟩
          | none =>
              cases found : description.heads.idxOf? (description.start.getD first.head) with
              | none =>
                  have absent := List.idxOf?_eq_none_iff.mp found
                  exact .inl ⟨_, by rw [if_neg absent]; rfl, rfl⟩
              | some id =>
                  have member := List.isSome_idxOf?.mp (Option.isSome_of_eq_some found)
                  exact .inr ⟨by rw [if_pos member]; rfl, _, rfl, _, rfl, found⟩

theorem build_eq_error_iff (error : GrammarError) :
    description.build = .error error ↔ description.fault? = some error := by
  rcases description.build_cases with ⟨fault, faulty, failed⟩ | ⟨sound, grammar, built, _⟩
  · rw [faulty, failed, Except.error.injEq, Option.some.injEq]
  · rw [sound, built]
    simp

theorem exists_build_iff :
    (∃ grammar, description.build = .ok grammar) ↔ description.fault? = none := by
  rcases description.build_cases with ⟨fault, faulty, failed⟩ | ⟨sound, grammar, built, _⟩
  · rw [faulty, failed]
    simp
  · exact ⟨fun _ => sound, fun _ => ⟨grammar, built⟩⟩

theorem start_of_build {grammar : Grammar} (built : description.build = .ok grammar) :
    ∃ name, description.start? = some name ∧
      description.heads.idxOf? name = some grammar.start := by
  rcases description.build_cases with ⟨_, _, failed⟩ | ⟨_, other, builtOther, start⟩
  · rw [failed] at built
    cases built
  · rw [builtOther] at built
    cases built
    exact start

end Faults

section Reported

variable (calls : List Call)

theorem isSome_symbol? (name : String) :
    ((ofCalls calls).symbol? name).isSome ↔ Knows calls name := by
  rw [symbol?, ofCalls_heads, ofCalls_tokens, Knows]
  cases found : (declared calls).eraseDups.idxOf? name with
  | some id =>
      have member := List.isSome_idxOf?.mp (Option.isSome_of_eq_some found)
      simp [List.mem_eraseDups.mp member]
  | none =>
      have absent := List.idxOf?_eq_none_iff.mp found
      rw [List.mem_eraseDups] at absent
      simp [absent]

theorem symbol?_eq_none_iff (name : String) :
    (ofCalls calls).symbol? name = none ↔ ¬ Knows calls name := by
  rw [← isSome_symbol?, Option.not_isSome_iff_eq_none]

theorem unknown?_eq_none_iff (body : List String) :
    (ofCalls calls).unknown? body = none ↔ ∀ name ∈ body, Knows calls name := by
  simp [unknown?, symbol?_eq_none_iff]

theorem unknown?_eq_some_iff (body : List String) (name : String) :
    (ofCalls calls).unknown? body = some name ↔
      ∃ earlier later, body = earlier ++ name :: later ∧
        (∀ other ∈ earlier, Knows calls other) ∧ ¬ Knows calls name := by
  rw [unknown?, List.find?_eq_some_iff_append, Option.isNone_iff_eq_none, symbol?_eq_none_iff]
  simp only [Bool.not_eq_true', Option.isNone_eq_false_iff, isSome_symbol?]
  constructor
  · rintro ⟨unknown, earlier, later, split, known⟩
    exact ⟨earlier, later, split, known, unknown⟩
  · rintro ⟨earlier, later, split, known, unknown⟩
    exact ⟨unknown, earlier, later, split, known⟩

theorem clash?_eq_none_iff : (ofCalls calls).clash? = none ↔ Apart calls := by
  simp [clash?, ofCalls_tokens, ofCalls_rules, Apart, headed]

theorem clash?_eq_some_iff (name : String) :
    (ofCalls calls).clash? = some name ↔ Refused calls (.nameConflict name) := by
  rw [clash?, ofCalls_rules, ofCalls_tokens, ← headed, List.find?_eq_some_iff_append]
  simp only [List.contains_eq_mem, decide_eq_true_eq, Bool.not_eq_true', decide_eq_false_iff_not,
    List.mem_eraseDups]
  constructor
  · rintro ⟨clash, before, after, split, clear⟩
    exact ⟨before, after, split, clear, clash⟩
  · rintro ⟨before, after, split, clear, clash⟩
    exact ⟨clash, before, after, split, clear⟩

theorem undefined?_eq_none_iff (first : Nat) (rules : List RuleText) :
    (ofCalls calls).undefined? first rules = none ↔ Defined calls rules := by
  simp only [undefined?, List.findSome?_eq_none_iff, Option.map_eq_none_iff,
    unknown?_eq_none_iff, Defined]
  constructor
  · intro defined rule member
    rw [← List.zipIdx_map_fst first rules] at member
    obtain ⟨entry, listed, rfl⟩ := List.mem_map.mp member
    exact defined entry listed
  · intro defined entry member
    exact defined entry.1 (List.fst_mem_of_mem_zipIdx member)

theorem undefined?_eq_some_iff (rules : List RuleText) (error : GrammarError) :
    (ofCalls calls).undefined? 0 rules = some error ↔
      ∃ name production, FirstUnknown calls rules name production ∧
        error = .undefinedSymbol name production := by
  rw [undefined?, List.findSome?_eq_some_iff]
  constructor
  · rintro ⟨_, entry, _, split, found, clear⟩
    obtain ⟨before, others, rfl, rfl, rest⟩ := List.zipIdx_eq_append_iff.mp split
    obtain ⟨rule, after, rfl, rfl, rfl⟩ := List.zipIdx_eq_cons_iff.mp rest.symm
    obtain ⟨name, first, rfl⟩ := Option.map_eq_some_iff.mp found
    have defined : Defined calls before :=
      (undefined?_eq_none_iff calls 0 before).mp (List.findSome?_eq_none_iff.mpr clear)
    have here := (unknown?_eq_some_iff calls rule.body name).mp first
    exact ⟨name, _, ⟨before, rule, after, rfl, (Nat.zero_add _).symm, defined, here⟩, rfl⟩
  · rintro ⟨name, _, ⟨before, rule, after, rfl, rfl, defined, here⟩, rfl⟩
    refine ⟨before.zipIdx, (rule, before.length), after.zipIdx (before.length + 1), ?_, ?_, ?_⟩
    · rw [List.zipIdx_append, List.zipIdx_cons, Nat.zero_add]
    · rw [(unknown?_eq_some_iff calls rule.body name).mpr here, Option.map_some]
    · exact List.findSome?_eq_none_iff.mp ((undefined?_eq_none_iff calls 0 before).mpr defined)

theorem start?_ofCalls : (ofCalls calls).start? = chosen calls := by
  rw [start?, ofCalls_eq]
  rfl

theorem fault?_eq_some_iff (error : GrammarError) :
    (ofCalls calls).fault? = some error ↔ Refused calls error := by
  rw [fault?, ofCalls_rules, start?_ofCalls, ofCalls_heads]
  simp only [Option.or_eq_some_iff, Option.map_eq_some_iff, Option.map_eq_none_iff,
    clash?_eq_some_iff, clash?_eq_none_iff, undefined?_eq_some_iff, undefined?_eq_none_iff,
    Option.bind_eq_some_iff, List.mem_eraseDups]
  cases error with
  | noProductions => simp [Refused]
  | nameConflict name =>
      have ruled_ne : Refused calls (.nameConflict name) → ruled calls ≠ [] := by
        rintro ⟨before, after, split, _⟩ empty
        simp [headed, empty] at split
      simpa using ruled_ne
  | undefinedSymbol name production =>
      have ruled_ne : FirstUnknown calls (ruled calls) name production → ruled calls ≠ [] := by
        rintro ⟨before, rule, after, split, _⟩ empty
        simp [empty] at split
      simpa [Refused] using fun _ => ruled_ne
  | undefinedStart name => simp [Refused]

theorem exists_chosen (ruled_ne : ruled calls ≠ []) : ∃ name, chosen calls = some name := by
  apply Option.ne_none_iff_exists'.mp
  simp [chosen, headed, ruled_ne]

theorem fault?_eq_none_iff : (ofCalls calls).fault? = none ↔ Valid calls := by
  rw [fault?, ofCalls_rules, start?_ofCalls, ofCalls_heads]
  simp only [Option.or_eq_none_iff, Option.map_eq_none_iff, clash?_eq_none_iff,
    undefined?_eq_none_iff, Option.bind_eq_none_iff, List.mem_eraseDups]
  constructor
  · rintro ⟨nonempty, apart, defined, start⟩
    have ruled_ne : ruled calls ≠ [] := by simpa using nonempty
    obtain ⟨name, chosen⟩ := exists_chosen calls ruled_ne
    exact ⟨ruled_ne, apart, defined, name, by simpa using start name chosen, chosen⟩
  · intro valid
    obtain ⟨name, member, start⟩ := valid.start
    refine ⟨if_neg valid.ruled_ne, valid.apart, valid.defined, ?_⟩
    intro other same
    rw [start] at same
    cases same
    exact if_pos member

end Reported

section Built

variable {calls : List Call} {description : Description} {grammar : Grammar}

theorem symbolName_of_symbol? (tokens : grammar.tokens = description.tokens)
    (nonterminals : grammar.nonterminals = description.heads) {name : String} {symbol : Symbol}
    (known : description.symbol? name = some symbol) : grammar.symbolName symbol = name := by
  cases symbol with
  | token id =>
      rw [Grammar.symbolName, Grammar.tokenName, tokens]
      exact getD_of_idxOf? "$" (symbol?_token known)
  | nonterminal id =>
      rw [Grammar.symbolName, Grammar.nonterminalName, nonterminals]
      exact getD_of_idxOf? "?" (symbol?_nonterminal known)

theorem map_symbolName (tokens : grammar.tokens = description.tokens)
    (nonterminals : grammar.nonterminals = description.heads) (body : List String)
    (known : ∀ name ∈ body, (description.symbol? name).isSome) :
    (body.filterMap description.symbol?).map grammar.symbolName = body := by
  induction body with
  | nil => rfl
  | cons name rest ih =>
      obtain ⟨symbol, found⟩ := Option.isSome_iff_exists.mp (known name List.mem_cons_self)
      rw [List.filterMap_cons_some found, List.map_cons,
        symbolName_of_symbol? tokens nonterminals found,
        ih fun other member => known other (List.mem_cons_of_mem name member)]

theorem readBack_production (tokens : grammar.tokens = description.tokens)
    (nonterminals : grammar.nonterminals = description.heads) {rule : RuleText}
    (listed : rule ∈ description.rules)
    (known : ∀ name ∈ rule.body, (description.symbol? name).isSome) :
    readBack grammar (description.production rule) = rule := by
  have head : rule.head ∈ description.heads :=
    List.mem_eraseDups.mpr (List.mem_map_of_mem listed)
  obtain ⟨id, found⟩ := Option.isSome_iff_exists.mp (List.isSome_idxOf?.mpr head)
  rw [readBack, production, map_symbolName tokens nonterminals rule.body known, found,
    Option.getD_some, Grammar.nonterminalName, nonterminals, getD_of_idxOf? "?" found]

theorem keeps_of_build (built : (ofCalls calls).build = .ok grammar) : Keeps calls grammar := by
  have wellFormed := wellFormed_of_build built
  have valid := (fault?_eq_none_iff calls).mp ((exists_build_iff _).mp ⟨grammar, built⟩)
  obtain ⟨tokens, nonterminals, resolved, _⟩ := build_ok built
  have productions : grammar.productions = (ruled calls).map (ofCalls calls).production := by
    rw [resolveRules_eq, ofCalls_rules, (undefined?_eq_none_iff calls 0 _).mpr valid.defined]
      at resolved
    exact (congrArg Prod.fst (Except.ok.inj resolved)).symm
  have tokens_enumerate : Enumerates grammar.tokens (declared calls) := by
    rw [tokens, ofCalls_tokens]
    exact enumerates_eraseDups _
  have nonterminals_enumerate : Enumerates grammar.nonterminals (headed calls) := by
    rw [nonterminals, ofCalls_heads]
    exact enumerates_eraseDups _
  refine
    { tokens := tokens_enumerate
      nonterminals := nonterminals_enumerate
      token?_iff := idxOf?_eq_some_iff_getD tokens_enumerate.nodup "$"
      nonterminal?_iff := idxOf?_eq_some_iff_getD nonterminals_enumerate.nodup "?"
      apart := ?_
      inRange := wellFormed.toInRange
      rules := ?_
      increasing := ?_
      mem_productionsOf := ?_
      start_lt := wellFormed.start_lt
      start := ?_ }
  · intro name
    by_cases isToken : name ∈ declared calls
    · apply Or.inr
      apply List.idxOf?_eq_none_iff.mpr
      intro isHead
      exact valid.apart name ((nonterminals_enumerate.mem_iff name).mp isHead) isToken
    · apply Or.inl
      apply List.idxOf?_eq_none_iff.mpr
      rwa [tokens_enumerate.mem_iff]
  · rw [productions, List.map_map]
    conv_rhs => rw [← List.map_id (ruled calls)]
    apply List.map_congr_left
    intro rule listed
    apply readBack_production tokens nonterminals
    · rwa [ofCalls_rules]
    · intro name member
      exact (isSome_symbol? calls name).mpr (valid.defined rule listed name member)
  · intro head
    rw [wellFormed.productionsOf_eq]
    exact headedBy_pairwise _ _
  · intro head index
    rw [wellFormed.mem_productionsOf, Option.map_eq_some_iff]
  · obtain ⟨name, start, found⟩ := start_of_build _ built
    rw [← start?_ofCalls, start, Grammar.nonterminalName, nonterminals, getD_of_idxOf? "?" found]

end Built

/-- Building answers every sequence of calls with its first fault, if there is one, and else with a
grammar that keeps what the calls say. -/
theorem build_keeps (calls : List Call) :
    (∀ error, (ofCalls calls).build = .error error ↔ Refused calls error) ∧
      ((∃ grammar, (ofCalls calls).build = .ok grammar) ↔ Valid calls) ∧
      ∀ grammar, (ofCalls calls).build = .ok grammar → Keeps calls grammar := by
  refine ⟨?_, ?_, ?_⟩
  · intro error
    rw [build_eq_error_iff, fault?_eq_some_iff]
  · rw [exists_build_iff, fault?_eq_none_iff]
  · intro grammar built
    exact keeps_of_build built

/-- Tokens declared again, names used before their rules and a start chosen twice. -/
def sums : List Call :=
  [.tokens ["+", "id", "+"], .rule "E" ["E", "+", "T"], .start "T", .token "id", .rule "E" ["T"],
    .token "(", .rule "T" ["id"], .start "E"]

def sumsGrammar : Grammar where
  tokens := ["+", "id", "("]
  nonterminals := ["E", "T"]
  productions :=
    [⟨0, [.nonterminal 0, .token 0, .nonterminal 1]⟩, ⟨0, [.nonterminal 1]⟩, ⟨1, [.token 1]⟩]
  byHead := ⟨[(0, [0, 1]), (1, [2])]⟩
  start := 0

theorem build_keeps_sums : (ofCalls sums).build = .ok sumsGrammar ∧ Keeps sums sumsGrammar :=
  ⟨by decide, (build_keeps sums).2.2 sumsGrammar (by decide)⟩

end Description

end ThreeAddress

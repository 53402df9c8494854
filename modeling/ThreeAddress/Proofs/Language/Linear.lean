import ThreeAddress.Proofs.Language.Compiled
import ThreeAddress.Proofs.Language.Preservation
import ThreeAddress.Proofs.Language.Resolved
import ThreeAddress.Proofs.Meaning.Linear

/-!
Temporaries in the code of an accepted source. Each of them is computed once and used once, and none
of them is the address of a symbol.
-/

set_option autoImplicit false

namespace ThreeAddress

/-- Different temporaries with numbers below a count. -/
def Handed (count : Nat) (names : List String) : Prop :=
  names.Nodup ∧ ∀ name ∈ names, ∃ number < count, name = temporary number

theorem Handed.next {count : Nat} {names others : List String} (handed : Handed count names)
    (more : others.Perm (temporary count :: names)) : Handed (count + 1) others := by
  obtain ⟨nodup, drawn⟩ := handed
  have unused : temporary count ∉ names := by
    intro member
    obtain ⟨number, small, same⟩ := drawn _ member
    exact Nat.ne_of_gt small (temporary_injective same)
  refine ⟨more.nodup_iff.mpr (List.nodup_cons.mpr ⟨unused, nodup⟩), ?_⟩
  intro name member
  rcases List.mem_cons.mp (more.mem_iff.mp member) with rfl | old
  · exact ⟨count, Nat.lt_succ_self count, rfl⟩
  · obtain ⟨number, small, same⟩ := drawn name old
    exact ⟨number, Nat.lt_succ_of_lt small, same⟩

namespace Translator

/-- The temporaries that operators compute into, and those that were the address of a symbol. -/
def taken (translator : Translator) : List String :=
  computedOf translator.code.toList ++ (definedOf translator.log).map SymbolEntry.addr

/-- Each temporary was handed out for one purpose, and the symbols are among those once defined. -/
structure Apart (translator : Translator) : Prop where
  handed : Handed translator.symbols.temporaries translator.taken
  listed : translator.symbols.entries ⊆ definedOf translator.log

namespace Apart

variable {translator after : Translator}

theorem first : Translator.first.Apart := by
  constructor
  · simp [Handed, taken, Translator.first, computedOf, definedOf]
  · simp [Translator.first, SymbolTable.enter]

/-- What takes no temporary and defines nothing keeps them apart. -/
theorem of_same (apart : translator.Apart)
    (code : computedOf after.code.toList = computedOf translator.code.toList)
    (log : definedOf after.log = definedOf translator.log)
    (temporaries : after.symbols.temporaries = translator.symbols.temporaries)
    (entries : after.symbols.entries ⊆ translator.symbols.entries) : after.Apart := by
  constructor
  · rw [taken, code, log, temporaries]
    exact apart.handed
  · rw [log]
    exact List.Subset.trans entries apart.listed

/-- An operator takes the next temporary. -/
theorem compute (apart : translator.Apart) {instruction : Instruction}
    (computes : instruction.computed? = some translator.symbols.fresh.1) :
    ({ translator with symbols := translator.symbols.fresh.2 }.append instruction).Apart := by
  constructor
  · refine apart.handed.next ?_
    simp only [taken, append, Array.toList_push, computedOf_append, computedOf_cons, computedOf_nil,
      computes, definedOf_push, Event.entry?, Option.toList_none, Option.toList_some,
      List.append_nil, List.append_assoc]
    exact List.perm_middle
  · simp only [append, definedOf_push, Event.entry?, Option.toList_none, List.append_nil]
    exact apart.listed

/-- A declaration takes the next temporary, or none if its name is known. -/
theorem declare (apart : translator.Apart) (name : String) (size pos : Nat) :
    (translator.declare name size pos).Apart := by
  unfold Translator.declare SymbolTable.defineData SymbolTable.insert
  cases translator.symbols.lookup name with
  | some holder => exact apart.of_same rfl (by simp [Event.entry?]) rfl (List.Subset.refl _)
  | none =>
      constructor
      · refine apart.handed.next ?_
        simp only [taken, definedOf_push, Event.entry?, Option.toList_some, List.map_append,
          List.map_singleton, ← List.append_assoc]
        exact List.perm_append_singleton _ _
      · simp only [definedOf_push, Event.entry?, Option.toList_some]
        exact List.append_subset.mpr ⟨List.subset_append_of_subset_left _ apart.listed,
          List.subset_append_right _ _⟩

/-- An action keeps them apart. -/
theorem act (apart : translator.Apart) {action : Semantic} {stack : List Attribute} {pos : Nat}
    {head : Attribute} (leaves : Reduction.Leaves stack pos translator action head after) :
    after.Apart := by
  cases leaves with
  | decl name found => exact apart.declare _ _ _
  | declArray name size found => exact apart.declare _ _ _
  | binary op lhs rhs => exact apart.compute rfl
  | unary op src => exact apart.compute rfl
  | nestedBlock =>
      exact apart.of_same rfl rfl translator.symbols.exit_temporaries
        translator.symbols.exit_entries_sublist.subset
  | _ =>
      refine apart.of_same ?_ ?_ rfl (List.Subset.refl _)
      · simp [append, addLabel, computedOf_cons, Instruction.computed?]
      · simp [append, addLabel, Event.entry?]

/-- One step keeps them apart. -/
theorem of_moves {table : ParseTable} {actions : Array Semantic} {config next : Config}
    (apart : config.translator.Apart) (moves : Config.Moves table actions config next) :
    next.translator.Apart := by
  have logged : ∀ action, (config.logged table action).Apart := fun action =>
    apart.of_same rfl (by simp [Config.logged, record, Event.entry?]) rfl (List.Subset.refl _)
  cases moves with
  | shift state lookahead input asked fetched => exact logged _
  | reduce index production head translator target asked found ran enters =>
      exact (logged _).act (Reduction.leaves_of_run ran)

end Apart

end Translator

namespace Language

/-- The program of an accepted source has no place that is spelled like a temporary, if no
identifier of the source is. -/
theorem plain_program {grammar : Grammar} (described : description.build = .ok grammar)
    {source : String} {outcome : Outcome} {compiled : Compiled} {tree : Tree Token}
    (accepts : Accepts grammar ruleActions source outcome compiled tree) {program : Stmt}
    (read : Stmt.read (tree.map Token.text) = some program)
    (plain : ∀ token ∈ (Scan.ofString source).tokens, token.kind = .ident →
      isTemporary token.text = false) : program.Plain := by
  obtain ⟨unread, tokens⟩ := accepts.tokens
  have known : ∀ token ∈ [tree].flatMap Tree.leaves,
      ∃ id, (ParseTable.ofGrammar grammar).terminal? token = some id ∧ True :=
    accepts.parses.read_of_mem (fun _ _ _ _ => trivial) (fun _ _ => trivial)
  rw [List.flatMap_singleton] at known
  refine Stmt.plain_of_read ?_ read
  intro text member
  rw [Tree.leaves_map] at member
  obtain ⟨token, listed, rfl⟩ := List.mem_map.mp member
  obtain ⟨id, found, _⟩ := known token listed
  have inside : token ∈ (Scan.ofString source).tokens := by
    rw [tokens]
    exact List.mem_append_left unread listed
  exact isTemporary_of_terminal? described (Scan.spells_of_mem_ofString inside) found
    (plain token inside)

/-- What operators compute into are different temporaries, none of them the address of a symbol now
or before, and each of them is used once, after it was computed, if no identifier of the source is
spelled like one. -/
theorem accepted_linear {language : Language} (built : build = .ok language) {source : String}
    {outcome : Outcome} {compiled : Compiled}
    (halts : language.table.Halts language.actions source outcome)
    (accepted : outcome.verdict = .accepted compiled)
    (plain : ∀ token ∈ (Scan.ofString source).tokens, token.kind = .ident →
      isTemporary token.text = false) :
    (computedOf compiled.code.toList).Nodup ∧
      (∀ entry ∈ compiled.symbols.entries, entry.addr ∉ computedOf compiled.code.toList) ∧
      (∀ entry ∈ definedOf outcome.log, entry.addr ∉ computedOf compiled.code.toList) ∧
      ∀ name ∈ computedOf compiled.code.toList, UsedOnce compiled.code.toList name := by
  obtain ⟨grammar, described, rfl⟩ := build_ok built
  have wellFormed := Description.wellFormed_of_build described
  obtain ⟨tree, accepts⟩ := halts.accepts wellFormed accepted
  obtain ⟨program, read, _, translator, finished, holds⟩ := exists_program described accepts
  have code : compiled.code.toList = program.code [] .first := by
    rw [finished]
    exact holds.code_eq
  have linear := program.linear (plain_program described accepts read plain) [] .first []
  rw [← code] at linear
  -- The same code stands at the end of the run, where temporaries and addresses are apart.
  obtain ⟨lookahead, input, last, _, reaches, step⟩ := halts.reaches accepted
  have apart : last.translator.Apart :=
    reaches.keeps (fun config next apart moves => Translator.Apart.of_moves apart moves)
      Translator.Apart.first
  have defined := Config.definedOf_of_accept step accepted
  obtain ⟨_, rfl, _⟩ := Config.accepted_of_step step accepted
  obtain ⟨⟨nodup, drawn⟩, listed⟩ := apart
  obtain ⟨once, _, separate⟩ := List.nodup_append.mp nodup
  have others : ∀ entry ∈ definedOf last.translator.log,
      entry.addr ∉ computedOf last.translator.code.toList := by
    intro entry member shared
    exact separate _ shared _ (List.mem_map_of_mem member) rfl
  refine ⟨once, fun entry member => others entry (listed member), defined ▸ others, ?_⟩
  intro name member
  obtain ⟨number, _, rfl⟩ := drawn name (List.mem_append_left _ member)
  exact linear.usedOnce once (isTemporary_temporary number) member

/-- A comparison that is tested, and a negation that is assigned. -/
def negating : String := "\x7b int a; if (a < 1) a = -a; \x7d"

theorem accepted_linear_negating :
    ∃ language outcome compiled, build = .ok language ∧
      language.table.Halts language.actions negating outcome ∧
      outcome.verdict = .accepted compiled ∧
      (∀ token ∈ (Scan.ofString negating).tokens, token.kind = .ident →
        isTemporary token.text = false) ∧
      compiled.code.toList =
        [.binary "t1" .lt "a" "1", .ifFalse "t1" ⟨0⟩, .unary "t2" .neg "a", .copy "a" "t2",
          .label ⟨0⟩] ∧
      compiled.symbols.entries.map SymbolEntry.addr = ["t0"] ∧
      (computedOf compiled.code.toList).Nodup ∧
      (∀ entry ∈ compiled.symbols.entries, entry.addr ∉ computedOf compiled.code.toList) ∧
      (∀ entry ∈ definedOf outcome.log, entry.addr ∉ computedOf compiled.code.toList) ∧
      ∀ name ∈ computedOf compiled.code.toList, UsedOnce compiled.code.toList name := by
  have ran : Direct.compile? construction (ParseTable.ofGrammar grammar).terminal?
      (rules.map Rule.action).toArray 60 negating =
      some ⟨#[.binary "t1" .lt "a" "1", .ifFalse "t1" ⟨0⟩, .unary "t2" .neg "a", .copy "a" "t2",
          .label ⟨0⟩],
        ⟨[⟨"a", .var, 1, "t0", 0, "int", 6⟩], 1, 3⟩, #[]⟩ := by
    decide +kernel
  have plain : ∀ token ∈ (Scan.ofString negating).tokens, token.kind = .ident →
      isTemporary token.text = false := by decide +kernel
  obtain ⟨language, outcome, built, halts, accepted⟩ := accepted_of_compile? ran
  exact ⟨language, outcome, _, built, halts, accepted, plain, rfl, rfl,
    accepted_linear built halts accepted plain⟩

end Language

end ThreeAddress

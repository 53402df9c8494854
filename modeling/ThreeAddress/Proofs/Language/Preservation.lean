import ThreeAddress.Proofs.Language.Emission
import ThreeAddress.Proofs.Meaning.Simulation

/-!
Translation preserves meaning: the code of an accepted source does what the program in its syntax
tree does.
-/

set_option autoImplicit false

namespace ThreeAddress

theorem isTemporary_of_head {text : String} {first : Char} {rest : List Char}
    (spelled : text.toList = first :: rest) (other : first ≠ 't') : isTemporary text = false := by
  unfold isTemporary
  rw [spelled]
  split
  · rename_i same
    exact absurd (List.cons.inj same).1 other
  · rfl

namespace Language

variable {grammar : Grammar}

/-- Among the tokens that are read, only identifiers can be spelled like temporaries. -/
theorem isTemporary_of_terminal? (described : description.build = .ok grammar) {token : Token}
    {id : Nat} (spells : token.kind.Spells token.text.toList)
    (known : (ParseTable.ofGrammar grammar).terminal? token = some id)
    (plain : token.kind = .ident → isTemporary token.text = false) :
    isTemporary token.text = false := by
  obtain ⟨kind, text, start⟩ := token
  have listed : ∀ words : List String, (∀ word ∈ words, isTemporary word = false) →
      String.ofList text.toList ∈ words → isTemporary text = false := by
    intro words fine member
    rw [String.ofList_toList] at member
    exact fine text member
  cases kind with
  | eof => exact False.elim spells
  | ident => exact plain rfl
  | number =>
      obtain ⟨first, rest, spelled, digit⟩ := spells
      refine isTemporary_of_head spelled ?_
      rintro rfl
      exact absurd digit (by decide)
  | real =>
      obtain ⟨first, rest, spelled, digit⟩ := spells
      refine isTemporary_of_head spelled ?_
      rintro rfl
      exact absurd digit (by decide)
  | reserved => exact listed Token.reservedWords (by decide +kernel) spells
  | typeName => exact listed Token.typeNames (by decide +kernel) spells
  | operator =>
      obtain ⟨first, rest, spelled, operator⟩ := spells
      refine isTemporary_of_head spelled ?_
      rintro rfl
      exact absurd operator (by decide)
  | delimiter =>
      obtain ⟨first, spelled, delimiter⟩ := spells
      refine isTemporary_of_head spelled ?_
      rintro rfl
      exact absurd delimiter (by decide)
  | str =>
      -- A string literal is read only if it spells a terminal.
      have found : (ParseTable.ofGrammar grammar).grammar.tokens.idxOf? text = some id := known
      have member : text ∈ (ParseTable.ofGrammar grammar).grammar.tokens :=
        List.isSome_idxOf?.mp (by rw [found, Option.isSome_some])
      rw [eofName_of_build described] at member
      have fine : ∀ word ∈ terminals ++ ["$"], isTemporary word = false := by decide +kernel
      exact fine text member

/-- Translation preserves meaning. If a source is accepted and none of its identifiers is spelled
like a temporary, the reductions show a tree with a program, and for every meaning of operators and
every store that program ends exactly if the code runs off its end. The stores at the end differ on
temporaries only. -/
theorem accepted_preserves {language : Language} (built : build = .ok language) {source : String}
    {outcome : Outcome} {compiled : Compiled}
    (halts : language.table.Halts language.actions source outcome)
    (accepted : outcome.verdict = .accepted compiled)
    (plain : ∀ token ∈ (Scan.ofString source).tokens, token.kind = .ident →
      isTemporary token.text = false) :
    ∃ (tree : Tree String) (program : Stmt),
      outcome.trees language.table.grammar = [tree] ∧
      Stmt.read tree = some program ∧
      ∀ (V : Type) (meaning : Meaning V) (store : Store V),
        ((∃ final, program.Runs meaning store .normal final) ↔
          ∃ final, Machine.Ends meaning compiled.code.toList store final) ∧
        ∀ final memory, program.Runs meaning store .normal final →
          Machine.Ends meaning compiled.code.toList store memory →
          ∀ place, isTemporary place = false → final place = memory place := by
  obtain ⟨grammar, described, rfl⟩ := build_ok built
  have wellFormed := Description.wellFormed_of_build described
  obtain ⟨tree, accepts⟩ := halts.accepts wellFormed accepted
  obtain ⟨unread, tokens⟩ := accepts.tokens
  have read : ∀ token ∈ [tree].flatMap Tree.leaves,
      ∃ id, (ParseTable.ofGrammar grammar).terminal? token = some id ∧ True :=
    accepts.parses.read_of_mem (fun _ _ _ _ => trivial) (fun _ _ => trivial)
  have leaves : ∀ token ∈ [tree].flatMap Tree.leaves, isTemporary token.text = false := by
    intro token member
    obtain ⟨id, known, _⟩ := read token member
    rw [List.flatMap_singleton] at member
    have inside : token ∈ (Scan.ofString source).tokens := by
      rw [tokens]
      exact List.mem_append_left unread member
    exact isTemporary_of_terminal? described (Scan.spells_of_mem_ofString inside) known
      (plain token inside)
  have shaped := shaped_of_parses described accepts.parses
  rw [List.map_singleton, start_role described] at shaped
  rcases shaped.meets leaves with _ | ⟨⟨program, executes⟩, _⟩
  obtain ⟨attributes, translator, walk, rfl⟩ := accepts.walk
  have first : Translator.first.Holds [] .first [] := ⟨rfl, rfl, rfl⟩
  obtain ⟨nested, _, _, holds, done⟩ := executes.walk first walk
  obtain ⟨_, holds⟩ := done.of_nil holds
  refine ⟨tree.map Token.text, program, accepts.trees, executes.read, ?_⟩
  intro V meaning store
  have code : translator.finish.code.toList = program.code [] .first := holds.code_eq
  rw [code]
  exact program.ends_iff_runs .first executes.plain nested meaning store

/-- A loop that is left at once, and its code. -/
theorem accepted_preserves_loop :
    ∃ language outcome compiled, build = .ok language ∧
      language.table.Halts language.actions "\x7b while (a) break; \x7d" outcome ∧
      outcome.verdict = .accepted compiled ∧
      compiled.code.toList =
        [.label ⟨0⟩, .ifFalse "a" ⟨1⟩, .goto ⟨1⟩, .goto ⟨0⟩, .label ⟨1⟩] ∧
      ∃ (tree : Tree String) (program : Stmt),
        outcome.trees language.table.grammar = [tree] ∧
        Stmt.read tree = some program ∧
        ∀ (V : Type) (meaning : Meaning V) (store : Store V),
          ((∃ final, program.Runs meaning store .normal final) ↔
            ∃ final, Machine.Ends meaning compiled.code.toList store final) ∧
          ∀ final memory, program.Runs meaning store .normal final →
            Machine.Ends meaning compiled.code.toList store memory →
            ∀ place, isTemporary place = false → final place = memory place := by
  have ran : Direct.compile? construction (ParseTable.ofGrammar grammar).terminal?
      (rules.map Rule.action).toArray 40 "\x7b while (a) break; \x7d" =
      some ⟨#[.label ⟨0⟩, .ifFalse "a" ⟨1⟩, .goto ⟨1⟩, .goto ⟨0⟩, .label ⟨1⟩], ⟨[], 1, 0⟩, #[]⟩ := by
    decide +kernel
  obtain ⟨language, outcome, built, halts, accepted⟩ := accepted_of_compile? ran
  exact ⟨language, outcome, _, built, halts, accepted, rfl,
    accepted_preserves built halts accepted (by decide +kernel)⟩

end Language

end ThreeAddress

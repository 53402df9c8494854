import ThreeAddress.Proofs.Language.Evaluation
import ThreeAddress.Proofs.Language.Inversion
import ThreeAddress.Proofs.Run.Stop
import ThreeAddress.Proofs.SymbolTable
import ThreeAddress.Proofs.Text.Position
import ThreeAddress.Proofs.Token.Tiling
import ThreeAddress.Report

/-!
Where the byte offsets in a result come from. A run takes them from the tokens, from the lexical error
and from the length of the source, hands them on through attributes and the lookahead, and never
computes a new one. So they are boundaries between characters, and their lines and columns are exact.
-/

set_option autoImplicit false

namespace ThreeAddress

/-- The byte offsets in what becomes of a source: of the symbols and the diagnostics of a compiled
program, or of an error. -/
def Verdict.positions : Verdict → List Nat
  | .accepted compiled =>
    compiled.symbols.entries.map SymbolEntry.pos ++ compiled.diagnostics.toList.map Diagnostic.pos
  | .rejected error => error.pos?.toList
  | .faulted _ => []

/-- The offsets at which the items of a scan stand. -/
structure Scan.Located (known : Nat → Prop) (scan : Scan) : Prop where
  tokens : ∀ token ∈ scan.tokens, known token.start
  error : ∀ error, scan.error = some error → known error.pos
  length : known scan.length

def Attribute.Located (known : Nat → Prop) (held : Attribute) : Prop :=
  ∀ start, held.start? = some start → known start

structure Translator.Located (known : Nat → Prop) (translator : Translator) : Prop where
  entries : ∀ entry ∈ translator.symbols.entries, known entry.pos
  diagnostics : ∀ diagnostic ∈ translator.diagnostics.toList, known diagnostic.pos

/-- All offsets in a configuration are known. -/
structure Config.Located (known : Nat → Prop) (config : Config) : Prop where
  lookahead : known config.lookahead.start
  input : config.input.Located known
  attributes : ∀ held ∈ config.attributes, held.Located known
  translator : config.translator.Located known

theorem popAbove_suffix {α : Type} (count : Nat) (stack : List α) :
    popAbove count stack <:+ stack := by
  induction count generalizing stack with
  | zero => rw [popAbove_zero]
  | succ count ih =>
      match stack with
      | [] => exact List.suffix_rfl
      | [_] => exact List.suffix_rfl
      | first :: next :: rest => exact (ih (next :: rest)).trans (List.suffix_cons first _)

variable {known : Nat → Prop}

namespace Scan.Located

variable {scan input : Scan}

theorem next (located : scan.Located known) {lookahead : Token}
    (fetched : scan.next = .ok (lookahead, input)) :
    known lookahead.start ∧ input.Located known := by
  obtain ⟨tokens, error, length⟩ := scan
  cases tokens with
  | cons token tokens =>
      cases fetched
      refine ⟨located.tokens lookahead List.mem_cons_self, ?_, located.error, located.length⟩
      exact fun later member => located.tokens later (List.mem_cons_of_mem _ member)
  | nil =>
      cases error with
      | none =>
          cases fetched
          exact ⟨located.length, located⟩
      | some error => cases fetched

theorem failed (located : scan.Located known) {error : LexError}
    (failed : scan.next = .error error) : known error.pos := by
  obtain ⟨tokens, stopped, length⟩ := scan
  cases tokens with
  | cons token tokens => cases failed
  | nil =>
      cases stopped with
      | none => cases failed
      | some stopped =>
          cases failed
          exact located.error error rfl

end Scan.Located

/-- Tokens, the error and the end of the source stand between characters. -/
theorem Scan.located_ofString (source : String) :
    (Scan.ofString source).Located (Text.Boundary source.toList) := by
  have tiles := Scan.tiles_ofString source
  constructor
  · intro token member
    obtain ⟨before, covered, after, whole, start, _, _⟩ := tiles.covers token member
    exact ⟨before, covered ++ after, by rw [whole, List.append_assoc], start⟩
  · intro error failed
    obtain ⟨before, first, rest, whole, pos, _, _⟩ := tiles.stands error failed
    exact ⟨before, first :: rest, whole, pos⟩
  · exact ⟨source.toList, [], (List.append_nil _).symm, tiles.length_eq⟩

theorem Attribute.located_of_none {held : Attribute} (nowhere : held.start? = Option.none) :
    held.Located known := by
  intro start found
  rw [nowhere] at found
  cases found

/-- A name without an offset of its own is reported at the lookahead. -/
theorem Attribute.Located.getD {held : Attribute} (located : held.Located known) {pos : Nat}
    (ahead : known pos) : known (held.start?.getD pos) := by
  cases found : held.start? with
  | none => exact ahead
  | some start => exact located start found

namespace Translator.Located

variable {translator after : Translator}

theorem of_same (located : translator.Located known)
    (entries : after.symbols.entries ⊆ translator.symbols.entries)
    (diagnostics : after.diagnostics = translator.diagnostics) : after.Located known where
  entries := fun entry member => located.entries entry (entries member)
  diagnostics := diagnostics ▸ located.diagnostics

theorem declare (located : translator.Located known) (name : String) (size : Nat) {pos : Nat}
    (here : known pos) : (translator.declare name size pos).Located known := by
  unfold Translator.declare SymbolTable.defineData SymbolTable.insert
  cases translator.symbols.lookup name with
  | none =>
      refine ⟨fun entry member => ?_, located.diagnostics⟩
      rcases List.mem_append.mp member with earlier | added
      · exact located.entries entry earlier
      · rw [List.mem_singleton.mp added]
        exact here
  | some holder =>
      refine ⟨located.entries, fun diagnostic member => ?_⟩
      rw [Array.toList_push] at member
      rcases List.mem_append.mp member with earlier | added
      · exact located.diagnostics diagnostic earlier
      · rw [List.mem_singleton.mp added]
        exact here

variable {action : Semantic} {stack : List Attribute} {pos : Nat} {head : Attribute}

/-- An action reports names where its stack or the lookahead has them. -/
theorem act (located : translator.Located known) (ahead : known pos)
    (attributes : ∀ held ∈ stack, held.Located known)
    (leaves : Reduction.Leaves stack pos translator action head after) : after.Located known := by
  cases leaves with
  | decl name found =>
      exact located.declare _ _ ((attributes name (List.mem_of_getElem? found)).getD ahead)
  | declArray name size found =>
      exact located.declare _ _ ((attributes name (List.mem_of_getElem? found)).getD ahead)
  | nestedBlock => exact located.of_same translator.symbols.exit_entries_sublist.subset rfl
  | _ => exact located.of_same (List.Subset.refl _) rfl

end Translator.Located

/-- The head has an offset only if it is handed through from the stack. -/
theorem Reduction.Leaves.located {stack : List Attribute} {pos : Nat}
    {translator after : Translator} {action : Semantic} {head : Attribute}
    (leaves : Leaves stack pos translator action head after)
    (attributes : ∀ held ∈ stack, held.Located known) : head.Located known := by
  cases leaves with
  | pass _ found => exact attributes head (List.mem_of_getElem? found)
  | paren _ found => exact attributes head (List.mem_of_getElem? found)
  | _ => exact Attribute.located_of_none rfl

namespace Config

variable {table : ParseTable} {actions : Array Semantic} {config : Config}

theorem Located.first {scan input : Scan} {lookahead : Token} (located : scan.Located known)
    (fetched : scan.next = .ok (lookahead, input)) :
    (Config.first lookahead input).Located known := by
  obtain ⟨start, rest⟩ := located.next fetched
  refine ⟨start, rest, ?_, ?_, ?_⟩
  · intro held member
    rw [List.mem_singleton.mp member]
    exact Attribute.located_of_none rfl
  · exact fun entry member => absurd member List.not_mem_nil
  · exact fun diagnostic member => absurd member List.not_mem_nil

theorem Located.logged (located : config.Located known) (action : Action) :
    (config.logged table action).Located known :=
  located.translator.of_same (List.Subset.refl _) rfl

/-- A step takes offsets only from what it reads. -/
theorem Located.of_moves {next : Config} (located : config.Located known)
    (moves : Moves table actions config next) : next.Located known := by
  cases moves with
  | shift state lookahead input asked fetched =>
      obtain ⟨start, rest⟩ := located.input.next fetched
      refine ⟨start, rest, fun held member => ?_, located.logged _⟩
      rcases List.mem_cons.mp member with rfl | earlier
      · rintro start ⟨⟩
        exact located.lookahead
      · exact located.attributes held earlier
  | reduce index production head translator target asked found ran enters =>
      have leaves := Reduction.leaves_of_run ran
      refine ⟨located.lookahead, located.input, fun held member => ?_, ?_⟩
      · rcases List.mem_cons.mp member with rfl | earlier
        · exact leaves.located located.attributes
        · exact located.attributes held ((popAbove_suffix _ _).subset earlier)
      · exact (located.logged _).act located.lookahead located.attributes leaves

/-- An offset in the outcome was in the configuration that the run stops at. -/
theorem Located.known_of_stops {outcome : Outcome} (located : config.Located known)
    (stops : config.Stops table actions outcome) {pos : Nat}
    (member : pos ∈ outcome.verdict.positions) : known pos := by
  cases stops with
  | accepted asked =>
      rcases List.mem_append.mp member with recorded | reported
      · obtain ⟨entry, listed, rfl⟩ := List.mem_map.mp recorded
        exact located.translator.entries entry listed
      · obtain ⟨diagnostic, listed, rfl⟩ := List.mem_map.mp reported
        exact located.translator.diagnostics diagnostic listed
  | refused asked => exact List.mem_singleton.mp member ▸ located.lookahead
  | unreadable state error asked failed =>
      exact List.mem_singleton.mp member ▸ located.input.failed failed
  | failed index production error translator asked found ran =>
      exact List.mem_singleton.mp member ▸ located.lookahead
  | blocked index production head translator asked found ran empty =>
      exact List.mem_singleton.mp member ▸ located.lookahead
  | outside fault missing => exact absurd member List.not_mem_nil
  | unknown index asked missing => exact absurd member List.not_mem_nil
  | overflowed index production translator asked found ran =>
      exact absurd member List.not_mem_nil
  | stranded index production head translator fault asked found ran missing =>
      exact absurd member List.not_mem_nil

end Config

/-- An offset in the outcome of a run stood in the source from the start. -/
theorem ParseTable.known_of_halts {table : ParseTable} {actions : Array Semantic} {source : String}
    {outcome : Outcome} (located : (Scan.ofString source).Located known)
    (halts : table.Halts actions source outcome) {pos : Nat}
    (member : pos ∈ outcome.verdict.positions) : known pos := by
  obtain ⟨fuel, halted⟩ := halts
  cases fetched : (Scan.ofString source).next with
  | error error =>
      rw [parse_of_error fetched] at halted
      cases halted
      exact List.mem_singleton.mp member ▸ located.failed fetched
  | ok both =>
      obtain ⟨lookahead, input⟩ := both
      rw [parse_of_next fetched] at halted
      obtain ⟨last, reaches, step⟩ := Config.reaches_of_run halted
      have final := reaches.keeps (fun _ _ held moves => Config.Located.of_moves held moves)
        (.first located fetched)
      exact final.known_of_stops (Config.stops_of_step step) member

namespace Language

/-- What a result points at are boundaries between the characters of the source. At these, lines and
columns are exact: the offset is found again from them, and they are ordered as the offsets are. -/
theorem positions_exact (language : Language) (source : String) :
    (∀ outcome, language.table.Halts language.actions source outcome →
      ∀ pos ∈ outcome.verdict.positions,
        pos ≤ source.utf8ByteSize ∧ Text.Boundary source.toList pos) ∧
      (∀ offset, Text.Boundary source.toList offset →
        Text.offsetOf? source.toList (Text.lineColumn source offset) = some offset) ∧
      ∀ first second,
        Text.Boundary source.toList first → Text.Boundary source.toList second →
          (Text.lineColumn source first = Text.lineColumn source second ↔ first = second) ∧
          ((Text.lineColumn source first).Before (Text.lineColumn source second) ↔
            first < second) := by
  refine ⟨fun outcome halts pos member => ?_, fun _ => Text.offsetOf?_lineColumn,
    fun first second one other => ⟨⟨fun same => ?_, fun same => same ▸ rfl⟩, ?_⟩⟩
  · have boundary := ParseTable.known_of_halts (Scan.located_ofString source) halts member
    exact ⟨Text.byteLength_toList source ▸ boundary.le, boundary⟩
  · have found := Text.offsetOf?_lineColumn one
    rw [same, Text.offsetOf?_lineColumn other] at found
    exact (Option.some.inj found).symm
  · exact Text.before_lineColumn_iff one other

/-- A name that takes two bytes, declared in two lines. -/
def accented : String := "\x7b int é;\n int é; \x7d"

theorem positions_exact_accented :
    ∃ language outcome, build = .ok language ∧
      language.table.Halts language.actions accented outcome ∧
      outcome.verdict.positions = [6, 15] ∧
      Text.Boundary accented.toList 6 ∧ Text.Boundary accented.toList 15 ∧
      Text.lineColumn accented 15 = ⟨2, 6⟩ ∧
      Text.offsetOf? accented.toList ⟨2, 6⟩ = some 15 ∧
      (Text.lineColumn accented 6).Before (Text.lineColumn accented 15) := by
  have ran : Direct.compile? construction (ParseTable.ofGrammar grammar).terminal?
      (rules.map Rule.action).toArray 100 accented =
      some ⟨#[], ⟨[⟨"é", .var, 1, "t0", 0, "int", 6⟩], 1, 1⟩, #[⟨⟨"é", 1⟩, 15⟩]⟩ := by
    decide +kernel
  obtain ⟨language, outcome, built, halts, accepted⟩ := accepted_of_compile? ran
  obtain ⟨placed, found, ordered⟩ := positions_exact language accented
  have points : outcome.verdict.positions = [6, 15] := by rw [accepted]; rfl
  have name := (placed outcome halts 6 (by simp [points])).2
  have again := (placed outcome halts 15 (by simp [points])).2
  have place : Text.lineColumn accented 15 = ⟨2, 6⟩ := by decide +kernel
  refine ⟨language, outcome, built, halts, points, name, again, place, ?_, ?_⟩
  · exact place ▸ found 15 again
  · exact ((ordered 6 15 name again).2).mpr (by decide)

end Language

end ThreeAddress

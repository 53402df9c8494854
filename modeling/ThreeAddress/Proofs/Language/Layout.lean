import ThreeAddress.Proofs.Language.Evaluation
import ThreeAddress.Proofs.Run.Unplaced

/-!
The layout of a source does not matter. Its tokens can be written with any blanks and comments
between them, and what is made of them stays the same but for the offsets it mentions.
-/

set_option autoImplicit false

namespace ThreeAddress

theorem Progress.outcome?_unplaced (progress : Progress) :
    progress.unplaced.outcome? = progress.outcome?.map Outcome.unplaced := by
  cases progress <;> rfl

namespace Language

/-- A source that reads without an error and one in which its tokens are laid out anew have the same
tokens but for their places, and running them, for however many steps, comes to the same but for
places: the code of both, or the error of both. -/
theorem translate_layout (language : Language) {source layout : String}
    (clean : (Scan.ofString source).error = none)
    (laid : Layout (Scan.ofString source).tokens layout.toList) :
    (Scan.ofString layout).error = none ∧
      (Scan.ofString layout).tokens.map Token.unplaced =
        (Scan.ofString source).tokens.map Token.unplaced ∧
      (∀ fuel, (language.table.parse language.actions fuel layout).unplaced =
        (language.table.parse language.actions fuel source).unplaced) ∧
      (language.translate layout).map Outcome.unplaced =
        (language.translate source).map Outcome.unplaced := by
  have same := Scan.ofString_layout clean laid
  have runs : ∀ fuel, (language.table.parse language.actions fuel layout).unplaced =
      (language.table.parse language.actions fuel source).unplaced := by
    intro fuel
    rw [ParseTable.unplaced_parse, ParseTable.unplaced_parse, same]
  refine ⟨?_, congrArg Scan.tokens same, runs, ?_⟩
  · have errors := congrArg Scan.error same
    simpa [Scan.unplaced, clean] using errors
  · rw [translate, translate, ← Progress.outcome?_unplaced, runs, Progress.outcome?_unplaced]

/-- A quotient without blanks. -/
def halving : String := "\x7bint a;a=a/2;\x7d"

/-- A tabulator and a comment that holds a quote and a slash. -/
def halvingGap : List Char := ['\t', '/', '/', '"', '/', '\n']

theorem translate_layout_halving :
    ∃ language outcome compiled, build = .ok language ∧
      language.table.Halts language.actions halving outcome ∧
      outcome.verdict = .accepted compiled ∧
      compiled.code = #[.binary "t1" .div "a" "2", .copy "a" "t1"] ∧
      ∃ layout : String, (Scan.ofString halving).error = none ∧
        layout.toList = halvingGap.intercalate
          (["\x7b", "int", "a", ";", "a", "=", "a", "/", "2", ";", "\x7d"].map String.toList) ∧
        Layout (Scan.ofString halving).tokens layout.toList ∧
        ∃ other, language.table.Halts language.actions layout other ∧
          other.unplaced = outcome.unplaced := by
  have ran : Direct.compile? construction (ParseTable.ofGrammar grammar).terminal?
      (rules.map Rule.action).toArray 40 halving =
      some ⟨#[.binary "t1" .div "a" "2", .copy "a" "t1"],
        ⟨[⟨"a", .var, 1, "t0", 0, "int", 5⟩], 1, 2⟩, #[]⟩ := by
    decide +kernel
  have clean : (Scan.ofString halving).error = none := by decide +kernel
  have written : (Scan.ofString halving).tokens.map Token.written =
      ["\x7b", "int", "a", ";", "a", "=", "a", "/", "2", ";", "\x7d"].map String.toList := by
    decide +kernel
  have white : Text.isBlank '\t' = true := by decide
  have gap : Text.Gap halvingGap :=
    ⟨.blank _ _ white (.comment ['"', '/'] [] (by decide) .nil), white, by decide⟩
  have laid : Layout (Scan.ofString halving).tokens
      (String.ofList (halvingGap.intercalate
        ((Scan.ofString halving).tokens.map Token.written))).toList := by
    rw [String.toList_ofList]
    exact .intercalate gap _
  obtain ⟨language, outcome, built, ⟨fuel, halts⟩, accepted⟩ := accepted_of_compile? ran
  refine ⟨language, outcome, _, built, ⟨fuel, halts⟩, accepted, rfl, _, clean, ?_, laid, ?_⟩
  · rw [String.toList_ofList, written]
  · have runs := (translate_layout language clean laid).2.2.1 fuel
    rw [halts] at runs
    cases ended : language.table.parse language.actions fuel
        (String.ofList (halvingGap.intercalate
          ((Scan.ofString halving).tokens.map Token.written))) with
    | running config =>
        rw [ended] at runs
        cases runs
    | halted other =>
        rw [ended] at runs
        exact ⟨other, ⟨fuel, ended⟩, Progress.halted.inj runs⟩

end Language

end ThreeAddress

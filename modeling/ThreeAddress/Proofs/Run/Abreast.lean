import ThreeAddress.Proofs.Run.Sound

/-!
Runs of one source with different semantic actions. They keep abreast of each other, doing the same
moves on the same stack of states, until an action of one of them fails.
-/

set_option autoImplicit false

namespace ThreeAddress

/-- How a run ends with a failed action. -/
def Failure.verdict (pos : Nat) : Failure → Verdict
  | .error cause => .rejected (.translate cause pos)
  | .sizeOverflow => .faulted .sizeOverflow

namespace Config

/-- The semantic action of the reduction under way fails. -/
structure Fails (table : ParseTable) (actions : Array Semantic) (config : Config) (index : Nat)
    (failure : Failure) (after : Translator) : Prop where
  asked : table.actionOn config.top config.lookahead = .ok (.reduce index)
  found : ∃ production, table.grammar.productions[index]? = some production
  ran : Reduction.run (actions.getD index .nothing) config.attributes config.lookahead.start
    (config.logged table (.reduce index)) = .error failure after

variable {table : ParseTable} {actions others : Array Semantic} {config other : Config}

theorem Fails.step {index : Nat} {failure : Failure} {after : Translator}
    (fails : config.Fails table actions index failure after) :
    config.step table actions =
      .halted ⟨failure.verdict config.lookahead.start, after.log⟩ := by
  obtain ⟨production, found⟩ := fails.found
  have ran := fails.ran
  unfold logged at ran
  unfold Config.step
  rw [fails.asked]
  simp only [record, Config.reduce, found, ran]
  cases failure <;> rfl

/-- Two configurations agree on all that decides about the next move, and on the moves so far. -/
structure Abreast (config other : Config) : Prop where
  states : config.states = other.states
  lookahead : config.lookahead = other.lookahead
  input : config.input = other.input
  moves : movesOf config.translator.log = movesOf other.translator.log

namespace Abreast

theorem first (lookahead : Token) (input : Scan) :
    (Config.first lookahead input).Abreast (.first lookahead input) := ⟨rfl, rfl, rfl, rfl⟩

theorem actionOn_eq (abreast : config.Abreast other) :
    table.actionOn config.top config.lookahead = table.actionOn other.top other.lookahead := by
  rw [top, top, abreast.states, abreast.lookahead]

/-- A move of one configuration is made by the other too, unless its own action fails. -/
theorem of_moves {otherNext : Config} (abreast : config.Abreast other) (actions : Array Semantic)
    (moves : Moves table others other otherNext) :
    (∃ next, Moves table actions config next ∧ next.Abreast otherNext) ∨
      ∃ index failure after, config.Fails table actions index failure after := by
  cases moves with
  | shift state lookahead input asked fetched =>
      left
      rw [← abreast.input] at fetched
      refine ⟨_, .shift state lookahead input (abreast.actionOn_eq.trans asked) fetched, ?_⟩
      refine ⟨congrArg (state :: ·) abreast.states, rfl, rfl, ?_⟩
      simp [logged, Translator.record, Event.move?, abreast.moves, abreast.lookahead]
  | reduce index production head translator target asked found ran enters =>
      have reduces := abreast.actionOn_eq.trans asked
      cases own : Reduction.run (actions.getD index .nothing) config.attributes
          config.lookahead.start (config.logged table (.reduce index)) with
      | error failure after => exact .inr ⟨index, failure, after, reduces, ⟨_, found⟩, own⟩
      | ok ownHead ownTranslator =>
          left
          rw [← abreast.states] at enters
          refine ⟨_, .reduce index production ownHead ownTranslator target reduces found own enters,
            ?_⟩
          have quiet := (Reduction.quiet_run _ _ _).movesOf_eq own
          have otherQuiet := (Reduction.quiet_run _ _ _).movesOf_eq ran
          refine ⟨?_, abreast.lookahead, abreast.input, ?_⟩
          · rw [abreast.states]
          · simp [quiet, otherQuiet, logged, Translator.record, Event.move?, abreast.moves]

/-- Along a run of one configuration the other one keeps abreast to the end, or to where its own
action fails. -/
theorem of_reaches {otherLast : Config} (abreast : config.Abreast other) (actions : Array Semantic)
    (reaches : Reaches table others other otherLast) :
    (∃ last, Reaches table actions config last ∧ last.Abreast otherLast) ∨
      ∃ stop otherStop otherNext index failure after, Reaches table actions config stop ∧
        stop.Fails table actions index failure after ∧ stop.Abreast otherStop ∧
        Reaches table others other otherStop ∧ Moves table others otherStop otherNext ∧
        Reaches table others otherNext otherLast := by
  induction reaches generalizing config with
  | refl other => exact .inl ⟨config, .refl config, abreast⟩
  | step other otherNext otherLast moves rest ih =>
      rcases abreast.of_moves actions moves with
        ⟨next, own, further⟩ | ⟨index, failure, after, fails⟩
      · rcases ih further with ⟨last, reaches, ends⟩ |
          ⟨stop, otherStop, joined, index, failure, after, reaches, fails, beside, otherReaches,
            joins, onward⟩
        · exact .inl ⟨last, .step config next last own reaches, ends⟩
        · exact .inr ⟨stop, otherStop, joined, index, failure, after,
            .step config next stop own reaches, fails, beside,
            .step other otherNext otherStop moves otherReaches, joins, onward⟩
      · exact .inr ⟨config, other, otherNext, index, failure, after, .refl config, fails, abreast,
          .refl other, moves, rest⟩

/-- Runs that are abreast of each other have built the same trees. -/
theorem trees_eq {grammar : Grammar} {scan : Scan} {symbols otherSymbols : List Symbol}
    {trees otherTrees : List (Tree Token)} (abreast : config.Abreast other)
    (sound : config.Sound grammar actions scan symbols trees)
    (otherSound : other.Sound grammar others scan otherSymbols otherTrees) :
    trees.map (Tree.map Token.text) = otherTrees.map (Tree.map Token.text) := by
  have grown := sound.parses.foldl_grow Token.text []
  have otherGrown := otherSound.parses.foldl_grow Token.text []
  rw [← sound.moves, abreast.moves, otherSound.moves, otherGrown] at grown
  simpa using grown.symm

/-- Runs that accept abreast of each other show the same trees. -/
theorem shown_eq {outcome otherOutcome : Outcome} {compiled otherCompiled : Compiled}
    (abreast : config.Abreast other) (step : config.step table actions = .halted outcome)
    (otherStep : other.step table others = .halted otherOutcome)
    (accepted : outcome.verdict = .accepted compiled)
    (otherAccepted : otherOutcome.verdict = .accepted otherCompiled) (grammar : Grammar) :
    outcome.trees grammar = otherOutcome.trees grammar := by
  rw [Outcome.trees, Outcome.trees, (accepted_of_step step accepted).2.2, abreast.moves,
    (accepted_of_step otherStep otherAccepted).2.2]

end Abreast

end Config

/-- A source that is accepted with semantic actions can be read without them. -/
theorem ParseTable.Halts.reading {table : ParseTable} {actions : Array Semantic} {source : String}
    {outcome : Outcome} {compiled : Compiled} (halts : table.Halts actions source outcome)
    (accepted : outcome.verdict = .accepted compiled) :
    ∃ reading compiled, table.Halts #[] source reading ∧ reading.verdict = .accepted compiled := by
  obtain ⟨lookahead, input, last, fetched, reaches, step⟩ := halts.reaches accepted
  rcases (Config.Abreast.first lookahead input).of_reaches #[] reaches with
    ⟨own, ownReaches, abreast⟩ | ⟨_, _, _, _, _, _, _, fails, _⟩
  · have asked := abreast.actionOn_eq.trans (Config.accepted_of_step step accepted).1
    obtain ⟨reading, halted, verdict, _⟩ := Config.step_of_accept #[] asked
    exact ⟨reading, _, halts_of_reaches fetched ownReaches halted, verdict⟩
  · -- To do nothing never fails.
    cases fails.ran

/-- A source has one outcome. -/
theorem ParseTable.Halts.unique {table : ParseTable} {actions : Array Semantic} {source : String}
    {first second : Outcome} (one : table.Halts actions source first)
    (other : table.Halts actions source second) : first = second := by
  obtain ⟨fuel, ran⟩ := one
  obtain ⟨otherFuel, otherRan⟩ := other
  cases fetched : (Scan.ofString source).next with
  | error error =>
      rw [parse_of_error fetched] at ran otherRan
      cases ran
      cases otherRan
      rfl
  | ok both =>
      obtain ⟨lookahead, input⟩ := both
      rw [parse_of_next fetched] at ran otherRan
      obtain ⟨last, reaches, halts⟩ := Config.reaches_of_run ran
      obtain ⟨otherLast, otherReaches, otherHalts⟩ := Config.reaches_of_run otherRan
      exact reaches.halted_unique otherReaches halts otherHalts

end ThreeAddress

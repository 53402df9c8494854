import ThreeAddress.Language
import ThreeAddress.Proofs.Trace

/-!
What one step of a run can do, and runs as sequences of steps.
-/

set_option autoImplicit false

namespace ThreeAddress

namespace Config

/-- The translator once the step under way is logged. -/
def logged (table : ParseTable) (action : Action) (config : Config) : Translator :=
  config.translator.record (.step (config.steps + 1) config.states config.lookahead.text
    (table.terminalName config.lookahead) action)

/-- The steps that keep a run going: to read the lookahead and enter a state, or to replace the body
of a production by its head. -/
inductive Moves (table : ParseTable) (actions : Array Semantic) (config : Config) :
    Config → Prop where
  | shift (state : Nat) (lookahead : Token) (input : Scan)
      (asked : table.actionOn config.top config.lookahead = .ok (.shift state))
      (fetched : config.input.next = .ok (lookahead, input)) :
      Moves table actions config
        ⟨state :: config.states,
          .token config.lookahead.text config.lookahead.start :: config.attributes,
          lookahead, input, config.logged table (.shift state), config.steps + 1⟩
  | reduce (index : Nat) (production : Production) (head : Attribute) (translator : Translator)
      (target : Nat)
      (asked : table.actionOn config.top config.lookahead = .ok (.reduce index))
      (found : table.grammar.productions[index]? = some production)
      (ran : Reduction.run (actions.getD index .nothing) config.attributes config.lookahead.start
        (config.logged table (.reduce index)) = .ok head translator)
      (enters : ParseTable.cell table.tables.goto
        ((popAbove production.body.length config.states).headD 0) production.head =
          .ok (some target)) :
      Moves table actions config
        ⟨target :: popAbove production.body.length config.states,
          head :: popAbove production.body.length config.attributes,
          config.lookahead, config.input, translator, config.steps + 1⟩

variable {table : ParseTable} {actions : Array Semantic} {config : Config}

theorem moves_of_step {next : Config} (step : config.step table actions = .running next) :
    Moves table actions config next := by
  unfold Config.step at step
  split at step
  · cases step
  · rename_i action asked
    cases action with
    | error => cases step
    | accept => cases step
    | shift state =>
        simp only [record, shift] at step
        split at step
        · cases step
        · rename_i lookahead input fetched
          cases step
          exact .shift state lookahead input asked fetched
    | reduce index =>
        simp only [record, reduce] at step
        split at step
        · cases step
        · rename_i production found
          split at step
          · cases step
          · cases step
          · rename_i head translator ran
            simp only [replace] at step
            split at step
            · cases step
            · cases step
            · rename_i target enters
              cases step
              exact .reduce index production head translator target asked found ran enters

theorem Moves.step {next : Config} (moves : Moves table actions config next) :
    config.step table actions = .running next := by
  unfold Config.step
  cases moves with
  | shift state lookahead input asked fetched =>
      rw [asked]
      simp only [record, Config.shift, fetched]
      rfl
  | reduce index production head translator target asked found ran enters =>
      rw [asked]
      have ran' := ran
      unfold logged at ran'
      simp only [record, Config.reduce, found, ran', replace, enters]

/-- A run accepts where the table says so, with the code as it stands. -/
theorem accepted_of_step {outcome : Outcome} {compiled : Compiled}
    (step : config.step table actions = .halted outcome)
    (accepted : outcome.verdict = .accepted compiled) :
    table.actionOn config.top config.lookahead = .ok .accept ∧
      compiled = config.translator.finish ∧ movesOf outcome.log = movesOf config.translator.log := by
  unfold Config.step at step
  split at step
  · cases step
    cases accepted
  · rename_i action asked
    cases action with
    | error =>
        cases step
        cases accepted
    | accept =>
        cases step
        cases accepted
        refine ⟨asked, rfl, ?_⟩
        simp [record, Translator.record, Event.move?]
    | shift state =>
        simp only [record, shift] at step
        split at step
        · cases step
          cases accepted
        · cases step
    | reduce index =>
        simp only [record, reduce] at step
        split at step
        · cases step
          cases accepted
        · split at step
          · cases step
            cases accepted
          · cases step
            cases accepted
          · simp only [replace] at step
            split at step
            · cases step
              cases accepted
            · cases step
              cases accepted
            · cases step

theorem step_of_accept (actions : Array Semantic)
    (asked : table.actionOn config.top config.lookahead = .ok .accept) :
    ∃ outcome, config.step table actions = .halted outcome ∧
      outcome.verdict = .accepted config.translator.finish ∧
      movesOf outcome.log = movesOf config.translator.log := by
  refine ⟨⟨.accepted config.translator.finish, ((config.logged table .accept).record
    (.accepted (config.steps + 1))).log⟩, ?_, rfl, ?_⟩
  · unfold Config.step
    rw [asked]
    rfl
  · simp [logged, Translator.record, Event.move?]

/-- Steps lead from one configuration to another. -/
inductive Reaches (table : ParseTable) (actions : Array Semantic) : Config → Config → Prop where
  | refl (config : Config) : Reaches table actions config config
  | step (config next last : Config) (moves : Moves table actions config next)
      (rest : Reaches table actions next last) : Reaches table actions config last

theorem Reaches.trans {middle last : Config} (first : Reaches table actions config middle)
    (second : Reaches table actions middle last) : Reaches table actions config last := by
  induction first with
  | refl _ => exact second
  | step config next _ moves _ ih => exact .step config next last moves (ih second)

/-- What each step keeps, a run keeps. -/
theorem Reaches.keeps {holds : Config → Prop} {last : Config}
    (reaches : Reaches table actions config last)
    (kept : ∀ config next, holds config → Moves table actions config next → holds next)
    (begins : holds config) : holds last := by
  induction reaches with
  | refl _ => exact begins
  | step config next _ moves _ ih => exact ih (kept config next begins moves)

theorem reaches_of_run {fuel : Nat} {outcome : Outcome}
    (run : config.run table actions fuel = .halted outcome) :
    ∃ last, Reaches table actions config last ∧ last.step table actions = .halted outcome := by
  induction fuel generalizing config with
  | zero => cases run
  | succ fuel ih =>
      unfold Config.run at run
      split at run
      · rename_i next step
        obtain ⟨last, reaches, halts⟩ := ih run
        exact ⟨last, .step config next last (moves_of_step step) reaches, halts⟩
      · rename_i found step
        cases run
        exact ⟨config, .refl config, step⟩

theorem Reaches.run {last : Config} {outcome : Outcome} (reaches : Reaches table actions config last)
    (halts : last.step table actions = .halted outcome) :
    ∃ fuel, config.run table actions fuel = .halted outcome := by
  induction reaches with
  | refl config => exact ⟨1, by rw [Config.run, halts]⟩
  | step config next last moves _ ih =>
      obtain ⟨fuel, run⟩ := ih halts
      exact ⟨fuel + 1, by rw [Config.run, moves.step]; exact run⟩

/-- Steps are determined, so a run halts in one way only. -/
theorem Reaches.halted_unique {first second : Config} {left right : Outcome}
    (one : Reaches table actions config first) (other : Reaches table actions config second)
    (leftHalts : first.step table actions = .halted left)
    (rightHalts : second.step table actions = .halted right) : left = right := by
  induction one with
  | refl config =>
      cases other with
      | refl _ =>
          rw [leftHalts] at rightHalts
          cases rightHalts
          rfl
      | step _ next _ moves _ =>
          rw [moves.step] at leftHalts
          cases leftHalts
  | step config next _ moves _ ih =>
      cases other with
      | refl _ =>
          rw [moves.step] at rightHalts
          cases rightHalts
      | step _ also _ alsoMoves rest =>
          have same := moves.step.symm.trans alsoMoves.step
          cases same
          exact ih rest leftHalts

/-- The tokens not read yet, the lookahead included. -/
inductive Unread (config : Config) : List Token → Prop where
  | ahead : Unread config (config.lookahead :: config.input.tokens)
  | finished (ends : config.lookahead = .endOfInput config.input.length)
      (empty : config.input.tokens = []) (clean : config.input.error = none) : Unread config []

/-- Fetching a token leaves one token less to read. -/
theorem unread_of_next (config : Config) {scan input : Scan} {lookahead : Token}
    (fetched : scan.next = .ok (lookahead, input)) (moved : config.lookahead = lookahead)
    (rest : config.input = input) :
    config.Unread scan.tokens ∧ input.error = scan.error := by
  subst moved rest
  unfold Scan.next at fetched
  split at fetched
  · rename_i token tokens listed
    have moved := congrArg Prod.fst (Except.ok.inj fetched)
    have rest := congrArg Prod.snd (Except.ok.inj fetched)
    simp only at moved rest
    have left : config.input.tokens = tokens := by rw [← rest]
    rw [listed, moved, ← left]
    exact ⟨.ahead, by rw [← rest]⟩
  · rename_i empty
    split at fetched
    · cases fetched
    · rename_i clean
      have moved := congrArg Prod.fst (Except.ok.inj fetched)
      have rest := congrArg Prod.snd (Except.ok.inj fetched)
      simp only at moved rest
      rw [empty]
      refine ⟨.finished ?_ ?_ ?_, by rw [← rest]⟩
      · rw [← moved, ← rest]
      · rw [← rest, empty]
      · rw [← rest, clean]

end Config

theorem Scan.exists_next (scan : Scan) (clean : scan.error = none) :
    ∃ lookahead input, scan.next = .ok (lookahead, input) := by
  unfold Scan.next
  split
  · exact ⟨_, _, rfl⟩
  · rw [clean]
    exact ⟨_, _, rfl⟩

/-- The translator before the first step, in an outermost scope. -/
def Translator.first : Translator := { symbols := SymbolTable.enter {} }

/-- The configuration in which a run begins. -/
def Config.first (lookahead : Token) (input : Scan) : Config :=
  { states := [0]
    attributes := [.none]
    lookahead
    input
    translator := .first
    steps := 0 }

namespace ParseTable

/-- A run on the source ends in the outcome, after any number of steps. -/
def Halts (table : ParseTable) (actions : Array Semantic) (source : String) (outcome : Outcome) :
    Prop :=
  ∃ fuel, table.parse actions fuel source = .halted outcome

variable {table : ParseTable} {actions : Array Semantic} {source : String} {outcome : Outcome}

theorem parse_of_next {lookahead : Token} {input : Scan}
    (fetched : (Scan.ofString source).next = .ok (lookahead, input)) (fuel : Nat) :
    table.parse actions fuel source = (Config.first lookahead input).run table actions fuel := by
  unfold parse Progress.initial
  simp only [fetched]
  rfl

theorem parse_of_error {error : LexError} (failed : (Scan.ofString source).next = .error error)
    (fuel : Nat) : table.parse actions fuel source = .halted ⟨.rejected (.lex error), #[]⟩ := by
  unfold parse Progress.initial
  simp only [failed]

theorem Halts.reaches {compiled : Compiled} (halts : table.Halts actions source outcome)
    (accepted : outcome.verdict = .accepted compiled) :
    ∃ lookahead input last, (Scan.ofString source).next = .ok (lookahead, input) ∧
      Config.Reaches table actions (.first lookahead input) last ∧
      last.step table actions = .halted outcome := by
  obtain ⟨fuel, run⟩ := halts
  cases fetched : (Scan.ofString source).next with
  | error error =>
      rw [parse_of_error fetched] at run
      cases run
      cases accepted
  | ok both =>
      obtain ⟨lookahead, input⟩ := both
      rw [parse_of_next fetched] at run
      obtain ⟨last, reaches, step⟩ := Config.reaches_of_run run
      exact ⟨lookahead, input, last, rfl, reaches, step⟩

theorem halts_of_reaches {lookahead : Token} {input : Scan} {last : Config}
    (fetched : (Scan.ofString source).next = .ok (lookahead, input))
    (reaches : Config.Reaches table actions (.first lookahead input) last)
    (step : last.step table actions = .halted outcome) : table.Halts actions source outcome := by
  obtain ⟨fuel, run⟩ := reaches.run step
  exact ⟨fuel, (parse_of_next fetched fuel).trans run⟩

end ParseTable

/-- What `translate` gives is how the run ends. -/
theorem Language.halts_of_translate {language : Language} {source : String} {outcome : Outcome}
    (translated : language.translate source = some outcome) :
    language.table.Halts language.actions source outcome := by
  refine ⟨ParseTable.stepLimit, ?_⟩
  unfold translate at translated
  cases ended : language.table.parse language.actions ParseTable.stepLimit source with
  | running config =>
      rw [ended] at translated
      cases translated
  | halted found =>
      rw [ended] at translated
      cases translated
      rfl

end ThreeAddress

import ThreeAddress.Proofs.Run.Step

/-!
How a run comes to a halt: each way in which a step can end it, with the outcome that it leaves.
-/

set_option autoImplicit false

namespace ThreeAddress

namespace Config

/-- The steps that end a run. -/
inductive Stops (table : ParseTable) (actions : Array Semantic) (config : Config) :
    Outcome → Prop where
  | outside (fault : Fault) (missing : table.actionOn config.top config.lookahead = .error fault) :
      Stops table actions config ⟨.faulted fault, config.translator.log⟩
  | refused (asked : table.actionOn config.top config.lookahead = .ok .error) :
      Stops table actions config
        ⟨.rejected (.noAction config.top (table.terminalName config.lookahead)
          config.lookahead.start), (config.logged table .error).log⟩
  | accepted (asked : table.actionOn config.top config.lookahead = .ok .accept) :
      Stops table actions config
        ⟨.accepted config.translator.finish,
          ((config.logged table .accept).record (.accepted (config.steps + 1))).log⟩
  | unreadable (state : Nat) (error : LexError)
      (asked : table.actionOn config.top config.lookahead = .ok (.shift state))
      (failed : config.input.next = .error error) :
      Stops table actions config
        ⟨.rejected (.lex error), (config.logged table (.shift state)).log⟩
  | unknown (index : Nat)
      (asked : table.actionOn config.top config.lookahead = .ok (.reduce index))
      (missing : table.grammar.productions[index]? = none) :
      Stops table actions config
        ⟨.faulted (.outOfBounds table.grammar.productions.length index),
          (config.logged table (.reduce index)).log⟩
  | failed (index : Nat) (production : Production) (error : TranslateError)
      (translator : Translator)
      (asked : table.actionOn config.top config.lookahead = .ok (.reduce index))
      (found : table.grammar.productions[index]? = some production)
      (ran : Reduction.run (actions.getD index .nothing) config.attributes config.lookahead.start
        (config.logged table (.reduce index)) = .error (.error error) translator) :
      Stops table actions config
        ⟨.rejected (.translate error config.lookahead.start), translator.log⟩
  | overflowed (index : Nat) (production : Production) (translator : Translator)
      (asked : table.actionOn config.top config.lookahead = .ok (.reduce index))
      (found : table.grammar.productions[index]? = some production)
      (ran : Reduction.run (actions.getD index .nothing) config.attributes config.lookahead.start
        (config.logged table (.reduce index)) = .error .sizeOverflow translator) :
      Stops table actions config ⟨.faulted .sizeOverflow, translator.log⟩
  | stranded (index : Nat) (production : Production) (head : Attribute) (translator : Translator)
      (fault : Fault)
      (asked : table.actionOn config.top config.lookahead = .ok (.reduce index))
      (found : table.grammar.productions[index]? = some production)
      (ran : Reduction.run (actions.getD index .nothing) config.attributes config.lookahead.start
        (config.logged table (.reduce index)) = .ok head translator)
      (missing : ParseTable.cell table.tables.goto
        ((popAbove production.body.length config.states).headD 0) production.head = .error fault) :
      Stops table actions config ⟨.faulted fault, translator.log⟩
  | blocked (index : Nat) (production : Production) (head : Attribute) (translator : Translator)
      (asked : table.actionOn config.top config.lookahead = .ok (.reduce index))
      (found : table.grammar.productions[index]? = some production)
      (ran : Reduction.run (actions.getD index .nothing) config.attributes config.lookahead.start
        (config.logged table (.reduce index)) = .ok head translator)
      (empty : ParseTable.cell table.tables.goto
        ((popAbove production.body.length config.states).headD 0) production.head = .ok none) :
      Stops table actions config
        ⟨.rejected (.noGoto ((popAbove production.body.length config.states).headD 0)
          (table.grammar.nonterminalName production.head) config.lookahead.start), translator.log⟩

variable {table : ParseTable} {actions : Array Semantic} {config : Config}

theorem stops_of_step {outcome : Outcome} (step : config.step table actions = .halted outcome) :
    Stops table actions config outcome := by
  unfold Config.step at step
  split at step
  · rename_i fault missing
    cases step
    exact .outside fault missing
  · rename_i action asked
    cases action with
    | error =>
        cases step
        exact .refused asked
    | accept =>
        cases step
        exact .accepted asked
    | shift state =>
        simp only [record, shift] at step
        split at step
        · rename_i error failed
          cases step
          exact .unreadable state error asked failed
        · cases step
    | reduce index =>
        simp only [record, reduce] at step
        split at step
        · rename_i missing
          cases step
          exact .unknown index asked missing
        · rename_i production found
          split at step
          · rename_i error translator ran
            cases step
            exact .failed index production error translator asked found ran
          · rename_i translator ran
            cases step
            exact .overflowed index production translator asked found ran
          · rename_i head translator ran
            simp only [replace] at step
            split at step
            · rename_i fault missing
              cases step
              exact .stranded index production head translator fault asked found ran missing
            · rename_i empty
              cases step
              exact .blocked index production head translator asked found ran empty
            · cases step

/-- A run that is still going has only made moves. -/
theorem reaches_of_running {fuel : Nat} {last : Config}
    (run : config.run table actions fuel = .running last) : Reaches table actions config last := by
  induction fuel generalizing config with
  | zero =>
      cases run
      exact .refl _
  | succ fuel ih =>
      unfold Config.run at run
      split at run
      · rename_i next step
        exact .step config next last (moves_of_step step) (ih run)
      · cases run

end Config

namespace ParseTable

variable {table : ParseTable} {actions : Array Semantic} {source : String} {fuel : Nat}

/-- A run over a source that is still going began with its first token. -/
theorem reaches_of_parse_running {config : Config}
    (running : table.parse actions fuel source = .running config) :
    ∃ lookahead input, (Scan.ofString source).next = .ok (lookahead, input) ∧
      Config.Reaches table actions (.first lookahead input) config := by
  cases fetched : (Scan.ofString source).next with
  | error error =>
      rw [parse_of_error fetched] at running
      cases running
  | ok both =>
      obtain ⟨lookahead, input⟩ := both
      rw [parse_of_next fetched] at running
      exact ⟨lookahead, input, rfl, Config.reaches_of_running running⟩

/-- A run over a source stops for a lexical error at its very beginning, or at a configuration that
it has reached. -/
theorem stops_of_parse_halted {outcome : Outcome}
    (halted : table.parse actions fuel source = .halted outcome) :
    (∃ error, outcome = ⟨.rejected (.lex error), #[]⟩) ∨
      ∃ lookahead input last, (Scan.ofString source).next = .ok (lookahead, input) ∧
        Config.Reaches table actions (.first lookahead input) last ∧
        last.Stops table actions outcome := by
  cases fetched : (Scan.ofString source).next with
  | error error =>
      rw [parse_of_error fetched] at halted
      cases halted
      exact .inl ⟨error, rfl⟩
  | ok both =>
      obtain ⟨lookahead, input⟩ := both
      rw [parse_of_next fetched] at halted
      obtain ⟨last, reaches, step⟩ := Config.reaches_of_run halted
      exact .inr ⟨lookahead, input, last, rfl, reaches, Config.stops_of_step step⟩

end ParseTable

end ThreeAddress

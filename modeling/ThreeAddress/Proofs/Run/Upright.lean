import ThreeAddress.Proofs.Run.Direct
import ThreeAddress.Proofs.Run.Stop

/-!
The stacks of a run stay in order over the tables of any grammar, with or without conflicts. Both
have the same height, every state is entered from the one below it, and what a reduction takes off
the stack is there. So the tables have an answer to everything that a run asks them, and the guards
against a short stack or an empty cell of the goto table are never needed.
-/

set_option autoImplicit false

namespace ThreeAddress

namespace Construction.Linked

variable {construction : Construction} {sets : Array ItemSet} {states : List Nat}
  {symbols : List Symbol}

theorem getLast?_eq (linked : construction.Linked sets states symbols) :
    states.getLast? = some 0 := by
  induction linked with
  | bottom _ => rfl
  | push target state states _ _ _ _ _ _ _ ih => rw [List.getLast?_cons_cons, ih]

end Construction.Linked

namespace Grammar.WellFormed

variable {grammar : Grammar} {states : List Nat} {symbols : List Symbol}

/-- Each state of a linked stack is the transition of the one below it over a symbol of the
grammar. -/
theorem isChain_of_linked (wellFormed : grammar.WellFormed)
    (linked : grammar.construction.Linked grammar.construction.collection.sets states symbols) :
    states.IsChain fun above below => ∃ symbol, grammar.Has symbol ∧
      (grammar.construction.collection.transitionsAt below).lookup symbol = some above := by
  induction linked with
  | bottom _ => exact .singleton 0
  | push target state states symbol symbols items _ holds leads enters ih =>
      obtain ⟨item, _, next⟩ := Construction.goto_ne_nil_iff.mp leads
      have step := (wellFormed.proper.collection_complete.lookup_iff holds).mpr ⟨leads, enters⟩
      exact .cons_cons ⟨symbol, wellFormed.has_of_nextSymbol next, step⟩ ih

end Grammar.WellFormed

namespace Config

/-- What a configuration promises its next step. Above state zero every state is the transition of
the one below, there are as many attributes as states, and the tables have the cells that the step
consults. A reduction finds more states than its body has symbols, so that nothing is clipped when
the body is popped, and a state to enter afterwards. -/
structure Upright (grammar : Grammar) (config : Config) : Prop where
  parallel : config.states.length = config.attributes.length
  bottom : config.states.getLast? = some 0
  chained : config.states.IsChain fun above below => ∃ symbol, grammar.Has symbol ∧
    (grammar.construction.collection.transitionsAt below).lookup symbol = some above
  answered : ∃ action,
    (ParseTable.ofGrammar grammar).actionOn config.top config.lookahead = .ok action
  pops : ∀ index,
    (ParseTable.ofGrammar grammar).actionOn config.top config.lookahead = .ok (.reduce index) →
    ∃ production target,
      (ParseTable.ofGrammar grammar).grammar.productions[index]? = some production ∧
      production.body.length < config.states.length ∧
      popAbove production.body.length config.states = config.states.drop production.body.length ∧
      popAbove production.body.length config.attributes =
        config.attributes.drop production.body.length ∧
      ParseTable.cell (ParseTable.ofGrammar grammar).tables.goto
        ((config.states.drop production.body.length).headD 0) production.head = .ok (some target)

namespace Sound

variable {grammar : Grammar} {actions : Array Semantic} {scan : Scan} {config : Config}
  {symbols : List Symbol} {trees : List (Tree Token)}

theorem length_attributes (sound : Sound grammar actions scan config symbols trees) :
    config.attributes.length = symbols.length + 1 := by
  obtain ⟨added, attributes, length⟩ := sound.walk.exists_added
  have trees_length := sound.parses.length_eq
  rw [List.length_reverse] at trees_length
  rw [attributes, List.length_append, length, trees_length, List.length_singleton]

theorem exists_action (sound : Sound grammar actions scan config symbols trees) :
    ∃ action, (ParseTable.ofGrammar grammar).actionOn config.top config.lookahead = .ok action := by
  obtain ⟨state, below, items, states, holds⟩ := sound.linked.exists_top
  rw [top, states, List.headD_cons]
  cases known : (ParseTable.ofGrammar grammar).terminal? config.lookahead with
  | none => exact ⟨.error, by rw [ParseTable.actionOn, known]⟩
  | some id =>
      have entry := (Tables.action_cell holds).mpr ⟨ParseTable.terminal?_lt known, rfl⟩
      exact ⟨_, by rw [ParseTable.actionOn, known]; exact entry⟩

/-- A reduction by a production of the grammar leaves a state from which its head leads on. -/
theorem exists_replaced (wellFormed : grammar.WellFormed)
    (sound : Sound grammar actions scan config symbols trees) {index : Nat}
    (asked : (ParseTable.ofGrammar grammar).actionOn config.top config.lookahead =
      .ok (.reduce index)) :
    ∃ production earlier target, grammar.productions[index]? = some production ∧
      symbols = production.body.reverse ++ earlier ∧
      ParseTable.cell (ParseTable.ofGrammar grammar).tables.goto
        ((popAbove production.body.length config.states).headD 0) production.head =
          .ok (some target) := by
  have complete := wellFormed.proper.collection_complete
  obtain ⟨_, _, items, _, _, holds, _, asks⟩ := sound.asks wellFormed asked (by simp)
  have found : ∃ production, grammar.construction.grammar.productions[index]? = some production := by
    cases asks with
    | reduce item member _ _ =>
        obtain ⟨production, found, _⟩ :=
          (complete.reachable_of holds).fits wellFormed.proper item member
        exact ⟨production, found⟩
  obtain ⟨production, found⟩ := found
  obtain ⟨old, _, _, origin, under, origins, earlier, _, _, _, _, originHolds, initial, popped, split⟩ :=
    sound.exists_reduced wellFormed asked found
  -- The state under the body calls for the production, so its head leads on from there.
  obtain ⟨caller, inside, _, across⟩ :=
    wellFormed.exists_calling (complete.reachable_of originHolds) old initial
  have leads := Construction.goto_ne_nil_iff.mpr ⟨caller, inside, across⟩
  obtain ⟨target, enters⟩ := complete.exists_enters originHolds leads
  have known := wellFormed.construction_inRange.head_lt production (List.mem_of_getElem? found)
  refine ⟨production, earlier, target, old, split, ?_⟩
  rw [popped]
  exact (Tables.goto_cell_iff complete originHolds).mpr ⟨known, leads, enters⟩

theorem upright (wellFormed : grammar.WellFormed)
    (sound : Sound grammar actions scan config symbols trees) : config.Upright grammar where
  parallel := by rw [sound.linked.length_eq, sound.length_attributes]
  bottom := sound.linked.getLast?_eq
  chained := wellFormed.isChain_of_linked sound.linked
  answered := sound.exists_action
  pops := by
    intro index asked
    obtain ⟨production, earlier, target, old, split, enters⟩ :=
      sound.exists_replaced wellFormed asked
    have states := sound.linked.length_eq
    have attributes := sound.length_attributes
    rw [split, List.length_append, List.length_reverse] at states attributes
    have above : production.body.length < config.states.length := by omega
    have popped := popAbove_eq_drop _ _ above
    refine ⟨production, target, Grammar.construction_of_found old, above, popped,
      popAbove_eq_drop _ _ (by omega), ?_⟩
    rw [← popped]
    exact enters

end Sound

/-- A step from stacks in order ends for no want of a cell. -/
theorem Stops.of_upright {grammar : Grammar} {actions : Array Semantic} {config : Config}
    {outcome : Outcome} (upright : config.Upright grammar)
    (stops : Stops (.ofGrammar grammar) actions config outcome) :
    (∀ state nonterminal pos, outcome.verdict ≠ .rejected (.noGoto state nonterminal pos)) ∧
      ∀ length index, outcome.verdict ≠ .faulted (.outOfBounds length index) := by
  obtain ⟨action, answered⟩ := upright.answered
  -- The cells that a reduction consults are there, so it cannot stop at one of them.
  have entered : ∀ {index : Nat} {production : Production},
      (ParseTable.ofGrammar grammar).actionOn config.top config.lookahead = .ok (.reduce index) →
      (ParseTable.ofGrammar grammar).grammar.productions[index]? = some production →
      ∃ target, ParseTable.cell (ParseTable.ofGrammar grammar).tables.goto
        ((popAbove production.body.length config.states).headD 0) production.head =
          .ok (some target) := by
    intro index production asked found
    obtain ⟨known, target, listed, _, popped, _, enters⟩ := upright.pops index asked
    rw [found] at listed
    cases listed
    exact ⟨target, by rw [popped]; exact enters⟩
  cases stops with
  | outside fault missing =>
      rw [answered] at missing
      cases missing
  | refused asked => simp
  | accepted asked => simp
  | unreadable state error asked failed => simp
  | unknown index asked missing =>
      obtain ⟨production, _, found, _⟩ := upright.pops index asked
      rw [missing] at found
      cases found
  | failed index production error translator asked found ran => simp
  | overflowed index production translator asked found ran => simp
  | stranded index production head translator fault asked found ran missing =>
      obtain ⟨target, enters⟩ := entered asked found
      rw [enters] at missing
      cases missing
  | blocked index production head translator asked found ran empty =>
      obtain ⟨target, enters⟩ := entered asked found
      rw [enters] at empty
      cases empty

end Config

/-- Over the tables of any grammar that builds, every configuration that a run reaches has its
stacks in order, and no run ends for want of a cell of the tables. -/
theorem ParseTable.upright_of_parse {description : Description} {grammar : Grammar}
    (built : description.build = .ok grammar) (actions : Array Semantic) (source : String)
    (fuel : Nat) :
    (∀ config, (ParseTable.ofGrammar grammar).parse actions fuel source = .running config →
      config.Upright grammar) ∧
    ∀ outcome, (ParseTable.ofGrammar grammar).parse actions fuel source = .halted outcome →
      (∀ state nonterminal pos, outcome.verdict ≠ .rejected (.noGoto state nonterminal pos)) ∧
      ∀ length index, outcome.verdict ≠ .faulted (.outOfBounds length index) := by
  have wellFormed := Description.wellFormed_of_build built
  have reached : ∀ lookahead input last, (Scan.ofString source).next = .ok (lookahead, input) →
      Config.Reaches (.ofGrammar grammar) actions (.first lookahead input) last →
      last.Upright grammar := by
    intro lookahead input last fetched reaches
    obtain ⟨symbols, trees, sound⟩ :=
      (Config.Sound.first wellFormed fetched).of_reaches wellFormed reaches
    exact sound.upright wellFormed
  constructor
  · intro config running
    obtain ⟨lookahead, input, fetched, reaches⟩ := reaches_of_parse_running running
    exact reached lookahead input config fetched reaches
  · intro outcome halted
    rcases stops_of_parse_halted halted with
      ⟨error, rfl⟩ | ⟨lookahead, input, last, fetched, reaches, stops⟩
    · simp
    · exact stops.of_upright (reached lookahead input last fetched reaches)

/-- The tables of joined lists have conflicts, and the stacks stay in order all the same: here two
lists are about to be joined. -/
theorem ParseTable.upright_of_parse_joined :
    (ParseTable.ofGrammar .joined).conflicts ≠ [] ∧
    ∃ config, (ParseTable.ofGrammar .joined).parse #[] 4 ";;" = .running config ∧
      config.states = [3, 2, 0] ∧
      (ParseTable.ofGrammar .joined).actionOn config.top config.lookahead = .ok (.reduce 0) ∧
      config.Upright .joined := by
  have built : Description.joined.build = .ok .joined := by decide +kernel
  have running : (ParseTable.ofGrammar .joined).parse #[] 4 ";;" = .running
      ⟨[3, 2, 0], [.none, .none, .none], .endOfInput 2, ⟨[], none, 2⟩,
        { Translator.first with
          log := #[.step 1 [0] ";" ";" (.shift 1), .step 2 [1, 0] ";" ";" (.reduce 1),
            .step 3 [2, 0] ";" ";" (.shift 1), .step 4 [1, 2, 0] "" "$" (.reduce 1)] }, 4⟩ := by
    decide +kernel
  exact ⟨by decide +kernel, _, running, rfl, by decide +kernel,
    (upright_of_parse built #[] ";;" 4).1 _ running⟩

end ThreeAddress

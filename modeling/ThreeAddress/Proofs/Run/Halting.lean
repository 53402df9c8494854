import ThreeAddress.Proofs.Run.Settle

/-!
Runs over tables without conflicts halt, if every symbol that occurs can vanish or begin with a
token. A grammar with a symbol that can do neither shows that this is needed: some items are lost
with it, and the conflict that would have stopped a cycle of reductions is lost with them.
-/

set_option autoImplicit false

namespace ThreeAddress

namespace Config

/-- The run from the configuration comes to an end. -/
def Ends (table : ParseTable) (actions : Array Semantic) (config : Config) : Prop :=
  ∃ last outcome, Reaches table actions config last ∧ last.step table actions = .halted outcome

theorem ends_of_moves {table : ParseTable} {actions : Array Semantic} {config : Config}
    (ends : ∀ next, Moves table actions config next → Ends table actions next) :
    Ends table actions config := by
  cases step : config.step table actions with
  | halted outcome => exact ⟨config, outcome, .refl config, step⟩
  | running next =>
      have moves := moves_of_step step
      obtain ⟨last, outcome, reaches, halts⟩ := ends next moves
      exact ⟨last, outcome, .step config next last moves reaches, halts⟩

namespace Sound

variable {grammar : Grammar} {actions : Array Semantic} {scan : Scan} {config : Config}
  {symbols : List Symbol} {trees : List (Tree Token)} {terminal count : Nat}

/-- While the lookahead stays the same, the stack settles; after that fewer tokens are ahead. -/
theorem ends_of_settles (wellFormed : grammar.WellFormed)
    (fewer : ∀ next symbols trees, Sound grammar actions scan next symbols trees →
      scan.tokens.length - (trees.flatMap Tree.leaves).length < count →
      Ends (.ofGrammar grammar) actions next)
    (settles : (ParseTable.ofGrammar grammar).Settles terminal config.states)
    (known : (ParseTable.ofGrammar grammar).terminal? config.lookahead = some terminal)
    (sound : Sound grammar actions scan config symbols trees)
    (ahead : scan.tokens.length - (trees.flatMap Tree.leaves).length = count) :
    Ends (.ofGrammar grammar) actions config := by
  generalize stack : config.states = states at settles
  induction settles generalizing config symbols trees with
  | intro states _ ih =>
      subst stack
      refine ends_of_moves fun next moves => ?_
      cases moves with
      | shift state lookahead input asked fetched =>
          obtain ⟨id, after⟩ := sound.shift wellFormed asked fetched
          refine fewer _ _ _ after ?_
          have bound := after.leaves_le
          simp only [List.flatMap_append, List.flatMap_singleton, Tree.leaves_leaf,
            List.length_append, List.length_singleton] at bound ⊢
          omega
      | reduce index production head translator target asked found ran enters =>
          obtain ⟨earlier, left, right, _, rfl, after⟩ :=
            sound.reduce wellFormed asked found ran enters
          obtain ⟨id, read, entry⟩ := ParseTable.actionOn_eq_ok asked (by simp)
          rw [known] at read
          cases read
          refine ih _ (.intro index target production entry found enters) known after ?_ rfl
          rw [← ahead]
          simp only [List.flatMap_append, List.flatMap_singleton, Tree.leaves_node]

theorem ends (wellFormed : grammar.WellFormed)
    (settles : ∀ terminal states symbols,
      grammar.construction.Linked grammar.construction.collection.sets states symbols →
      (ParseTable.ofGrammar grammar).Settles terminal states)
    (sound : Sound grammar actions scan config symbols trees) :
    Ends (.ofGrammar grammar) actions config := by
  generalize ahead : scan.tokens.length - (trees.flatMap Tree.leaves).length = count
  induction count using Nat.strong_induction_on generalizing config symbols trees with
  | _ count ih =>
      have fewer : ∀ next symbols trees, Sound grammar actions scan next symbols trees →
          scan.tokens.length - (trees.flatMap Tree.leaves).length < count →
          Ends (.ofGrammar grammar) actions next :=
        fun next symbols trees after less => ih _ less after rfl
      cases known : (ParseTable.ofGrammar grammar).terminal? config.lookahead with
      | some terminal =>
          exact sound.ends_of_settles wellFormed fewer (settles terminal _ _ sound.linked) known ahead
      | none =>
          -- A token that is no terminal is an error in every state.
          have refused : (ParseTable.ofGrammar grammar).actionOn config.top config.lookahead =
              .ok .error := by
            rw [ParseTable.actionOn, known]
          refine ends_of_moves fun next moves => ?_
          cases moves with
          | shift _ _ _ asked _ =>
              rw [refused] at asked
              cases asked
          | reduce _ _ _ _ _ asked _ _ _ =>
              rw [refused] at asked
              cases asked

end Sound

end Config

/-- Over tables without conflicts every run halts, if each nonterminal that occurs in a form derived
from the start symbol derives nothing or a form that begins with a token. -/
theorem ParseTable.halts_of_no_conflicts {description : Description} {grammar : Grammar}
    (built : description.build = .ok grammar)
    (clean : (ParseTable.ofGrammar grammar).conflicts = [])
    (live : ∀ id, grammar.Occurs id → grammar.Live id) (actions : Array Semantic)
    (source : String) :
    ∃ outcome, (ParseTable.ofGrammar grammar).Halts actions source outcome := by
  have wellFormed := Description.wellFormed_of_build built
  cases fetched : (Scan.ofString source).next with
  | error error => exact ⟨_, 0, parse_of_error fetched 0⟩
  | ok both =>
      obtain ⟨lookahead, input⟩ := both
      have sound : Config.Sound grammar actions (Scan.ofString source) (.first lookahead input) []
        [] := .first wellFormed fetched
      obtain ⟨last, outcome, reaches, step⟩ := sound.ends wellFormed
        fun terminal states symbols linked => Grammar.settles_of_linked wellFormed clean live linked
      exact ⟨outcome, halts_of_reaches fetched reaches step⟩

/-- Lists that never end, with an empty mark before each semicolon. -/
def Description.endless : Description :=
  ((Description.addTokens {} [";"]).rule "list" ["mark", ";", "list"]).rule "mark" []

def Grammar.endless : Grammar :=
  ⟨[";"], ["list", "mark"], [⟨0, [.nonterminal 1, .token 0, .nonterminal 0]⟩, ⟨1, []⟩],
    ⟨[(0, [0]), (1, [1])]⟩, 0⟩

/-- No list of this grammar is complete, but runs halt all the same. -/
theorem ParseTable.halts_of_no_conflicts_endless :
    (∀ id, Grammar.endless.Occurs id → Grammar.endless.Live id) ∧
      ∃ outcome, (ParseTable.ofGrammar .endless).Halts #[] ";;" outcome := by
  have built : Description.endless.build = .ok .endless := by decide +kernel
  have vanishing : Grammar.endless.Derives [.nonterminal 1] [] :=
    .step [] [] 1 ⟨1, []⟩ _ rfl (.refl [])
  have beginning : Grammar.endless.Derives [.nonterminal 0] [.token 0, .nonterminal 0] := by
    refine .step [] [] 0 ⟨0, [.nonterminal 1, .token 0, .nonterminal 0]⟩ _ rfl ?_
    exact .step [] [.token 0, .nonterminal 0] 1 ⟨1, []⟩ _ rfl (.refl _)
  have live : ∀ id, Grammar.endless.Occurs id → Grammar.endless.Live id := by
    intro id occurs
    have known : id < 2 := occurs.lt (Description.wellFormed_of_build built)
    match id, known with
    | 0, _ => exact .inr ⟨0, [.nonterminal 0], beginning⟩
    | 1, _ => exact .inl vanishing
  exact ⟨live, halts_of_no_conflicts built (by decide +kernel) live #[] ";;"⟩

/-- Lists of an item, a mark and a rest. An item can be empty or an item again, and a rest goes on
for ever, so that nothing can be expected after a mark. -/
def Description.stalling : Description :=
  (((((Description.addTokens {} [";", "="]).rule "list" ["item", "mark", "rest"]).rule "item"
    ["item"]).rule "item" []).rule "mark" [";"]).rule "rest" ["rest", "="]

def Grammar.stalling : Grammar :=
  ⟨[";", "="], ["list", "item", "mark", "rest"],
    [⟨0, [.nonterminal 1, .nonterminal 2, .nonterminal 3]⟩, ⟨1, [.nonterminal 1]⟩, ⟨1, []⟩,
      ⟨2, [.token 0]⟩, ⟨3, [.nonterminal 3, .token 1]⟩],
    ⟨[(0, [0]), (1, [1, 2]), (2, [3]), (3, [4])]⟩, 0⟩

/-- An item is reduced to an item for ever. -/
theorem Config.run_stalling {config : Config} (states : config.states = [2, 0])
    (known : (ParseTable.ofGrammar .stalling).terminal? config.lookahead = some 0) (fuel : Nat)
    (outcome : Outcome) : config.run (.ofGrammar .stalling) #[] fuel ≠ .halted outcome := by
  induction fuel generalizing config with
  | zero => exact Progress.noConfusion
  | succ fuel ih =>
      have asked : (ParseTable.ofGrammar .stalling).actionOn config.top config.lookahead =
          .ok (.reduce 1) := by
        rw [ParseTable.actionOn, known, top, states]
        decide +kernel
      have enters : ParseTable.cell (ParseTable.ofGrammar .stalling).tables.goto
          ((popAbove 1 config.states).headD 0) 1 = .ok (some 2) := by
        rw [states]
        decide +kernel
      have moves : Moves (.ofGrammar .stalling) #[] config _ :=
        .reduce 1 ⟨1, [.nonterminal 1]⟩ .none _ 2 asked rfl rfl enters
      rw [Config.run, moves.step]
      refine ih ?_ known
      simp [states, popAbove]

/-- There are tables without conflicts over which a run never halts. -/
theorem ParseTable.not_halts_stalling :
    Description.stalling.build = .ok .stalling ∧
      (ParseTable.ofGrammar .stalling).conflicts = [] ∧
      ¬∃ outcome, (ParseTable.ofGrammar .stalling).Halts #[] ";" outcome := by
  refine ⟨by decide +kernel, by decide +kernel, ?_⟩
  rintro ⟨outcome, fuel, halted⟩
  have fetched : (Scan.ofString ";").next = .ok (⟨.delimiter, ";", 0⟩, ⟨[], none, 1⟩) := by
    decide +kernel
  rw [parse_of_next fetched] at halted
  have asked : (ParseTable.ofGrammar .stalling).actionOn 0 ⟨.delimiter, ";", 0⟩ =
      .ok (.reduce 2) := by
    decide +kernel
  have enters : cell (ParseTable.ofGrammar .stalling).tables.goto 0 1 = .ok (some 2) := by
    decide +kernel
  have moves : Config.Moves (.ofGrammar .stalling) #[] (.first ⟨.delimiter, ";", 0⟩ ⟨[], none, 1⟩) _ :=
    .reduce 2 ⟨1, []⟩ .none _ 2 asked rfl rfl enters
  cases fuel with
  | zero => cases halted
  | succ fuel =>
      rw [Config.run, moves.step] at halted
      refine Config.run_stalling ?_ ?_ fuel outcome halted
      · rfl
      · decide +kernel

end ThreeAddress

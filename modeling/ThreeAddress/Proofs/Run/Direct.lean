import ThreeAddress.Proofs.Run.Sound

/-!
Runs with the item sets themselves on the stack. They do what runs over the tables do, but need only
the sets that they enter, so that they can be evaluated where the tables are too large.
-/

set_option autoImplicit false

namespace ThreeAddress

/-- What a set of items decides on a token. -/
inductive Choice where
  | shift
  | reduce (production : Nat)
  | accept
deriving Repr, DecidableEq

namespace Construction

/-- What an item asks for on a token. -/
def wish? (construction : Construction) (id : Nat) (item : Item) : Option Choice :=
  match item.nextSymbol construction.grammar with
  | some (.token token) => if token = id then some .shift else none
  | some (.nonterminal _) => none
  | none =>
    if item.lookahead = id then
      if item.production = construction.acceptProduction ∧ item.lookahead = construction.eof then
        some .accept
      else
        some (.reduce item.production)
    else
      none

/-- The first item that asks for anything decides. -/
def choice? (construction : Construction) (items : ItemSet) (id : Nat) : Option Choice :=
  items.findSome? (construction.wish? id)

end Construction

/-- A configuration with item sets in place of states. -/
structure Direct where
  sets : List ItemSet
  attributes : List Attribute
  lookahead : Token
  input : Scan
  translator : Translator
deriving Repr, DecidableEq

namespace Direct

/-- Enters the set reached over a symbol. -/
def enter? (construction : Construction) (symbol : Symbol) (sets : List ItemSet) :
    Option (List ItemSet) :=
  match construction.goto (sets.headD []) symbol with
  | [] => none
  | items => some (items :: sets)

def shift? (construction : Construction) (id : Nat) (direct : Direct) : Option Direct :=
  match enter? construction (.token id) direct.sets, direct.input.next with
  | some sets, .ok (lookahead, input) =>
    some
      { direct with
        sets
        attributes := .token direct.lookahead.text direct.lookahead.start :: direct.attributes
        lookahead
        input }
  | _, _ => none

def reduce? (construction : Construction) (actions : Array Semantic) (index : Nat)
    (direct : Direct) : Option Direct :=
  match construction.grammar.productions[index]? with
  | none => none
  | some production =>
    match Reduction.run (actions.getD index .nothing) direct.attributes direct.lookahead.start
        direct.translator,
      enter? construction (.nonterminal production.head)
        (popAbove production.body.length direct.sets) with
    | .ok head translator, some sets =>
      some
        { direct with
          sets
          attributes := head :: popAbove production.body.length direct.attributes
          translator := { translator with log := #[] } }
    | _, _ => none

/-- What a run compiles in at most `fuel` steps, if it accepts. -/
def run (construction : Construction) (reads : Token → Option Nat) (actions : Array Semantic) :
    (fuel : Nat) → Direct → Option Compiled
  | 0, _ => none
  | fuel + 1, direct =>
    match reads direct.lookahead with
    | none => none
    | some id =>
      match construction.choice? (direct.sets.headD []) id with
      | none => none
      | some .accept => some direct.translator.finish
      | some .shift => (direct.shift? construction id).bind (run construction reads actions fuel)
      | some (.reduce index) =>
        (direct.reduce? construction actions index).bind (run construction reads actions fuel)

/-- What a source is compiled to in at most `fuel` steps, if it is accepted. -/
def compile? (construction : Construction) (reads : Token → Option Nat) (actions : Array Semantic)
    (fuel : Nat) (source : String) : Option Compiled :=
  match (Scan.ofString source).next with
  | .error _ => none
  | .ok (lookahead, input) =>
    run construction reads actions fuel
      ⟨[construction.startItems], [.none], lookahead, input, .first⟩

end Direct

/-- The choice of a set of items is the action of its state. -/
inductive Choice.Means (construction : Construction) (sets : Array ItemSet) (items : ItemSet)
    (id : Nat) : Choice → Action → Prop where
  | shift (target : Nat) (enters : sets[target]? = some (construction.goto items (.token id))) :
      Means construction sets items id .shift (.shift target)
  | reduce (production : Nat) : Means construction sets items id (.reduce production)
      (.reduce production)
  | accept : Means construction sets items id .accept .accept

namespace Collection.Complete

variable {construction : Construction} {collection : Collection} {state : Nat} {items : ItemSet}
  {id : Nat}

theorem actionWrite?_of_wish? (complete : Complete construction collection)
    (holds : collection.sets[state]? = some items) {item : Item} (member : item ∈ items)
    {choice : Choice} (wish : construction.wish? id item = some choice) :
    ∃ action, construction.actionWrite? (collection.transitionsAt state) item = some ⟨id, action⟩ ∧
      choice.Means construction collection.sets items id action := by
  unfold Construction.wish? at wish
  split at wish
  · rename_i token next
    split at wish
    · rename_i same
      subst same
      cases wish
      have leads := Construction.goto_ne_nil_iff.mpr ⟨item, member, next⟩
      obtain ⟨target, enters⟩ := complete.exists_enters holds leads
      refine ⟨.shift target, ?_, .shift target enters⟩
      rw [Construction.actionWrite?, next]
      simp only [(complete.lookup_iff holds).mpr ⟨leads, enters⟩, Option.map_some]
    · cases wish
  · cases wish
  · rename_i next
    split at wish
    · rename_i same
      subst same
      split at wish
      · rename_i last
        cases wish
        refine ⟨.accept, ?_, .accept⟩
        rw [Construction.actionWrite?, next]
        exact if_pos last
      · rename_i inner
        cases wish
        refine ⟨.reduce item.production, ?_, .reduce _⟩
        rw [Construction.actionWrite?, next]
        exact if_neg inner
    · cases wish

theorem cell_ne_of_wish? {item : Item} (wish : construction.wish? id item = none)
    {write : Write Action}
    (asked : construction.actionWrite? (collection.transitionsAt state) item = some write) :
    write.cell ≠ id := by
  unfold Construction.actionWrite? at asked
  split at asked
  · rename_i token next
    obtain ⟨target, _, rfl⟩ := Option.map_eq_some_iff.mp asked
    rintro rfl
    simp [Construction.wish?, next] at wish
  · cases asked
  · rename_i next
    have other : item.lookahead ≠ id := by
      rintro rfl
      rw [Construction.wish?, next] at wish
      simp only [↓reduceIte] at wish
      split at wish <;> cases wish
    split at asked
    · cases asked
      exact other
    · cases asked
      exact other

/-- The first item that asks for anything on a token writes the cell. -/
theorem kept?_of_findSome? (complete : Complete construction collection)
    (holds : collection.sets[state]? = some items) {choice : Choice} {rest : ItemSet}
    (inside : ∀ item ∈ rest, item ∈ items)
    (chosen : rest.findSome? (construction.wish? id) = some choice) :
    ∃ action,
      Write.kept? (rest.filterMap (construction.actionWrite? (collection.transitionsAt state))) id =
        some action ∧
      choice.Means construction collection.sets items id action := by
  induction rest with
  | nil => cases chosen
  | cons item rest ih =>
      rw [List.findSome?_cons] at chosen
      cases wish : construction.wish? id item with
      | some found =>
          rw [wish] at chosen
          cases chosen
          obtain ⟨action, asked, means⟩ :=
            complete.actionWrite?_of_wish? holds (inside item List.mem_cons_self) wish
          refine ⟨action, ?_, means⟩
          rw [List.filterMap_cons_some asked, Write.kept?, List.find?_cons_of_pos (by simp),
            Option.map_some]
      | none =>
          rw [wish] at chosen
          obtain ⟨action, kept, means⟩ :=
            ih (fun other member => inside other (List.mem_cons_of_mem _ member)) chosen
          refine ⟨action, ?_, means⟩
          cases asked : construction.actionWrite? (collection.transitionsAt state) item with
          | none => rw [List.filterMap_cons_none asked, kept]
          | some write =>
              have other := cell_ne_of_wish? wish asked
              rw [List.filterMap_cons_some asked, Write.kept?, List.find?_cons_of_neg (by simpa)]
              exact kept

theorem cell_of_choice? (complete : Complete construction collection)
    (holds : collection.sets[state]? = some items) (known : id < construction.grammar.tokens.length)
    {choice : Choice} (chosen : construction.choice? items id = some choice) :
    ∃ action,
      ParseTable.cell (Tables.fill construction collection).action state id = .ok action ∧
      choice.Means construction collection.sets items id action := by
  obtain ⟨action, kept, means⟩ :=
    complete.kept?_of_findSome? holds (fun item member => member) chosen
  refine ⟨action, (Tables.action_cell holds).mpr ⟨known, ?_⟩, means⟩
  rw [Tables.actionWrites, itemsAt_eq holds, kept, Option.getD_some]

end Collection.Complete

theorem ParseTable.terminal?_lt {grammar : Grammar} {token : Token} {id : Nat}
    (known : (ParseTable.ofGrammar grammar).terminal? token = some id) :
    id < grammar.construction.grammar.tokens.length := by
  unfold terminal? at known
  split at known
  · cases known
    rw [Grammar.construction_tokens_length]
    exact Nat.lt_succ_self _
  · exact Description.idxOf?_lt known

namespace Direct

/-- The configuration has the states of the item sets, and agrees in all else but the log. -/
structure Follows (grammar : Grammar) (direct : Direct) (config : Config) : Prop where
  states : List.Forall₂
    (fun items state => grammar.construction.collection.sets[state]? = some items)
    direct.sets config.states
  attributes : config.attributes = direct.attributes
  lookahead : config.lookahead = direct.lookahead
  input : config.input = direct.input
  translator : ∃ log, config.translator = { direct.translator with log }

section Stacks

variable {holds : ItemSet → Nat → Prop} {sets : List ItemSet} {states : List Nat}

theorem holds_head (same : List.Forall₂ holds sets states) (entered : sets.headD [] ≠ []) :
    holds (sets.headD []) (states.headD 0) := by
  cases same with
  | nil => exact absurd rfl entered
  | cons top _ => exact top

theorem holds_popAbove (same : List.Forall₂ holds sets states) (count : Nat) :
    List.Forall₂ holds (popAbove count sets) (popAbove count states) := by
  induction count generalizing sets states with
  | zero =>
      rw [popAbove_zero, popAbove_zero]
      exact same
  | succ count ih =>
      cases same with
      | nil => exact .nil
      | cons top rest =>
          cases rest with
          | nil => exact .cons top .nil
          | cons next below => exact ih (.cons next below)

end Stacks

theorem enter?_eq_some {construction : Construction} {symbol : Symbol} {sets entered : List ItemSet}
    (enters : enter? construction symbol sets = some entered) :
    construction.goto (sets.headD []) symbol ≠ [] ∧
      entered = construction.goto (sets.headD []) symbol :: sets := by
  unfold enter? at enters
  split at enters
  · cases enters
  · rename_i leads
    cases enters
    exact ⟨leads, rfl⟩

theorem headD_ne_nil {construction : Construction} {symbol : Symbol} {items : ItemSet}
    (leads : construction.goto items symbol ≠ []) : items ≠ [] := by
  rintro rfl
  exact leads rfl

namespace Follows

variable {grammar : Grammar} {actions : Array Semantic} {direct next : Direct} {config : Config}

theorem top_holds (follows : direct.Follows grammar config) (entered : direct.sets.headD [] ≠ []) :
    grammar.construction.collection.sets[config.top]? = some (direct.sets.headD []) :=
  holds_head follows.states entered

theorem actionOn (wellFormed : grammar.WellFormed) (follows : direct.Follows grammar config)
    {id : Nat} {choice : Choice}
    (known : (ParseTable.ofGrammar grammar).terminal? direct.lookahead = some id)
    (chosen : grammar.construction.choice? (direct.sets.headD []) id = some choice) :
    ∃ action, (ParseTable.ofGrammar grammar).actionOn config.top config.lookahead = .ok action ∧
      choice.Means grammar.construction grammar.construction.collection.sets
        (direct.sets.headD []) id action := by
  have entered : direct.sets.headD [] ≠ [] := by
    intro empty
    rw [empty] at chosen
    cases chosen
  rw [ParseTable.actionOn, follows.lookahead, known]
  exact wellFormed.proper.collection_complete.cell_of_choice? (follows.top_holds entered)
    (ParseTable.terminal?_lt known) chosen

theorem shift (wellFormed : grammar.WellFormed) (follows : direct.Follows grammar config) {id : Nat}
    (known : (ParseTable.ofGrammar grammar).terminal? direct.lookahead = some id)
    (chosen : grammar.construction.choice? (direct.sets.headD []) id = some .shift)
    (shifted : direct.shift? grammar.construction id = some next) :
    ∃ after, Config.Moves (.ofGrammar grammar) actions config after ∧
      next.Follows grammar after := by
  obtain ⟨action, asked, means⟩ := follows.actionOn wellFormed known chosen
  cases means with
  | shift target enters =>
      unfold shift? at shifted
      split at shifted
      · rename_i sets lookahead input entered fetched
        obtain ⟨_, rfl⟩ := enter?_eq_some entered
        cases shifted
        rw [← follows.input] at fetched
        obtain ⟨log, translator⟩ := follows.translator
        refine ⟨_, .shift target lookahead input asked fetched, .cons enters follows.states, ?_, rfl,
          rfl, ?_⟩
        · rw [follows.attributes, follows.lookahead]
        · refine ⟨(config.logged (.ofGrammar grammar) (.shift target)).log, ?_⟩
          rw [Config.logged, translator]
          rfl
      · cases shifted

theorem reduce (wellFormed : grammar.WellFormed) (follows : direct.Follows grammar config)
    {id index : Nat}
    (known : (ParseTable.ofGrammar grammar).terminal? direct.lookahead = some id)
    (chosen : grammar.construction.choice? (direct.sets.headD []) id = some (.reduce index))
    (reduced : direct.reduce? grammar.construction actions index = some next) :
    ∃ after, Config.Moves (.ofGrammar grammar) actions config after ∧
      next.Follows grammar after := by
  have complete := wellFormed.proper.collection_complete
  obtain ⟨action, asked, means⟩ := follows.actionOn wellFormed known chosen
  cases means with
  | reduce _ =>
      unfold reduce? at reduced
      split at reduced
      · cases reduced
      · rename_i production found
        split at reduced
        · rename_i head translator sets ran entered
          obtain ⟨leads, rfl⟩ := enter?_eq_some entered
          cases reduced
          have popped := holds_popAbove follows.states production.body.length
          have below := holds_head popped (headD_ne_nil leads)
          obtain ⟨target, enters⟩ := complete.exists_enters below leads
          have headKnown := wellFormed.construction_inRange.head_lt production
            (List.mem_of_getElem? found)
          have entry := (Tables.goto_cell_iff complete below).mpr ⟨headKnown, leads, enters⟩
          obtain ⟨log, same⟩ := follows.translator
          -- The action does the same whatever has been logged before.
          obtain ⟨events, _, again⟩ := Reduction.quiet_run _ _ _ _ _ _ ran
          have logged : config.logged (.ofGrammar grammar) (.reduce index) =
              { direct.translator with
                log := (config.logged (.ofGrammar grammar) (.reduce index)).log } := by
            rw [Config.logged, same]
            rfl
          have rerun := again (config.logged (.ofGrammar grammar) (.reduce index)).log
          rw [← logged, ← follows.attributes, ← follows.lookahead] at rerun
          refine ⟨_, .reduce index production head _ target asked found rerun entry,
            .cons enters popped, ?_, follows.lookahead, follows.input, _, rfl⟩
          rw [follows.attributes]
        · cases reduced

/-- What a run over item sets compiles, the run over the tables accepts. -/
theorem accepted (wellFormed : grammar.WellFormed) {fuel : Nat} {compiled : Compiled}
    (follows : direct.Follows grammar config)
    (ran : direct.run grammar.construction (ParseTable.ofGrammar grammar).terminal? actions fuel =
      some compiled) :
    ∃ last outcome, Config.Reaches (.ofGrammar grammar) actions config last ∧
      last.step (.ofGrammar grammar) actions = .halted outcome ∧
      outcome.verdict = .accepted compiled := by
  induction fuel generalizing direct config with
  | zero => cases ran
  | succ fuel ih =>
      unfold run at ran
      split at ran
      · cases ran
      · rename_i id known
        split at ran
        · cases ran
        · rename_i chosen
          obtain ⟨action, asked, means⟩ := follows.actionOn wellFormed known chosen
          cases means
          cases ran
          obtain ⟨outcome, step, verdict, _⟩ := Config.step_of_accept actions asked
          obtain ⟨log, translator⟩ := follows.translator
          refine ⟨config, outcome, .refl config, step, ?_⟩
          rw [verdict, translator]
          rfl
        · rename_i chosen
          obtain ⟨next, shifted, later⟩ := Option.bind_eq_some_iff.mp ran
          obtain ⟨after, moves, again⟩ := follows.shift wellFormed known chosen shifted
          obtain ⟨last, outcome, reaches, step, verdict⟩ := ih again later
          exact ⟨last, outcome, .step config after last moves reaches, step, verdict⟩
        · rename_i index chosen
          obtain ⟨next, reduced, later⟩ := Option.bind_eq_some_iff.mp ran
          obtain ⟨after, moves, again⟩ := follows.reduce wellFormed known chosen reduced
          obtain ⟨last, outcome, reaches, step, verdict⟩ := ih again later
          exact ⟨last, outcome, .step config after last moves reaches, step, verdict⟩

end Follows

/-- A source that a run over item sets compiles is accepted with the same result. -/
theorem halts_of_compile? {grammar : Grammar} (wellFormed : grammar.WellFormed)
    {actions : Array Semantic} {fuel : Nat} {source : String} {compiled : Compiled}
    (ran : compile? grammar.construction (ParseTable.ofGrammar grammar).terminal? actions fuel source =
      some compiled) :
    ∃ outcome, (ParseTable.ofGrammar grammar).Halts actions source outcome ∧
      outcome.verdict = .accepted compiled := by
  unfold compile? at ran
  split at ran
  · cases ran
  · rename_i lookahead input fetched
    have follows : Follows grammar
        ⟨[grammar.construction.startItems], [.none], lookahead, input, .first⟩
        (.first lookahead input) :=
      ⟨.cons wellFormed.proper.collection_complete.start .nil, rfl, rfl, rfl, _, rfl⟩
    obtain ⟨last, outcome, reaches, step, verdict⟩ := follows.accepted wellFormed ran
    exact ⟨outcome, ParseTable.halts_of_reaches fetched reaches step, verdict⟩

end Direct

end ThreeAddress

import ThreeAddress.Proofs.Language.Compiled
import ThreeAddress.Proofs.Language.Loops
import ThreeAddress.Proofs.Meaning.Jumps
import ThreeAddress.Proofs.Run.Abreast

/-!
Breaks follow the nesting of loops. A break is refused exactly if it stands in no loop of the syntax
tree, although the translator never sees the tree: while the break is read, the loops around it are
those that are open on the stack.
-/

set_option autoImplicit false

namespace ThreeAddress

namespace Tree

variable {α β : Type} {actions : Array Semantic}

/-- The tree is the marker at the beginning of a loop. -/
def opensLoop (actions : Array Semantic) : Tree α → Bool
  | .leaf _ => false
  | .node index _ => actions.getD index .nothing == .loopEnter

@[simp] theorem opensLoop_map (rename : α → β) (tree : Tree α) :
    (tree.map rename).opensLoop actions = tree.opensLoop actions := by
  cases tree <;> simp [opensLoop]

/-- The trees are a break. -/
def areBreak : List (Tree String) → Bool
  | [word, ending] => word.spells "break" && ending.spells ";"
  | _ => false

/-- The trees are a loop: they begin with the word of one, which is not all. -/
def areLoop : List (Tree String) → Bool
  | word :: _ :: _ => word.spells "while" || word.spells "do"
  | _ => false

/-- Some break of the tree stands in no loop. -/
inductive Stray : Tree String → Prop where
  | here (index : Nat) (children : List (Tree String)) (leaves : areBreak children = true) :
      Stray (.node index children)
  | inside (index : Nat) (children : List (Tree String)) (child : Tree String)
      (member : child ∈ children) (outside : areLoop children = false) (stray : Stray child) :
      Stray (.node index children)

theorem not_stray_leaf (text : String) : ¬(leaf text).Stray := by
  intro stray
  cases stray

end Tree

section Forest

variable {actions : Array Semantic} {roles : List Role} {trees left right : List (Tree Token)}
  {index : Nat}

/-- Nothing but a break looks like one. -/
theorem Semantic.areBreak_iff {action : Semantic} {body : List Role} {head : Role}
    (fits : action.fits body head = true) (shown : List.Forall₂ Role.Shows body right) :
    Tree.areBreak (right.map (Tree.map Token.text)) = true ↔ action = .breakLoop := by
  rcases shown with _ | ⟨first, _ | ⟨second, _ | ⟨_, _⟩⟩⟩
  · cases fitting_of_fits fits <;> simp [Tree.areBreak]
  · cases fitting_of_fits fits <;> simp [Tree.areBreak]
  · cases fitting_of_fits fits with
    | unary op =>
        have other : op.text ≠ "break" := by cases op <;> decide
        simp [Tree.areBreak, first.spells_eq, other]
    | _ => simp [Tree.areBreak, first.spells_eq, second.spells_eq]
  · cases fitting_of_fits fits <;> simp [Tree.areBreak]

/-- Nothing but a loop looks like one. -/
theorem Semantic.areLoop_iff {action : Semantic} {body : List Role} {head : Role}
    (fits : action.fits body head = true) (shown : List.Forall₂ Role.Shows body right) :
    Tree.areLoop (right.map (Tree.map Token.text)) = true ↔
      action = .whileLoop ∨ action = .doWhile := by
  rcases shown with _ | ⟨first, _ | ⟨second, _⟩⟩
  · cases fitting_of_fits fits <;> simp [Tree.areLoop]
  · cases fitting_of_fits fits <;> simp [Tree.areLoop]
  · cases fitting_of_fits fits with
    | unary op =>
        have other : op.text ≠ "while" ∧ op.text ≠ "do" := by cases op <;> decide
        simp [Tree.areLoop, first.spells_eq, other]
    | _ => simp [Tree.areLoop, first.spells_eq]

/-- There are as many markers of loops among the trees as their roles say. -/
theorem Shaped.count_loops (shaped : Shaped actions roles trees) :
    roles.count .loop = trees.countP (Tree.opensLoop actions) := by
  induction shaped with
  | nil => rfl
  | leaf token word? roles trees _ _ ih => simp [Tree.opensLoop, ih]
  | node index head body roles children trees fits _ _ _ ih =>
      have opens := (Semantic.loops_of_fits fits).2
      rw [List.count_cons, List.countP_cons, ih]
      simp [Tree.opensLoop, opens]

/-- A loop begins with a word and the marker that opens it. -/
theorem Shaped.exists_opening {body : List Role} {head : Role}
    (fits : (actions.getD index .nothing).fits body head = true)
    (closes : (actions.getD index .nothing).closes ≠ 0) (shaped : Shaped actions body right) :
    ∃ token marker rest, right = .leaf token :: .node marker [] :: rest ∧
      actions.getD marker .nothing = .loopEnter := by
  generalize actions.getD index .nothing = action at fits closes
  have starts : ∃ word? roles, body = .token word? :: .loop :: roles := by
    cases Semantic.fitting_of_fits fits with
    | whileLoop => exact ⟨_, _, rfl⟩
    | doWhile => exact ⟨_, _, rfl⟩
    | _ => exact absurd rfl closes
  obtain ⟨word?, roles, rfl⟩ := starts
  cases shaped with
  | leaf token _ _ trees _ rest =>
      cases rest with
      | node marker _ inner _ children rest opens inside _ =>
          have enters := (Semantic.loops_of_fits opens).2.mp rfl
          rw [enters] at opens
          cases Semantic.fitting_of_fits opens with
          | loopEnter =>
              cases inside with
              | nil => exact ⟨token, marker, rest, rfl, enters⟩
  | node other _ inner _ _ _ fits _ _ =>
      generalize actions.getD other .nothing = action at fits
      cases Semantic.fitting_of_fits fits

/-- Some tree has a stray break, with no marker of a loop before it. -/
def Exposed (actions : Array Semantic) (trees : List (Tree Token)) : Prop :=
  ∃ front tree back, trees = front ++ tree :: back ∧
    (∀ before ∈ front, before.opensLoop actions = false) ∧ (tree.map Token.text).Stray

@[simp] theorem not_exposed_nil : ¬Exposed actions [] := by
  rintro ⟨front, tree, back, same, _⟩
  simp at same

@[simp] theorem exposed_cons {tree : Tree Token} :
    Exposed actions (tree :: trees) ↔
      (tree.map Token.text).Stray ∨ tree.opensLoop actions = false ∧ Exposed actions trees := by
  constructor
  · rintro ⟨front, found, back, same, closed, stray⟩
    cases front with
    | nil =>
        cases same
        exact .inl stray
    | cons first front =>
        cases same
        obtain ⟨shut, rest⟩ := List.forall_mem_cons.mp closed
        exact .inr ⟨shut, front, found, back, rfl, rest, stray⟩
  · rintro (stray | ⟨shut, front, found, back, rfl, closed, stray⟩)
    · exact ⟨[], tree, trees, rfl, by simp, stray⟩
    · exact ⟨tree :: front, found, back, rfl, List.forall_mem_cons.mpr ⟨shut, closed⟩, stray⟩

theorem exposed_singleton {tree : Tree Token} :
    Exposed actions [tree] ↔ (tree.map Token.text).Stray := by
  simp

/-- Where a loop is opened does not depend on the texts of trees. -/
theorem closed_of_map_eq {others : List (Tree Token)}
    (same : trees.map (Tree.map Token.text) = others.map (Tree.map Token.text))
    (closed : ∀ before ∈ trees, before.opensLoop actions = false) :
    ∀ before ∈ others, before.opensLoop actions = false := by
  intro before member
  have renamed : before.map Token.text ∈ trees.map (Tree.map Token.text) := by
    rw [same]
    exact List.mem_map_of_mem member
  obtain ⟨own, inside, equal⟩ := List.mem_map.mp renamed
  rw [← Tree.opensLoop_map Token.text before, ← equal, Tree.opensLoop_map]
  exact closed own inside

/-- A stray break stands in the first trees, or in later ones that no loop is opened before. -/
theorem exposed_append :
    Exposed actions (left ++ right) ↔ Exposed actions left ∨
      (∀ before ∈ left, before.opensLoop actions = false) ∧ Exposed actions right := by
  induction left with
  | nil => simp
  | cons tree left ih =>
      rw [List.cons_append, exposed_cons, exposed_cons, ih, List.forall_mem_cons]
      tauto

/-- The body of a loop has no stray break before the loop is open. -/
theorem Shaped.not_exposed {body : List Role} {head : Role}
    (fits : (actions.getD index .nothing).fits body head = true)
    (closes : (actions.getD index .nothing).closes ≠ 0) (shaped : Shaped actions body right) :
    ¬Exposed actions right := by
  obtain ⟨token, marker, rest, rfl, enters⟩ := shaped.exists_opening fits closes
  rw [exposed_cons, exposed_cons]
  rintro (early | ⟨_, inMarker | ⟨shut, _⟩⟩)
  · exact Tree.not_stray_leaf token.text early
  · cases inMarker with
    | here _ _ leaves => cases leaves
    | inside _ _ _ member _ _ => cases member
  · rw [Tree.opensLoop, enters] at shut
    cases shut

/-- A node has a stray break exactly if it is one, or there is one among its children before a loop
is opened there. -/
theorem Shaped.stray_node_iff {body : List Role} {head : Role}
    (fits : (actions.getD index .nothing).fits body head = true)
    (shaped : Shaped actions body right) :
    ((Tree.node index right).map Token.text).Stray ↔
      actions.getD index .nothing = .breakLoop ∨ Exposed actions right := by
  have leaves := Semantic.areBreak_iff fits shaped.shows
  have loops := Semantic.areLoop_iff fits shaped.shows
  rw [Tree.map_node]
  constructor
  · intro stray
    cases stray with
    | here _ _ broken => exact .inl (leaves.mp broken)
    | inside _ _ child member outside found =>
        right
        have none : right.countP (Tree.opensLoop actions) = 0 := by
          rw [← shaped.count_loops, (Semantic.loops_of_fits fits).1, Semantic.closes_eq_zero,
            ← not_or, ← loops, outside]
          exact Bool.false_ne_true
        obtain ⟨origin, own, rfl⟩ := List.mem_map.mp member
        obtain ⟨front, back, rfl⟩ := List.append_of_mem own
        refine ⟨front, origin, back, rfl, ?_, found⟩
        intro before early
        simpa using List.countP_eq_zero.mp none before (List.mem_append_left _ early)
  · rintro (acts | exposed)
    · exact .here index _ (leaves.mpr acts)
    · have outside : (actions.getD index .nothing).closes = 0 := by
        by_contra closes
        exact shaped.not_exposed fits closes exposed
      rw [Semantic.closes_eq_zero, ← not_or, ← loops, Bool.not_eq_true] at outside
      obtain ⟨front, tree, back, rfl, _, stray⟩ := exposed
      exact .inside index _ _ (by simp) outside stray

/-- With a node in place of its children nothing changes, but for a break that now stands in no
loop. -/
theorem Shaped.exposed_node_iff (shaped : Shaped actions roles (left ++ [.node index right])) :
    Exposed actions (left ++ [.node index right]) ↔ Exposed actions (left ++ right) ∨
      (∀ before ∈ left, before.opensLoop actions = false) ∧
        actions.getD index .nothing = .breakLoop := by
  obtain ⟨body, head, fits, inside⟩ := shaped.exists_last
  rw [exposed_append, exposed_append, exposed_cons, inside.stray_node_iff fits]
  have none : ¬Exposed actions [] := not_exposed_nil
  tauto

end Forest

/-- A translation stopped by the size of an array. -/
def Verdict.OfSize : Verdict → Prop
  | .rejected (.translate (.badArraySize _) _) => True
  | .faulted .sizeOverflow => True
  | _ => False

theorem Failure.OfSize.verdict {failure : Failure} (ofSize : failure.OfSize) (pos : Nat) :
    (failure.verdict pos).OfSize := by
  cases failure with
  | sizeOverflow => trivial
  | error cause =>
      cases cause with
      | badArraySize text => trivial
      | _ => cases ofSize

namespace Language

variable {grammar : Grammar} {scan : Scan} {config next last : Config} {symbols : List Symbol}
  {trees : List (Tree Token)} {actions : Array Semantic}

/-- While a source is read, whatever its semantic actions do, a break in no loop stays one. The next
move can be the reduction of such a break. -/
theorem exposed_of_moves (described : description.build = .ok grammar)
    (sound : config.Sound grammar actions scan symbols trees)
    (moves : Config.Moves (.ofGrammar grammar) actions config next)
    (exposed : Exposed ruleActions trees ∨
      (∀ before ∈ trees, before.opensLoop ruleActions = false) ∧
        ∃ index, (ParseTable.ofGrammar grammar).actionOn config.top config.lookahead =
          .ok (.reduce index) ∧ ruleActions.getD index .nothing = .breakLoop) :
    ∃ symbols trees, next.Sound grammar actions scan symbols trees ∧ Exposed ruleActions trees := by
  have wellFormed := Description.wellFormed_of_build described
  cases moves with
  | shift state lookahead input asked fetched =>
      obtain ⟨id, after⟩ := sound.shift wellFormed asked fetched
      refine ⟨_, _, after, exposed_append.mpr (.inl ?_)⟩
      rcases exposed with already | ⟨_, index, reduces, _⟩
      · exact already
      · rw [asked] at reduces
        cases reduces
  | reduce index production head translator target asked found ran enters =>
      obtain ⟨earlier, left, right, rfl, rfl, after⟩ :=
        sound.reduce wellFormed asked found ran enters
      refine ⟨_, _, after, (shaped_of_parses described after.parses).exposed_node_iff.mpr ?_⟩
      rcases exposed with already | ⟨closed, other, reduces, acts⟩
      · exact .inl already
      · rw [asked] at reduces
        cases reduces
        exact .inr ⟨fun before member => closed before (List.mem_append_left _ member), acts⟩

theorem exposed_of_reaches (described : description.build = .ok grammar)
    (sound : config.Sound grammar actions scan symbols trees)
    (reaches : Config.Reaches (.ofGrammar grammar) actions config last)
    (exposed : Exposed ruleActions trees) :
    ∃ symbols trees, last.Sound grammar actions scan symbols trees ∧ Exposed ruleActions trees := by
  apply reaches.keeps ?_ ⟨symbols, trees, sound, exposed⟩
  rintro config next ⟨symbols, trees, sound, exposed⟩ moves
  exact exposed_of_moves described sound moves (.inl exposed)

/-- While a source is translated, the open loops of the translator are those on the stack, and all
breaks so far stand in loops. -/
structure InLoops (grammar : Grammar) (scan : Scan) (config : Config) (symbols : List Symbol)
    (trees : List (Tree Token)) : Prop where
  sound : config.Sound grammar ruleActions scan symbols trees
  typed : Typed grammar symbols config.attributes
  breaks : config.translator.breaks = loopExits config.attributes
  closed : ¬Exposed ruleActions trees

namespace InLoops

theorem first (wellFormed : grammar.WellFormed) {lookahead : Token} {input : Scan}
    (fetched : scan.next = .ok (lookahead, input)) :
    InLoops grammar scan (.first lookahead input) [] [] :=
  ⟨.first wellFormed fetched, .bottom, rfl, not_exposed_nil⟩

/-- A loop is open for each marker among the trees. -/
theorem countP_eq (inLoops : InLoops grammar scan config symbols trees)
    (described : description.build = .ok grammar) :
    trees.countP (Tree.opensLoop ruleActions) = config.translator.breaks.length := by
  have shaped := shaped_of_parses described inLoops.sound.parses
  rw [← shaped.count_loops, List.map_reverse, List.count_reverse, inLoops.breaks,
    inLoops.typed.length_loopExits]

/-- One step keeps the open loops in line. -/
theorem of_moves (inLoops : InLoops grammar scan config symbols trees)
    (described : description.build = .ok grammar)
    (moves : Config.Moves (.ofGrammar grammar) ruleActions config next) :
    ∃ symbols trees, InLoops grammar scan next symbols trees := by
  have wellFormed := Description.wellFormed_of_build described
  have sound := inLoops.sound
  cases moves with
  | shift state lookahead input asked fetched =>
      obtain ⟨id, after⟩ := sound.shift wellFormed asked fetched
      refine ⟨_, _, after, .push _ _ _ _ rfl inLoops.typed, inLoops.breaks, ?_⟩
      rw [exposed_append, exposed_cons]
      rintro (already | ⟨_, here | ⟨_, later⟩⟩)
      · exact inLoops.closed already
      · exact Tree.not_stray_leaf _ here
      · exact not_exposed_nil later
  | reduce index production head translator target asked found ran enters =>
      obtain ⟨old, _⟩ := sound.exists_reduced wellFormed asked found
      have count := inLoops.countP_eq described
      have closed := inLoops.closed
      obtain ⟨earlier, left, right, rfl, rfl, after⟩ :=
        sound.reduce wellFormed asked found ran enters
      have leaves := Reduction.leaves_of_run ran
      obtain ⟨serves, typed⟩ := inLoops.typed.reduce described sound asked old ran
      refine ⟨_, _, after, typed,
        inLoops.typed.breaks_reduce described old leaves serves inLoops.breaks, ?_⟩
      have shaped := shaped_of_parses described after.parses
      rw [shaped.exposed_node_iff]
      rintro (already | ⟨shut, acts⟩)
      · exact closed already
      · -- A break succeeds in an open loop only, and its own children open none.
        obtain ⟨body, role, fits, inside⟩ := shaped.exists_last
        rw [acts] at leaves fits
        cases leaves with
        | breakLoop exit outer opened =>
            have opened : config.translator.breaks = exit :: outer := opened
            have none : left.countP (Tree.opensLoop ruleActions) = 0 := by
              rw [List.countP_eq_zero]
              intro before member
              simp [shut before member]
            rw [List.countP_append, none, ← inside.count_loops, (Semantic.loops_of_fits fits).1,
              opened] at count
            cases count

/-- A run keeps the open loops in line. -/
theorem of_reaches (inLoops : InLoops grammar scan config symbols trees)
    (described : description.build = .ok grammar)
    (reaches : Config.Reaches (.ofGrammar grammar) ruleActions config last) :
    ∃ symbols trees, InLoops grammar scan last symbols trees := by
  apply reaches.keeps ?_ ⟨symbols, trees, inLoops⟩
  rintro config next ⟨symbols, trees, inLoops⟩ moves
  exact inLoops.of_moves described moves

/-- If not for the size of an array, an action fails for a break with no loop open. -/
theorem break_of_fails (inLoops : InLoops grammar scan config symbols trees)
    (described : description.build = .ok grammar) {index : Nat} {failure : Failure}
    {after : Translator} (fails : config.Fails (.ofGrammar grammar) ruleActions index failure after)
    (noSize : ¬failure.OfSize) :
    ruleActions.getD index .nothing = .breakLoop ∧ failure = .error .breakOutsideLoop ∧
      ∀ before ∈ trees, before.opensLoop ruleActions = false := by
  rcases Reduction.failure_of_run fails.ran with (ofSize | ⟨action, rfl⟩) | ⟨acts, none, rfl⟩
  · exact absurd ofSize noSize
  · have filled := inLoops.typed.filled_of_asked described inLoops.sound fails.asked
    exact absurd fails.ran ((Reduction.yields_run filled _).error _ _ _)
  · have closed : config.translator.breaks = [] := none
    have count := inLoops.countP_eq described
    rw [closed, List.length_nil, List.countP_eq_zero] at count
    exact ⟨acts, rfl, fun before member => by simpa using count before member⟩

/-- Where the table accepts, the translation is accepted with a tree in which no break is stray. -/
theorem exists_accepted {source : String}
    (inLoops : InLoops grammar (.ofString source) config symbols trees)
    (described : description.build = .ok grammar)
    (asked : (ParseTable.ofGrammar grammar).actionOn config.top config.lookahead = .ok .accept) :
    ∃ outcome compiled tree, config.step (.ofGrammar grammar) ruleActions = .halted outcome ∧
      outcome.verdict = .accepted compiled ∧
      Accepts grammar ruleActions source outcome compiled tree ∧ ¬(tree.map Token.text).Stray := by
  obtain ⟨outcome, halted, verdict, _⟩ := Config.step_of_accept ruleActions asked
  obtain ⟨tree, rfl, accepts⟩ :=
    inLoops.sound.accepts (Description.wellFormed_of_build described) halted verdict
  exact ⟨outcome, _, tree, halted, verdict, accepts,
    fun stray => inLoops.closed (exposed_singleton.mpr stray)⟩

end InLoops

/-- The code of an accepted source is laid out for the program in its syntax tree, and no label is
defined twice. -/
theorem exists_laid (described : description.build = .ok grammar) {source : String}
    {outcome : Outcome} {compiled : Compiled} {tree : Tree Token}
    (accepts : Accepts grammar ruleActions source outcome compiled tree) :
    ∃ program, Stmt.read (tree.map Token.text) = some program ∧
      program.Laid none compiled.code.toList ∧ (labelsOf compiled.code.toList).Nodup := by
  obtain ⟨program, read, nested, translator, rfl, holds⟩ := exists_program described accepts
  have code : translator.finish.code.toList = program.code [] .first := holds.code_eq
  rw [code]
  exact ⟨program, read, program.laid_code [] .first nested, (program.drawn_code [] .first).1⟩

/-- If a run goes past a break with no loop open and accepts in the end, the break is stray in its
tree. -/
theorem stray_of_break (described : description.build = .ok grammar) {source : String}
    {outcome : Outcome} {compiled : Compiled} {index : Nat}
    (sound : config.Sound grammar actions (.ofString source) symbols trees)
    (closed : ∀ before ∈ trees, before.opensLoop ruleActions = false)
    (asked : (ParseTable.ofGrammar grammar).actionOn config.top config.lookahead =
      .ok (.reduce index))
    (acts : ruleActions.getD index .nothing = .breakLoop)
    (moves : Config.Moves (.ofGrammar grammar) actions config next)
    (reaches : Config.Reaches (.ofGrammar grammar) actions next last)
    (step : last.step (.ofGrammar grammar) actions = .halted outcome)
    (accepted : outcome.verdict = .accepted compiled) :
    ∃ tree : Tree String, outcome.trees (ParseTable.ofGrammar grammar).grammar = [tree] ∧
      tree.Stray := by
  obtain ⟨_, _, past, exposed⟩ :=
    exposed_of_moves described sound moves (.inr ⟨closed, index, asked, acts⟩)
  obtain ⟨_, _, lastSound, still⟩ := exposed_of_reaches described past reaches exposed
  obtain ⟨tree, rfl, accepts⟩ :=
    lastSound.accepts (Description.wellFormed_of_build described) step accepted
  exact ⟨tree.map Token.text, accepts.trees, exposed_singleton.mp still⟩

/-- The open loops of a translation are those on the stack of attributes. A source that can be read
is refused for a break exactly if one stands in no loop of its syntax tree, and otherwise each break
goes to the exit at the end of the innermost loop around it; all this unless the size of an array
stops the translation. -/
theorem translate_breaks {language : Language} (built : build = .ok language) (source : String) :
    (∀ fuel config, language.table.parse language.actions fuel source = .running config →
      config.translator.breaks = loopExits config.attributes) ∧
    ∀ reading compiled, language.table.Halts #[] source reading →
      reading.verdict = .accepted compiled →
      ∃ (tree : Tree String) (outcome : Outcome),
        reading.trees language.table.grammar = [tree] ∧
        language.table.Halts language.actions source outcome ∧
        (¬outcome.verdict.OfSize →
          ((∃ pos, outcome.verdict = .rejected (.translate .breakOutsideLoop pos)) ↔
            tree.Stray) ∧
          (¬tree.Stray →
            ∃ translated program, outcome.verdict = .accepted translated ∧
              outcome.trees language.table.grammar = [tree] ∧
              Stmt.read tree = some program ∧
              program.Laid none translated.code.toList ∧
              (labelsOf translated.code.toList).Nodup)) := by
  obtain ⟨grammar, described, rfl⟩ := build_ok built
  have wellFormed := Description.wellFormed_of_build described
  constructor
  · intro fuel config running
    obtain ⟨lookahead, input, fetched, reaches⟩ := ParseTable.reaches_of_parse_running running
    obtain ⟨symbols, trees, inLoops⟩ :=
      (InLoops.first wellFormed fetched).of_reaches described reaches
    exact inLoops.breaks
  intro reading compiled halts accepted
  obtain ⟨tree, accepts⟩ := halts.accepts wellFormed accepted
  obtain ⟨lookahead, input, last, fetched, reaches, step⟩ := halts.reaches accepted
  rcases (Config.Abreast.first lookahead input).of_reaches ruleActions reaches with
    ⟨own, ownReaches, abreast⟩ |
      ⟨stop, beside, beyond, index, failure, after, ownReaches, fails, abreast, before, moves, rest⟩
  · -- No action fails: both runs end with the same tree, and no break in it is stray.
    obtain ⟨_, _, inLoops⟩ := (InLoops.first wellFormed fetched).of_reaches described ownReaches
    obtain ⟨outcome, translated, ownTree, halted, verdict, ownAccepts, inside⟩ :=
      inLoops.exists_accepted described
        (abreast.actionOn_eq.trans (Config.accepted_of_step step accepted).1)
    have shown : outcome.trees (ParseTable.ofGrammar grammar).grammar = [tree.map Token.text] :=
      (abreast.shown_eq halted step verdict accepted _).trans accepts.trees
    have same : ownTree.map Token.text = tree.map Token.text :=
      List.singleton_inj.mp (ownAccepts.trees.symm.trans shown)
    have notStray : ¬(tree.map Token.text).Stray :=
      fun stray => inside (same ▸ stray)
    refine ⟨tree.map Token.text, outcome, accepts.trees,
      ParseTable.halts_of_reaches fetched ownReaches halted, fun _ => ⟨?_, fun _ => ?_⟩⟩
    · rw [verdict]
      exact ⟨fun refused => by simp at refused, fun stray => absurd stray notStray⟩
    · obtain ⟨program, read, laid, nodup⟩ := exists_laid described ownAccepts
      exact ⟨translated, program, verdict, shown, same ▸ read, laid, nodup⟩
  · -- An action fails: the other run goes on past the break to the end.
    obtain ⟨_, _, inLoops⟩ := (InLoops.first wellFormed fetched).of_reaches described ownReaches
    refine ⟨tree.map Token.text, _, accepts.trees,
      ParseTable.halts_of_reaches fetched ownReaches fails.step, fun noSize => ?_⟩
    obtain ⟨acts, rfl, closed⟩ := inLoops.break_of_fails described fails
      fun ofSize => noSize (ofSize.verdict _)
    obtain ⟨_, _, sound⟩ := (Config.Sound.first wellFormed fetched).of_reaches wellFormed before
    have otherClosed := closed_of_map_eq (abreast.trees_eq inLoops.sound sound) closed
    obtain ⟨strayTree, shown, stray⟩ := stray_of_break described sound otherClosed
      (abreast.actionOn_eq.symm.trans fails.asked) acts moves rest step accepted
    rw [List.singleton_inj.mp (shown.symm.trans accepts.trees)] at stray
    exact ⟨⟨fun _ => stray, fun _ => ⟨_, rfl⟩⟩, fun inside => absurd stray inside⟩

/-- Loops of both kinds, one in a block of the other, with breaks out of each. -/
def leaving : String :=
  "\x7b while (a) \x7b do if (b) break; while (c); break; \x7d \x7d"

theorem translate_breaks_leaving :
    ∃ language reading compiled tree outcome translated program, build = .ok language ∧
      language.table.Halts #[] leaving reading ∧ reading.verdict = .accepted compiled ∧
      reading.trees language.table.grammar = [tree] ∧
      language.table.Halts language.actions leaving outcome ∧ ¬outcome.verdict.OfSize ∧
      ¬tree.Stray ∧
      outcome.verdict = .accepted translated ∧
      Stmt.read tree = some program ∧
      program.Laid none translated.code.toList ∧
      translated.code.toList =
        [.label ⟨0⟩, .ifFalse "a" ⟨1⟩, .label ⟨2⟩, .ifFalse "b" ⟨4⟩, .goto ⟨3⟩, .label ⟨4⟩,
          .ifTrue "c" ⟨2⟩, .label ⟨3⟩, .goto ⟨1⟩, .goto ⟨0⟩, .label ⟨1⟩] := by
  have ran : Direct.compile? construction (ParseTable.ofGrammar grammar).terminal?
      (rules.map Rule.action).toArray 100 leaving =
      some ⟨#[.label ⟨0⟩, .ifFalse "a" ⟨1⟩, .label ⟨2⟩, .ifFalse "b" ⟨4⟩, .goto ⟨3⟩, .label ⟨4⟩,
          .ifTrue "c" ⟨2⟩, .label ⟨3⟩, .goto ⟨1⟩, .goto ⟨0⟩, .label ⟨1⟩], ⟨[], 1, 0⟩, #[]⟩ := by
    decide +kernel
  rw [← construction_eq] at ran
  obtain ⟨outcome, halts, accepted⟩ := Direct.halts_of_compile? wellFormed ran
  obtain ⟨reading, compiled, readingHalts, readingAccepted⟩ := halts.reading accepted
  obtain ⟨tree, found, trees, foundHalts, shown⟩ :=
    (translate_breaks build_eq leaving).2 reading _ readingHalts readingAccepted
  obtain rfl := foundHalts.unique halts
  have noSize : ¬found.verdict.OfSize := by
    rw [accepted]
    exact id
  obtain ⟨refused, laid⟩ := shown noSize
  have inside : ¬tree.Stray := by
    rw [← refused, accepted]
    simp
  obtain ⟨translated, program, verdict, _, programRead, layout, _⟩ := laid inside
  rw [accepted] at verdict
  cases verdict
  exact ⟨_, reading, _, tree, found, _, program, build_eq, readingHalts, readingAccepted, trees,
    halts, noSize, inside, accepted, programRead, layout, rfl⟩

end Language

end ThreeAddress

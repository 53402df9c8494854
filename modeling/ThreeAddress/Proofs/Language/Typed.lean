import ThreeAddress.Proofs.Language.Reads
import ThreeAddress.Proofs.Language.Roles
import ThreeAddress.Proofs.Run.Upright

/-!
The attributes on the stack of the language are those that its semantic actions ask for. What a
symbol carries is told by its role, and whatever an action reads is carried by a symbol of its own
body or, for a marker, of the body that the marker stands in.
-/

set_option autoImplicit false

namespace ThreeAddress

/-- What the attribute of a symbol of the role can be read as, if it is not empty. -/
def Role.use? : Role → Option Use
  | .token _ | .location | .value => some .operand
  | .test | .otherwise => some .label
  | .loop => some .loop
  | .typing | .statement | .block | .loopTest | .scope => none

namespace Language

variable {grammar : Grammar}

/-- Above an empty attribute at the bottom, each symbol carries an attribute for the use of its
role. -/
inductive Typed (grammar : Grammar) : List Symbol → List Attribute → Prop where
  | bottom : Typed grammar [] [.none]
  | push (symbol : Symbol) (held : Attribute) (symbols : List Symbol) (stack : List Attribute)
      (serves : held.Serves (symbolRole grammar symbol).use?) (below : Typed grammar symbols stack) :
      Typed grammar (symbol :: symbols) (held :: stack)

namespace Typed

variable {symbols : List Symbol} {stack : List Attribute}

theorem length_eq (typed : Typed grammar symbols stack) : stack.length = symbols.length + 1 := by
  induction typed with
  | bottom => rfl
  | push _ _ _ _ _ _ ih => rw [List.length_cons, ih, List.length_cons]

theorem exists_serves (typed : Typed grammar symbols stack) {depth : Nat} {symbol : Symbol}
    (found : symbols[depth]? = some symbol) :
    ∃ held, stack[depth]? = some held ∧ held.Serves (symbolRole grammar symbol).use? := by
  induction typed generalizing depth with
  | bottom => cases found
  | push top held _ _ serves _ ih =>
      cases depth with
      | zero =>
          cases found
          exact ⟨held, rfl, serves⟩
      | succ depth => exact ih found

theorem drop {front earlier : List Symbol} (typed : Typed grammar (front ++ earlier) stack) :
    Typed grammar earlier (stack.drop front.length) := by
  induction front generalizing stack with
  | nil => exact typed
  | cons _ front ih =>
      cases typed with
      | push _ _ _ _ _ below => exact ih below

theorem popAbove {body earlier : List Symbol}
    (typed : Typed grammar (body.reverse ++ earlier) stack) :
    Typed grammar earlier (popAbove body.length stack) := by
  have length := typed.length_eq
  rw [List.length_append, List.length_reverse] at length
  rw [popAbove_eq_drop _ _ (by omega)]
  simpa using typed.drop

end Typed

/-- The action of a rule leaves what the role of its head carries. -/
theorem gives?_of_build (described : description.build = .ok grammar) {index : Nat}
    {production : Production} (found : grammar.productions[index]? = some production) :
    (ruleActions.getD index .nothing).gives? =
      (symbolRole grammar (.nonterminal production.head)).use? := by
  have checked : (description.build.map fun grammar =>
      grammar.productions.zipIdx.all fun entry =>
        decide ((ruleActions.getD entry.2 .nothing).gives? =
          (symbolRole grammar (.nonterminal entry.1.head)).use?)) = .ok true := by
    decide +kernel
  rw [described] at checked
  exact of_decide_eq_true (List.all_eq_true.mp (Except.ok.inj checked) (production, index)
    (List.mem_zipIdx_iff_getElem?.mpr found))

/-- The symbols, from the top of the stack, have the slots that the action reads. -/
def provides (grammar : Grammar) (symbols : List Symbol) (action : Semantic) : Bool :=
  action.reads.all fun slot =>
    decide ((symbols[slot.depth]?.map fun symbol => (symbolRole grammar symbol).use?) =
      some (some slot.use))

/-- Wherever the head of a rule stands in a body, the symbols before it and the body of the rule
have the slots that the action of the rule reads. -/
theorem provides_of_build (described : description.build = .ok grammar) {index outer dot : Nat}
    {production calling : Production} (found : grammar.productions[index]? = some production)
    (callingFound : grammar.construction.grammar.productions[outer]? = some calling)
    (stands : calling.body[dot]? = some (.nonterminal production.head)) :
    provides grammar ((calling.body.take dot ++ production.body).reverse)
      (ruleActions.getD index .nothing) = true := by
  have checked : (description.build.map fun grammar =>
      grammar.productions.zipIdx.all fun entry =>
        grammar.construction.grammar.productions.all fun calling =>
          (List.range calling.body.length).all fun dot =>
            decide (calling.body[dot]? ≠ some (.nonterminal entry.1.head)) ||
              provides grammar ((calling.body.take dot ++ entry.1.body).reverse)
                (ruleActions.getD entry.2 .nothing)) = .ok true := by
    decide +kernel
  rw [described] at checked
  have each := List.all_eq_true.mp (Except.ok.inj checked) (production, index)
    (List.mem_zipIdx_iff_getElem?.mpr found)
  have inside := (List.getElem?_eq_some_iff.mp stands).1
  have place := List.all_eq_true.mp
    (List.all_eq_true.mp each calling (List.mem_of_getElem? callingFound)) dot
    (List.mem_range.mpr inside)
  simpa [stands] using place

/-- Slots that the topmost symbols have are filled. -/
theorem Typed.filled {front earlier : List Symbol} {stack : List Attribute} {action : Semantic}
    (typed : Typed grammar (front ++ earlier) stack)
    (provided : provides grammar front action = true) :
    ∀ slot ∈ action.reads, slot.Filled stack := by
  intro slot listed
  have known := of_decide_eq_true (List.all_eq_true.mp provided slot listed)
  obtain ⟨symbol, found, use⟩ := Option.map_eq_some_iff.mp known
  have inside := (List.getElem?_eq_some_iff.mp found).1
  obtain ⟨held, there, serves⟩ := typed.exists_serves
    ((List.getElem?_append_left inside).trans found)
  rw [use] at serves
  exact ⟨held, there, serves⟩

variable {scan : Scan} {config : Config} {symbols : List Symbol} {trees : List (Tree Token)}

/-- A reduction finds the slots filled that its action reads. -/
theorem Typed.filled_of_asked (described : description.build = .ok grammar)
    (typed : Typed grammar symbols config.attributes)
    (sound : config.Sound grammar ruleActions scan symbols trees) {index : Nat}
    (asked : (ParseTable.ofGrammar grammar).actionOn config.top config.lookahead =
      .ok (.reduce index)) :
    ∀ slot ∈ (ruleActions.getD index .nothing).reads, slot.Filled config.attributes := by
  have wellFormed := Description.wellFormed_of_build described
  have complete := wellFormed.proper.collection_complete
  obtain ⟨production, _, _, old, _, _⟩ := sound.exists_replaced wellFormed asked
  obtain ⟨_, _, _, origin, under, origins, earlier, _, _, _, bottom, originHolds, initial, _, rfl⟩ :=
    sound.exists_reduced wellFormed asked (Grammar.construction_of_found old)
  -- Under the body stands the part of a body that comes before the head.
  have reachable := complete.reachable_of originHolds
  obtain ⟨caller, inside, _, across⟩ := wellFormed.exists_calling reachable old initial
  obtain ⟨calling, callingFound, _, _⟩ := reachable.fits wellFormed.proper caller inside
  obtain ⟨_, _, _, rest, _, _, _, _, rfl⟩ := bottom.exists_initial originHolds inside
  rw [Item.nextSymbol, Grammar.bodyOf_eq callingFound] at across
  rw [Grammar.bodyOf_eq callingFound, ← List.append_assoc, ← List.reverse_append] at typed
  exact typed.filled (provides_of_build described old callingFound across)

/-- A reduction leaves an attribute for the use of its action, and the stack is well typed with it in
place of the body. -/
theorem Typed.reduce (described : description.build = .ok grammar) {index : Nat}
    {production : Production} {earlier : List Symbol} {head : Attribute}
    {translator after : Translator}
    (typed : Typed grammar (production.body.reverse ++ earlier) config.attributes)
    (sound : config.Sound grammar ruleActions scan (production.body.reverse ++ earlier) trees)
    (asked : (ParseTable.ofGrammar grammar).actionOn config.top config.lookahead =
      .ok (.reduce index))
    (found : grammar.productions[index]? = some production)
    (ran : Reduction.run (ruleActions.getD index .nothing) config.attributes
      config.lookahead.start translator = .ok head after) :
    head.Serves (ruleActions.getD index .nothing).gives? ∧
      Typed grammar (.nonterminal production.head :: earlier)
        (head :: ThreeAddress.popAbove production.body.length config.attributes) := by
  have filled := typed.filled_of_asked described sound asked
  have serves := (Reduction.yields_run filled _).value _ _ _ ran
  refine ⟨serves, ?_⟩
  rw [gives?_of_build described found] at serves
  exact .push _ head _ _ serves typed.popAbove

/-- One step keeps the stack well typed. -/
theorem Typed.of_moves (described : description.build = .ok grammar) {next : Config}
    (typed : Typed grammar symbols config.attributes)
    (sound : config.Sound grammar ruleActions scan symbols trees)
    (moves : Config.Moves (.ofGrammar grammar) ruleActions config next) :
    ∃ symbols trees, next.Sound grammar ruleActions scan symbols trees ∧
      Typed grammar symbols next.attributes := by
  have wellFormed := Description.wellFormed_of_build described
  cases moves with
  | shift state lookahead input asked fetched =>
      obtain ⟨id, after⟩ := sound.shift wellFormed asked fetched
      exact ⟨_, _, after, .push _ _ _ _ rfl typed⟩
  | reduce index production head translator target asked found ran enters =>
      obtain ⟨old, _⟩ := sound.exists_reduced wellFormed asked found
      obtain ⟨earlier, left, right, rfl, rfl, after⟩ :=
        sound.reduce wellFormed asked found ran enters
      exact ⟨_, _, after, (typed.reduce described sound asked old ran).2⟩

/-- A run keeps the stack well typed. -/
theorem Typed.of_reaches (described : description.build = .ok grammar) {last : Config}
    (typed : Typed grammar symbols config.attributes)
    (sound : config.Sound grammar ruleActions scan symbols trees)
    (reaches : Config.Reaches (.ofGrammar grammar) ruleActions config last) :
    ∃ symbols trees, last.Sound grammar ruleActions scan symbols trees ∧
      Typed grammar symbols last.attributes := by
  apply reaches.keeps ?_ ⟨symbols, trees, sound, typed⟩
  rintro config next ⟨symbols, trees, sound, typed⟩ moves
  exact typed.of_moves described sound moves

/-- A source is never refused for want of an attribute. At each reduction, every slot that the
semantic action reads is there and holds what it is read as, and nothing else of the stack matters
to the action. -/
theorem translate_typed :
    ∃ language, build = .ok language ∧ ∀ source,
      (∀ fuel config index,
        language.table.parse language.actions fuel source = .running config →
        language.table.actionOn config.top config.lookahead = .ok (.reduce index) →
        (∀ slot ∈ (language.actions.getD index .nothing).reads,
          slot.Filled config.attributes) ∧
        ∀ stack, (∀ slot ∈ (language.actions.getD index .nothing).reads,
            stack[slot.depth]? = config.attributes[slot.depth]?) →
          Reduction.run (language.actions.getD index .nothing) stack =
            Reduction.run (language.actions.getD index .nothing) config.attributes) ∧
      ∀ outcome, language.translate source = some outcome →
        ∀ action pos, outcome.verdict ≠ .rejected (.translate (.missingAttribute action) pos) := by
  have described := description_build
  have wellFormed := Description.wellFormed_of_build described
  refine ⟨_, build_eq, fun source => ?_⟩
  have reached : ∀ lookahead input last, (Scan.ofString source).next = .ok (lookahead, input) →
      Config.Reaches (.ofGrammar grammar) ruleActions (.first lookahead input) last →
      ∀ index, (ParseTable.ofGrammar grammar).actionOn last.top last.lookahead =
        .ok (.reduce index) →
        ∀ slot ∈ (ruleActions.getD index .nothing).reads, slot.Filled last.attributes := by
    intro lookahead input last fetched reaches index asked
    obtain ⟨symbols, trees, sound, typed⟩ :=
      Typed.of_reaches described .bottom (Config.Sound.first wellFormed fetched) reaches
    exact typed.filled_of_asked described sound asked
  constructor
  · intro fuel config index running asked
    obtain ⟨lookahead, input, fetched, reaches⟩ := ParseTable.reaches_of_parse_running running
    exact ⟨reached lookahead input config fetched reaches index asked,
      fun stack same => Reduction.run_congr same⟩
  · intro outcome translated action pos refused
    obtain ⟨fuel, halted⟩ := halts_of_translate translated
    rcases ParseTable.stops_of_parse_halted halted with
      ⟨error, rfl⟩ | ⟨lookahead, input, last, fetched, reaches, stops⟩
    · cases refused
    · cases stops with
      | failed index production error translator asked found ran =>
          cases refused
          have filled := reached lookahead input last fetched reaches index asked
          exact (Reduction.yields_run filled _).error _ _ _ ran
      | _ => cases refused

end Language

end ThreeAddress

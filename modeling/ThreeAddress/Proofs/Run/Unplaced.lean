import ThreeAddress.Proofs.Run.Step
import ThreeAddress.Proofs.Token.Layout

/-!
Runs without places. Offsets into the source are handed on and never looked at: a run from which all
offsets are taken away goes the same way and ends the same, but for the offsets in its results.
-/

set_option autoImplicit false

namespace ThreeAddress

/-! The data of a run with every offset set to zero. -/

def Attribute.unplaced : Attribute → Attribute
  | .token text _ => .token text 0
  | held => held

def SymbolEntry.unplaced (entry : SymbolEntry) : SymbolEntry := { entry with pos := 0 }

def SymbolTable.unplaced (table : SymbolTable) : SymbolTable :=
  { table with entries := table.entries.map SymbolEntry.unplaced }

def Diagnostic.unplaced (diagnostic : Diagnostic) : Diagnostic := { diagnostic with pos := 0 }

def Event.unplaced : Event → Event
  | .defined entry => .defined entry.unplaced
  | event => event

def Translator.unplaced (translator : Translator) : Translator :=
  { translator with
    symbols := translator.symbols.unplaced
    diagnostics := translator.diagnostics.map Diagnostic.unplaced
    log := translator.log.map Event.unplaced }

def Compiled.unplaced (compiled : Compiled) : Compiled :=
  ⟨compiled.code, compiled.symbols.unplaced, compiled.diagnostics.map Diagnostic.unplaced⟩

def CompileError.unplaced : CompileError → CompileError
  | .grammar error => .grammar error
  | .lex error => .lex error.unplaced
  | .noAction state terminal _ => .noAction state terminal 0
  | .noGoto state nonterminal _ => .noGoto state nonterminal 0
  | .translate error _ => .translate error 0

def Verdict.unplaced : Verdict → Verdict
  | .accepted compiled => .accepted compiled.unplaced
  | .rejected error => .rejected error.unplaced
  | .faulted fault => .faulted fault

def Outcome.unplaced (outcome : Outcome) : Outcome :=
  ⟨outcome.verdict.unplaced, outcome.log.map Event.unplaced⟩

def Config.unplaced (config : Config) : Config :=
  { config with
    attributes := config.attributes.map Attribute.unplaced
    lookahead := config.lookahead.unplaced
    input := config.input.unplaced
    translator := config.translator.unplaced }

def Progress.unplaced : Progress → Progress
  | .running config => .running config.unplaced
  | .halted outcome => .halted outcome.unplaced

namespace SymbolTable

variable (table : SymbolTable)

theorem unplaced_exit : table.unplaced.exit = table.exit.unplaced := by
  by_cases outermost : table.depth = 0
  · simp [exit, unplaced, outermost]
  · simp only [exit, unplaced, outermost, ↓reduceIte, List.filter_map]
    rfl

theorem unplaced_lookup (name : String) :
    table.unplaced.lookup name = (table.lookup name).map SymbolEntry.unplaced := by
  simp only [lookup, unplaced, List.find?_map]
  rfl

end SymbolTable

namespace Translator

variable (translator : Translator)

@[simp] theorem unplaced_pendingSize :
    translator.unplaced.pendingSize = translator.pendingSize := rfl

@[simp] theorem unplaced_breaks : translator.unplaced.breaks = translator.breaks := rfl

theorem unplaced_record (event : Event) :
    translator.unplaced.record event.unplaced = (translator.record event).unplaced := by
  simp [record, unplaced]

theorem unplaced_append (instruction : Instruction) :
    translator.unplaced.append instruction = (translator.append instruction).unplaced := by
  simp [append, unplaced, Event.unplaced]

theorem unplaced_declare (name : String) (size pos : Nat) :
    translator.unplaced.declare name size 0 = (translator.declare name size pos).unplaced := by
  unfold declare SymbolTable.defineData SymbolTable.insert
  have found := translator.symbols.unplaced_lookup name
  change translator.unplaced.symbols.lookup name = _ at found
  rw [found]
  cases translator.symbols.lookup name with
  | none =>
      simp [unplaced, SymbolTable.unplaced, SymbolTable.fresh, Event.unplaced, SymbolEntry.unplaced]
  | some holder => simp [unplaced, Event.unplaced, Diagnostic.unplaced, SymbolEntry.unplaced]

end Translator

namespace Reduction

variable {α β : Type} {view : α → α} {other : β → β}

/-- A result with its value viewed in some way and no places in its translator. -/
def withoutPlaces (view : α → α) :
    EStateM.Result Failure Translator α → EStateM.Result Failure Translator α
  | .ok value translator => .ok (view value) translator.unplaced
  | .error failure translator => .error failure translator.unplaced

/-- The second computation does without places what the first does with them. -/
def Mirrors (view : α → α) (first second : Reduction α) : Prop :=
  ∀ translator, second translator.unplaced = withoutPlaces view (first translator)

theorem mirrors_pure {value viewed : α} (same : viewed = view value) :
    Mirrors view (pure value) (pure viewed) := by
  intro translator
  rw [same]
  rfl

theorem mirrors_throw (failure : Failure) :
    Mirrors view (throw failure : Reduction α) (throw failure) := fun _ => rfl

theorem mirrors_get : Mirrors Translator.unplaced (get : Reduction Translator) get := fun _ => rfl

theorem mirrors_modifyGet {first second : Translator → α × Translator}
    (same : ∀ translator, second translator.unplaced =
      (view (first translator).1, (first translator).2.unplaced)) :
    Mirrors view (modifyGet first : Reduction α) (modifyGet second) := by
  intro translator
  change EStateM.Result.ok (second translator.unplaced).1 (second translator.unplaced).2 = _
  rw [same]
  rfl

theorem mirrors_modify {first second : Translator → Translator}
    (same : ∀ translator, second translator.unplaced = (first translator).unplaced) :
    Mirrors id (modify first : Reduction Unit) (modify second) :=
  mirrors_modifyGet fun translator => by rw [same, id]

theorem Mirrors.bind {first second : Reduction α} {next after : α → Reduction β}
    (mirrors : Mirrors view first second)
    (later : ∀ value, Mirrors other (next value) (after (view value))) :
    Mirrors other (first >>= next) (second >>= after) := by
  intro translator
  have mirrored := mirrors translator
  cases began : first translator with
  | ok value middle =>
      rw [began] at mirrored
      rw [bind_of_ok next began, bind_of_ok after mirrored]
      exact later value middle
  | error failure middle =>
      rw [began] at mirrored
      rw [bind_of_error next began, bind_of_error after mirrored]
      rfl

theorem mirrors_emit (instruction : Instruction) :
    Mirrors id (emit instruction) (emit instruction) :=
  mirrors_modify fun translator => translator.unplaced_append instruction

theorem mirrors_newLabel : Mirrors id newLabel newLabel := mirrors_modifyGet fun _ => rfl

theorem mirrors_newTemporary : Mirrors id newTemporary newTemporary :=
  mirrors_modifyGet fun _ => rfl

theorem mirrors_declare (name : String) (size pos : Nat) :
    Mirrors id (declare name size pos) (declare name size 0) :=
  mirrors_modify fun translator => translator.unplaced_declare name size pos

theorem mirrors_setPendingType (type : String) :
    Mirrors id (setPendingType type) (setPendingType type) := mirrors_modify fun _ => rfl

theorem mirrors_setPendingSize (size : Nat) :
    Mirrors id (setPendingSize size) (setPendingSize size) := mirrors_modify fun _ => rfl

theorem mirrors_setLastName (name : String) : Mirrors id (setLastName name) (setLastName name) :=
  mirrors_modify fun _ => rfl

theorem mirrors_pushBreak (exit : Label) : Mirrors id (pushBreak exit) (pushBreak exit) :=
  mirrors_modify fun _ => rfl

theorem mirrors_popBreak : Mirrors id popBreak popBreak := mirrors_modify fun _ => rfl

theorem mirrors_enterScope : Mirrors id enterScope enterScope := mirrors_modify fun _ => rfl

theorem mirrors_exitScope : Mirrors id exitScope exitScope := by
  refine mirrors_modify fun translator => ?_
  change { translator.unplaced with symbols := translator.symbols.unplaced.exit } = _
  rw [SymbolTable.unplaced_exit]
  rfl

theorem mirrors_arraySize (text : String) : Mirrors id (arraySize text) (arraySize text) := by
  unfold arraySize
  split
  · exact mirrors_pure rfl
  · exact mirrors_throw _

theorem mirrors_growSize (size : Nat) : Mirrors id (growSize size) (growSize size) := by
  refine mirrors_get.bind fun translator => ?_
  dsimp only
  rw [Translator.unplaced_pendingSize]
  split
  · exact mirrors_pure rfl
  · split
    · exact mirrors_pure rfl
    · exact mirrors_throw _

theorem mirrors_innermostExit : Mirrors id innermostExit innermostExit := by
  refine mirrors_get.bind fun translator => ?_
  simp only [Translator.unplaced_breaks]
  split
  · exact mirrors_pure rfl
  · exact mirrors_throw _

section Slots

variable (action : Semantic) (stack : List Attribute) (depth : Nat)

theorem mirrors_slot : Mirrors Attribute.unplaced (slot action stack depth)
    (slot action (stack.map Attribute.unplaced) depth) := by
  unfold slot
  rw [List.getElem?_map]
  cases stack[depth]? with
  | none => exact mirrors_throw _
  | some held => exact mirrors_pure rfl

theorem mirrors_placeAt : Mirrors id (placeAt action stack depth)
    (placeAt action (stack.map Attribute.unplaced) depth) := by
  refine (mirrors_slot action stack depth).bind fun held => mirrors_pure ?_
  cases held <;> rfl

theorem mirrors_labelAt : Mirrors id (labelAt action stack depth)
    (labelAt action (stack.map Attribute.unplaced) depth) := by
  refine (mirrors_slot action stack depth).bind fun held => ?_
  cases held with
  | label _ => exact mirrors_pure rfl
  | _ => exact mirrors_throw _

theorem mirrors_loopAt : Mirrors id (loopAt action stack depth)
    (loopAt action (stack.map Attribute.unplaced) depth) := by
  refine (mirrors_slot action stack depth).bind fun held => ?_
  cases held with
  | loop _ _ => exact mirrors_pure rfl
  | _ => exact mirrors_throw _

end Slots

/-- An action does the same without places. -/
theorem mirrors_run (action : Semantic) (stack : List Attribute) (pos : Nat) :
    Mirrors Attribute.unplaced (run action stack pos)
      (run action (stack.map Attribute.unplaced) 0) := by
  have slots := mirrors_slot action stack
  have places := mirrors_placeAt action stack
  have labels := mirrors_labelAt action stack
  have loops := mirrors_loopAt action stack
  have finish : ∀ {head : Attribute}, head.unplaced = head →
      Mirrors Attribute.unplaced (pure head) (pure head) := fun same => mirrors_pure same.symm
  have started : ∀ held : Attribute, held.unplaced.start?.getD 0 = 0 := by
    intro held
    cases held <;> rfl
  have named : ∀ held : Attribute, held.unplaced.placeText = held.placeText := by
    intro held
    cases held <;> rfl
  cases action with
  | nothing => exact finish rfl
  | pass => exact slots 0
  | paren => exact slots 1
  | basicType => exact (places 0).bind fun _ => (mirrors_setPendingType _).bind fun _ => finish rfl
  | typeArray =>
      exact (places 1).bind fun _ => (mirrors_arraySize _).bind fun _ => (mirrors_growSize _).bind
        fun _ => (mirrors_setPendingSize _).bind fun _ => finish rfl
  | decl =>
      refine (slots 1).bind fun name => mirrors_get.bind fun translator => ?_
      rw [started, named]
      exact (mirrors_declare _ _ _).bind fun _ => finish rfl
  | declArray =>
      refine (slots 4).bind fun name => (places 2).bind fun _ => (mirrors_arraySize _).bind fun _ =>
        (mirrors_growSize _).bind fun _ => ?_
      rw [started, named]
      exact (mirrors_declare _ _ _).bind fun _ => finish rfl
  | locId => exact (places 0).bind fun _ => (mirrors_setLastName _).bind fun _ => finish rfl
  | locIndex => exact (places 3).bind fun _ => (places 1).bind fun _ => finish rfl
  | assign =>
      exact (places 3).bind fun _ => (places 1).bind fun _ => (mirrors_emit _).bind fun _ =>
        finish rfl
  | binary op =>
      exact (places 2).bind fun _ => (places 0).bind fun _ => mirrors_newTemporary.bind fun _ =>
        (mirrors_emit _).bind fun _ => finish rfl
  | unary op =>
      exact (places 0).bind fun _ => mirrors_newTemporary.bind fun _ => (mirrors_emit _).bind
        fun _ => finish rfl
  | ifTest =>
      exact (places 1).bind fun _ => mirrors_newLabel.bind fun _ => (mirrors_emit _).bind
        fun _ => finish rfl
  | ifElseMark =>
      exact (labels 2).bind fun _ => mirrors_newLabel.bind fun _ => (mirrors_emit _).bind
        fun _ => (mirrors_emit _).bind fun _ => finish rfl
  | ifThen => exact (labels 1).bind fun _ => (mirrors_emit _).bind fun _ => finish rfl
  | ifElse => exact (labels 1).bind fun _ => (mirrors_emit _).bind fun _ => finish rfl
  | loopEnter =>
      exact mirrors_newLabel.bind fun _ => mirrors_newLabel.bind fun _ => (mirrors_emit _).bind
        fun _ => (mirrors_pushBreak _).bind fun _ => finish rfl
  | loopTest =>
      exact (loops 3).bind fun _ => (places 1).bind fun _ => (mirrors_emit _).bind fun _ =>
        finish rfl
  | whileLoop =>
      exact (loops 5).bind fun _ => (mirrors_emit _).bind fun _ => (mirrors_emit _).bind
        fun _ => mirrors_popBreak.bind fun _ => finish rfl
  | doWhile =>
      exact (loops 6).bind fun _ => (places 2).bind fun _ => (mirrors_emit _).bind fun _ =>
        (mirrors_emit _).bind fun _ => mirrors_popBreak.bind fun _ => finish rfl
  | breakLoop =>
      exact mirrors_innermostExit.bind fun _ => (mirrors_emit _).bind fun _ => finish rfl
  | scopeEnter => exact mirrors_enterScope.bind fun _ => finish rfl
  | nestedBlock => exact mirrors_exitScope.bind fun _ => finish rfl

end Reduction

theorem map_popAbove {α β : Type} (change : α → β) (count : Nat) (stack : List α) :
    popAbove count (stack.map change) = (popAbove count stack).map change := by
  induction count generalizing stack with
  | zero => simp
  | succ count ih =>
      match stack with
      | [] => rfl
      | [_] => rfl
      | _ :: next :: rest => exact ih (next :: rest)

/-- The next token is the same without places. -/
theorem Scan.unplaced_next (scan : Scan) :
    scan.unplaced.next =
      match scan.next with
      | .error error => .error error.unplaced
      | .ok (token, rest) => .ok (token.unplaced, rest.unplaced) := by
  obtain ⟨tokens, error, length⟩ := scan
  cases tokens with
  | cons token tokens => rfl
  | nil => cases error <;> rfl

namespace Config

variable (config : Config) (table : ParseTable) (actions : Array Semantic)

@[simp] theorem unplaced_states : config.unplaced.states = config.states := rfl

theorem unplaced_shift (state : Nat) :
    config.unplaced.shift state = (config.shift state).unplaced := by
  unfold shift
  have fetched := config.input.unplaced_next
  change config.unplaced.input.next = _ at fetched
  rw [fetched]
  cases config.input.next with
  | error error => rfl
  | ok next => rfl

theorem unplaced_replace (production : Production) (head : Attribute) :
    config.unplaced.replace table production head.unplaced =
      (config.replace table production head).unplaced := by
  unfold replace
  simp only [unplaced_states]
  cases ParseTable.cell table.tables.goto
      ((popAbove production.body.length config.states).headD 0) production.head with
  | error fault => rfl
  | ok target =>
      cases target with
      | none => rfl
      | some state => simp [unplaced, map_popAbove, Progress.unplaced]

theorem unplaced_reduce (index : Nat) :
    config.unplaced.reduce table actions index = (config.reduce table actions index).unplaced := by
  unfold reduce
  cases table.grammar.productions[index]? with
  | none => rfl
  | some production =>
      have mirrored := Reduction.mirrors_run (actions.getD index .nothing) config.attributes
        config.lookahead.start config.translator
      change Reduction.run _ config.unplaced.attributes config.unplaced.lookahead.start
        config.unplaced.translator = _ at mirrored
      simp only [mirrored]
      cases Reduction.run (actions.getD index .nothing) config.attributes config.lookahead.start
          config.translator with
      | error failure translator => cases failure <;> rfl
      | ok head translator =>
          exact unplaced_replace { config with translator } table production head

theorem unplaced_record (event : Event) :
    config.unplaced.record event.unplaced = (config.record event).unplaced := by
  have recorded := config.translator.unplaced_record event
  change { config.unplaced with translator := config.translator.unplaced.record event.unplaced } = _
  rw [recorded]
  rfl

/-- The configuration in which the action of a step is done. -/
def begun (action : Action) : Config :=
  { config with translator := config.logged table action, steps := config.steps + 1 }

theorem unplaced_begun (action : Action) :
    config.unplaced.begun table action = (config.begun table action).unplaced := by
  have logged : config.unplaced.logged table action = (config.logged table action).unplaced :=
    config.translator.unplaced_record (.step (config.steps + 1) config.states config.lookahead.text
      (table.terminalName config.lookahead) action)
  rw [begun, logged]
  rfl

/-- A step without places is the step with its places taken away. -/
theorem unplaced_step :
    config.unplaced.step table actions = (config.step table actions).unplaced := by
  unfold step
  have asked : table.actionOn config.unplaced.top config.unplaced.lookahead =
      table.actionOn config.top config.lookahead := rfl
  rw [asked]
  cases table.actionOn config.top config.lookahead with
  | error fault => rfl
  | ok action =>
      have begun := config.unplaced_begun table action
      cases action with
      | error =>
          change (config.unplaced.begun table .error).halt _ = _
          rw [begun]
          rfl
      | shift state =>
          change (config.unplaced.begun table (.shift state)).shift state = _
          rw [begun]
          exact unplaced_shift _ state
      | reduce index =>
          change (config.unplaced.begun table (.reduce index)).reduce table actions index = _
          rw [begun]
          exact unplaced_reduce _ table actions index
      | accept =>
          change ((config.unplaced.begun table .accept).record
            (Event.accepted (config.steps + 1)).unplaced).halt
              (.accepted (config.unplaced.begun table .accept).translator.finish) = _
          rw [begun, unplaced_record]
          rfl

theorem unplaced_run (fuel : Nat) :
    config.unplaced.run table actions fuel = (config.run table actions fuel).unplaced := by
  induction fuel generalizing config with
  | zero => rfl
  | succ fuel ih =>
      rw [run, run, unplaced_step]
      cases config.step table actions with
      | running next => exact ih next
      | halted outcome => rfl

end Config

theorem Config.unplaced_first (lookahead : Token) (input : Scan) :
    (first lookahead input).unplaced = first lookahead.unplaced input.unplaced := by
  simp [first, unplaced, Translator.first, Translator.unplaced, Attribute.unplaced,
    SymbolTable.enter, SymbolTable.unplaced]

/-- A run of a source, without places, depends on what the source reads as without places. -/
theorem ParseTable.unplaced_parse (table : ParseTable) (actions : Array Semantic) (fuel : Nat)
    (source : String) :
    (table.parse actions fuel source).unplaced =
      match (Scan.ofString source).unplaced.next with
      | .error error => .halted ⟨.rejected (.lex error), #[]⟩
      | .ok (lookahead, input) => (Config.first lookahead input).run table actions fuel := by
  rw [Scan.unplaced_next]
  cases fetched : (Scan.ofString source).next with
  | error error =>
      rw [parse_of_error fetched]
      simp [Progress.unplaced, Outcome.unplaced, Verdict.unplaced, CompileError.unplaced]
  | ok both =>
      rw [parse_of_next fetched, ← Config.unplaced_run, Config.unplaced_first]

end ThreeAddress

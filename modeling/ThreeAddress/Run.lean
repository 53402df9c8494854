import ThreeAddress.Fault
import ThreeAddress.Grammar.Description
import ThreeAddress.Table.Basic
import ThreeAddress.Token.Scan
import ThreeAddress.Translator.Basic

/-!
The shift-reduce run over the tables. A configuration holds the two stacks, the lookahead and what
is left to read; a step consults one cell of the action table.
-/

set_option autoImplicit false

namespace ThreeAddress

/-- Why a source cannot be compiled. -/
inductive CompileError where
  | grammar (error : GrammarError)
  | lex (error : LexError)
  | noAction (state : Nat) (terminal : String) (pos : Nat)
  | noGoto (state : Nat) (nonterminal : String) (pos : Nat)
  | translate (error : TranslateError) (pos : Nat)
deriving Repr, DecidableEq

/-- How a source fares: it is compiled, refused, or the run breaks off. -/
inductive Verdict where
  | accepted (compiled : Compiled)
  | rejected (error : CompileError)
  | faulted (fault : Fault)
deriving Repr, DecidableEq

/-- How a run ended, and all that was logged. -/
structure Outcome where
  verdict : Verdict
  log : Array Event
deriving Repr, DecidableEq

/-- A configuration of a run. Stacks are listed from the top; at the bottom stand state zero and an
empty attribute, which are never popped. -/
structure Config where
  states : List Nat
  attributes : List Attribute
  lookahead : Token
  input : Scan
  translator : Translator
  steps : Nat
deriving Repr, DecidableEq

inductive Progress where
  | running (config : Config)
  | halted (outcome : Outcome)
deriving Repr, DecidableEq

namespace ParseTable

/-- The name under which a token is looked up among the terminals: its class for the classes with
many spellings, and its text otherwise. -/
def terminalSpelling (token : Token) : String :=
  match token.kind with
  | .number => "num"
  | .real => "real"
  | .ident => "id"
  | .typeName => "basic"
  | _ => token.text

/-- The terminal that a token is read as, if the grammar has one. -/
def terminal? (table : ParseTable) (token : Token) : Option Nat :=
  match token.kind with
  | .eof => some table.eof
  | _ => table.grammar.token? (terminalSpelling token)

/-- The name of the terminal that a token is read as, or its text if there is none. -/
def terminalName (table : ParseTable) (token : Token) : String :=
  match table.terminal? token with
  | some id => table.grammar.tokenName id
  | none => token.text

/-- The cell of a table of rows. -/
def cell {α : Type} (rows : Array (Array α)) (row column : Nat) : Except Fault α :=
  match rows[row]? with
  | none => .error (.outOfBounds rows.size row)
  | some cells =>
    match cells[column]? with
    | none => .error (.outOfBounds cells.size column)
    | some value => .ok value

/-- The action on a token. A token that is no terminal is an error in every state. -/
def actionOn (table : ParseTable) (state : Nat) (token : Token) : Except Fault Action :=
  match table.terminal? token with
  | none => .ok .error
  | some id => cell table.tables.action state id

end ParseTable

/-- Removes `count` elements from the top, but never the one at the bottom. -/
def popAbove {α : Type} : (count : Nat) → List α → List α
  | count + 1, _ :: next :: rest => popAbove count (next :: rest)
  | _, stack => stack

@[simp] theorem popAbove_zero {α : Type} (stack : List α) : popAbove 0 stack = stack := by
  simp [popAbove]

/-- Above the bottom, popping is dropping. -/
theorem popAbove_eq_drop {α : Type} (count : Nat) (stack : List α)
    (above : count < stack.length) : popAbove count stack = stack.drop count := by
  induction count generalizing stack with
  | zero => simp
  | succ count ih =>
      match stack, above with
      | _ :: next :: rest, above =>
          simp only [popAbove, List.drop_succ_cons]
          exact ih (next :: rest) (by simpa using above)

namespace Config

/-- The state on top of the stack. -/
def top (config : Config) : Nat := config.states.headD 0

def record (event : Event) (config : Config) : Config :=
  { config with translator := config.translator.record event }

def halt (config : Config) (verdict : Verdict) : Progress :=
  .halted ⟨verdict, config.translator.log⟩

/-- Reads the lookahead, enters a state and fetches the next token. -/
def shift (config : Config) (state : Nat) : Progress :=
  let token := config.lookahead
  match config.input.next with
  | .error error => config.halt (.rejected (.lex error))
  | .ok (lookahead, input) =>
    .running
      { config with
        states := state :: config.states
        attributes := .token token.text token.start :: config.attributes
        lookahead
        input }

/-- Replaces the body of a production on both stacks by its head. -/
def replace (table : ParseTable) (production : Production) (head : Attribute) (config : Config) :
    Progress :=
  let count := production.body.length
  let states := popAbove count config.states
  let attributes := popAbove count config.attributes
  let top := states.headD 0
  match ParseTable.cell table.tables.goto top production.head with
  | .error fault => config.halt (.faulted fault)
  | .ok none =>
    config.halt (.rejected
      (.noGoto top (table.grammar.nonterminalName production.head) config.lookahead.start))
  | .ok (some state) =>
    .running { config with states := state :: states, attributes := head :: attributes }

/-- Runs the semantic action of a production, then replaces its body by its head. The action sees
the stack with the body still on top. -/
def reduce (table : ParseTable) (actions : Array Semantic) (index : Nat) (config : Config) :
    Progress :=
  match table.grammar.productions[index]? with
  | none => config.halt (.faulted (.outOfBounds table.grammar.productions.length index))
  | some production =>
    let pos := config.lookahead.start
    match Reduction.run (actions.getD index .nothing) config.attributes pos config.translator with
    | .error (.error error) translator =>
      { config with translator }.halt (.rejected (.translate error pos))
    | .error .sizeOverflow translator =>
      { config with translator }.halt (.faulted .sizeOverflow)
    | .ok head translator => { config with translator }.replace table production head

/-- Does what the action table asks for on the lookahead. -/
def step (table : ParseTable) (actions : Array Semantic) (config : Config) : Progress :=
  match table.actionOn config.top config.lookahead with
  | .error fault => config.halt (.faulted fault)
  | .ok action =>
    let terminal := table.terminalName config.lookahead
    let number := config.steps + 1
    let config := { config with steps := number }.record
      (.step number config.states config.lookahead.text terminal action)
    match action with
    | .shift state => config.shift state
    | .reduce index => config.reduce table actions index
    | .accept =>
      (config.record (.accepted number)).halt (.accepted config.translator.finish)
    | .error => config.halt (.rejected (.noAction config.top terminal config.lookahead.start))

/-- Takes steps until the run halts, at most `fuel` of them. -/
def run (table : ParseTable) (actions : Array Semantic) : (fuel : Nat) → Config → Progress
  | 0, config => .running config
  | fuel + 1, config =>
    match config.step table actions with
    | .running next => run table actions fuel next
    | .halted outcome => .halted outcome

end Config

namespace Progress

/-- The configuration before the first step: state zero, an outermost scope, and the first token of
the source as the lookahead. -/
def initial (source : String) : Progress :=
  let scan := Scan.ofString source
  match scan.next with
  | .error error => .halted ⟨.rejected (.lex error), #[]⟩
  | .ok (lookahead, input) =>
    .running
      { states := [0]
        attributes := [.none]
        lookahead
        input
        translator := { symbols := SymbolTable.enter {} }
        steps := 0 }

/-- The outcome of a run that has halted. -/
def outcome? : Progress → Option Outcome
  | .running _ => none
  | .halted outcome => some outcome

end Progress

namespace ParseTable

/-- Runs a source through the tables for at most `fuel` steps, with the semantic action of each
production by its number. Productions without an action do nothing. -/
def parse (table : ParseTable) (actions : Array Semantic) (fuel : Nat) (source : String) :
    Progress :=
  match Progress.initial source with
  | .running config => config.run table actions fuel
  | .halted outcome => .halted outcome

/-- More steps than a run can take in practice. -/
def stepLimit : Nat := 18446744073709551616

/-- What building the tables logs. -/
def events (table : ParseTable) : Array Event :=
  let conflicts := table.conflicts.map Event.conflict
  #[Event.collected table.stateCount] ++ conflicts ++
    [Event.built table.stateCount conflicts.length]

end ParseTable

end ThreeAddress

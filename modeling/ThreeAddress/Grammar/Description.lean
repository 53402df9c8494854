import ThreeAddress.Grammar.Basic

/-!
Descriptions of grammars by name, and the grammars they describe.
-/

set_option autoImplicit false

namespace ThreeAddress

/-- Why a description has no grammar. -/
inductive GrammarError where
  | noProductions
  | undefinedSymbol (name : String) (production : Nat)
  | nameConflict (name : String)
  | undefinedStart (name : String)
deriving Repr, DecidableEq

def GrammarError.message : GrammarError → String
  | .noProductions => "grammar has no productions"
  | .undefinedSymbol name production =>
    "undefined symbol '" ++ name ++ "' in production " ++ toString production
  | .nameConflict name =>
    "'" ++ name ++ "' is declared both as a token and a nonterminal"
  | .undefinedStart name => "start symbol '" ++ name ++ "' has no productions"

/-- A rule by name: its head and its body. -/
structure RuleText where
  head : String
  body : List String
deriving Repr, DecidableEq

/-- A grammar under description. Tokens are in the order of their first declaration, and the start
is the head of the first rule unless one is chosen. -/
structure Description where
  tokens : List String := []
  rules : List RuleText := []
  start : Option String := none
deriving Repr, DecidableEq

namespace Description

def token (description : Description) (name : String) : Description :=
  if description.tokens.contains name then description
  else { description with tokens := description.tokens ++ [name] }

def addTokens (description : Description) (names : List String) : Description :=
  names.foldl token description

def rule (description : Description) (head : String) (body : List String) : Description :=
  { description with rules := description.rules ++ [⟨head, body⟩] }

def startWith (description : Description) (name : String) : Description :=
  { description with start := some name }

/-- The heads of the rules in order of first appearance. -/
def heads (description : Description) : List String :=
  (description.rules.map RuleText.head).eraseDups

/-- The first rule head that is a token too. -/
def clash? (description : Description) : Option String :=
  (description.rules.map RuleText.head).find? description.tokens.contains

/-- The symbol that a name in a body stands for. -/
def symbol? (description : Description) (name : String) : Option Symbol :=
  match description.tokens.idxOf? name with
  | some id => some (.token id)
  | none => (description.heads.idxOf? name).map .nonterminal

def resolveBody (description : Description) (production : Nat) :
    List String → Except GrammarError (List Symbol)
  | [] => .ok []
  | name :: rest =>
    match description.symbol? name with
    | none => .error (.undefinedSymbol name production)
    | some symbol => (description.resolveBody production rest).map (symbol :: ·)

/-- The productions of the rules, the first of which has the number `production`, and the index with
all of them listed in it. -/
def resolveRules (description : Description) (production : Nat) (index : HeadIndex) :
    List RuleText → Except GrammarError (List Production × HeadIndex)
  | [] => .ok ([], index)
  | rule :: rest => do
    let head := (description.heads.idxOf? rule.head).getD 0
    let body ← description.resolveBody production rule.body
    let (others, filled) ←
      description.resolveRules (production + 1) (index.push head production) rest
    return (⟨head, body⟩ :: others, filled)

/-- The grammar described. Of several faults the first in the order of the checks is reported:
no rule at all, a head that is a token, an unknown name in a body, an unknown start. -/
def build (description : Description) : Except GrammarError Grammar :=
  match description.rules with
  | [] => .error .noProductions
  | first :: _ =>
    match description.clash? with
    | some name => .error (.nameConflict name)
    | none => do
      let (productions, byHead) ← description.resolveRules 0 {} description.rules
      let start := description.start.getD first.head
      match description.heads.idxOf? start with
      | none => .error (.undefinedStart start)
      | some id => return ⟨description.tokens, description.heads, productions, byHead, id⟩

end Description

end ThreeAddress

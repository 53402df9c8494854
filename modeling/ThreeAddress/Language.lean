import ThreeAddress.Run

/-!
The source language: a small imperative language with nested blocks.
-/

set_option autoImplicit false

namespace ThreeAddress

/-- A rule of the language and the semantic action of a reduction by it. -/
structure Rule where
  head : String
  body : List String
  action : Semantic
deriving Repr, DecidableEq

/-- A language: its tables, and the semantic action of each production by its number. -/
structure Language where
  table : ParseTable
  actions : Array Semantic
deriving Repr, DecidableEq

namespace Language

/-- The terminals by number. Every type name is a `basic`, and literals and identifiers are read by
their class. -/
def terminals : List String :=
  ["\x7b", "\x7d", ";", "[", "]", "(", ")", "=",
   "id", "num", "real", "basic",
   "if", "else", "while", "do", "break", "true", "false",
   "||", "&&", "==", "!=", "<", "<=", ">=", ">",
   "+", "-", "*", "/", "!"]

/-- The rules, in the order of their productions. Two pairs of them compete: `stmt -> loc = num ;`
with `factor -> num` on a semicolon, and the two conditionals on `else`, where the shorter one comes
first and wins. The rules with an empty body at the end are markers. -/
def rules : List Rule :=
  [⟨"program", ["block"], .nothing⟩,
   ⟨"block", ["\x7b", "decls", "stmts", "\x7d"], .nothing⟩,
   ⟨"decls", ["decls", "decl"], .nothing⟩,
   ⟨"decls", [], .nothing⟩,
   ⟨"decl", ["type", "id", ";"], .decl⟩,
   ⟨"decl", ["type", "id", "[", "num", "]", ";"], .declArray⟩,
   ⟨"type", ["type_array"], .nothing⟩,
   ⟨"type_array", ["type", "[", "num", "]"], .typeArray⟩,
   ⟨"type", ["basic"], .basicType⟩,
   ⟨"stmts", ["stmts", "stmt"], .nothing⟩,
   ⟨"stmts", [], .nothing⟩,
   ⟨"stmt", ["loc", "=", "bool", ";"], .assign⟩,
   ⟨"stmt", ["loc", "=", "num", ";"], .assign⟩,
   ⟨"stmt", ["if", "(", "bool", ")", "if_test", "stmt"], .ifThen⟩,
   ⟨"stmt", ["if", "(", "bool", ")", "if_test", "stmt", "else", "if_else", "stmt"], .ifElse⟩,
   ⟨"stmt", ["while", "loop_enter", "(", "bool", ")", "loop_test", "stmt"], .whileLoop⟩,
   ⟨"stmt", ["do", "loop_enter", "stmt", "while", "(", "bool", ")", ";"], .doWhile⟩,
   ⟨"stmt", ["break", ";"], .breakLoop⟩,
   ⟨"stmt", ["scope_enter", "block"], .nestedBlock⟩,
   ⟨"loc", ["loc_array"], .pass⟩,
   ⟨"loc_array", ["loc", "[", "num", "]"], .locIndex⟩,
   ⟨"loc", ["id"], .locId⟩,
   ⟨"bool", ["bool", "||", "join"], .binary .or⟩,
   ⟨"bool", ["join"], .pass⟩,
   ⟨"join", ["join", "&&", "equality"], .binary .and⟩,
   ⟨"join", ["equality"], .pass⟩,
   ⟨"equality", ["equality", "==", "rel"], .binary .eq⟩,
   ⟨"equality", ["equality", "!=", "rel"], .binary .ne⟩,
   ⟨"equality", ["rel"], .pass⟩,
   ⟨"rel", ["expr", "<", "expr"], .binary .lt⟩,
   ⟨"rel", ["expr", "<=", "expr"], .binary .le⟩,
   ⟨"rel", ["expr", ">=", "expr"], .binary .ge⟩,
   ⟨"rel", ["expr", ">", "expr"], .binary .gt⟩,
   ⟨"rel", ["expr"], .pass⟩,
   ⟨"expr", ["expr", "+", "term"], .binary .add⟩,
   ⟨"expr", ["expr", "-", "term"], .binary .sub⟩,
   ⟨"expr", ["term"], .pass⟩,
   ⟨"term", ["term", "*", "unary"], .binary .mul⟩,
   ⟨"term", ["term", "/", "unary"], .binary .div⟩,
   ⟨"term", ["unary"], .pass⟩,
   ⟨"unary", ["!", "unary"], .unary .not⟩,
   ⟨"unary", ["-", "unary"], .unary .neg⟩,
   ⟨"unary", ["factor"], .pass⟩,
   ⟨"factor", ["(", "bool", ")"], .paren⟩,
   ⟨"factor", ["loc"], .pass⟩,
   ⟨"factor", ["num"], .pass⟩,
   ⟨"factor", ["real"], .pass⟩,
   ⟨"factor", ["true"], .pass⟩,
   ⟨"factor", ["false"], .pass⟩,
   ⟨"if_test", [], .ifTest⟩,
   ⟨"if_else", [], .ifElseMark⟩,
   ⟨"loop_enter", [], .loopEnter⟩,
   ⟨"loop_test", [], .loopTest⟩,
   ⟨"scope_enter", [], .scopeEnter⟩]

def description : Description :=
  (rules.foldl (fun description rule => description.rule rule.head rule.body)
    (Description.addTokens {} terminals)).startWith "program"

/-- Builds the tables of the language. -/
def build : Except CompileError Language :=
  match description.build with
  | .error error => .error (.grammar error)
  | .ok grammar => .ok ⟨.ofGrammar grammar, (rules.map Rule.action).toArray⟩

/-- Translates a source. There is no outcome if the run is still going at the step limit. -/
def translate (language : Language) (source : String) : Option Outcome :=
  (language.table.parse language.actions ParseTable.stepLimit source).outcome?

end Language

end ThreeAddress

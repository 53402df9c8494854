import ThreeAddress.Proofs.Language.Whole
import ThreeAddress.Proofs.Meaning.Program
import ThreeAddress.Proofs.Run.Walk

/-!
What the symbols of the language stand for. Each semantic action expects symbols of certain roles in
a body, and each rule has an action that fits it, so trees can be taken apart by actions alone. The
words and braces among the children tell the actions apart without a look at the rules.
-/

set_option autoImplicit false

namespace ThreeAddress

/-- The role of a symbol. A token is a word of its own, or one of a class if it has none. The last
five roles belong to the markers. -/
inductive Role where
  | token (word? : Option String)
  | location
  | value
  | typing
  | statement
  | block
  | test
  | otherwise
  | loop
  | loopTest
  | scope
deriving Repr, DecidableEq

/-- The bodies and heads that the action fits, by their roles. -/
def Semantic.shapes : Semantic → List (List Role × Role)
  | .nothing =>
    [([], .statement), ([.block], .statement), ([.statement, .statement], .statement),
      ([.token "\x7b", .statement, .statement, .token "\x7d"], .block), ([.typing], .typing)]
  | .basicType => [([.token none], .typing)]
  | .typeArray => [([.typing, .token "[", .token none, .token "]"], .typing)]
  | .decl => [([.typing, .token none, .token ";"], .statement)]
  | .declArray =>
    [([.typing, .token none, .token "[", .token none, .token "]", .token ";"], .statement)]
  | .locId => [([.token none], .location)]
  | .locIndex => [([.location, .token "[", .token none, .token "]"], .location)]
  | .pass =>
    [([.location], .location), ([.location], .value), ([.value], .value), ([.token none], .value),
      ([.token "true"], .value), ([.token "false"], .value)]
  | .paren => [([.token "(", .value, .token ")"], .value)]
  | .binary op => [([.value, .token op.text, .value], .value)]
  | .unary op => [([.token op.text, .value], .value)]
  | .assign =>
    [([.location, .token "=", .value, .token ";"], .statement),
      ([.location, .token "=", .token none, .token ";"], .statement)]
  | .ifThen => [([.token "if", .token "(", .value, .token ")", .test, .statement], .statement)]
  | .ifElse =>
    [([.token "if", .token "(", .value, .token ")", .test, .statement, .token "else", .otherwise,
      .statement], .statement)]
  | .whileLoop =>
    [([.token "while", .loop, .token "(", .value, .token ")", .loopTest, .statement], .statement)]
  | .doWhile =>
    [([.token "do", .loop, .statement, .token "while", .token "(", .value, .token ")", .token ";"],
      .statement)]
  | .breakLoop => [([.token "break", .token ";"], .statement)]
  | .nestedBlock => [([.scope, .block], .statement)]
  | .ifTest => [([], .test)]
  | .ifElseMark => [([], .otherwise)]
  | .loopEnter => [([], .loop)]
  | .loopTest => [([], .loopTest)]
  | .scopeEnter => [([], .scope)]

/-- The action can belong to a rule with a body and a head of these roles. -/
def Semantic.fits (action : Semantic) (body : List Role) (head : Role) : Bool :=
  decide ((body, head) ∈ action.shapes)

/-- The ways in which an action fits a body and a head. -/
inductive Semantic.Fitting : Semantic → List Role → Role → Prop where
  | skip : Fitting .nothing [] .statement
  | child : Fitting .nothing [.block] .statement
  | seq : Fitting .nothing [.statement, .statement] .statement
  | braced :
      Fitting .nothing [.token "\x7b", .statement, .statement, .token "\x7d"] .block
  | typing : Fitting .nothing [.typing] .typing
  | basicType : Fitting .basicType [.token none] .typing
  | typeArray : Fitting .typeArray [.typing, .token "[", .token none, .token "]"] .typing
  | decl : Fitting .decl [.typing, .token none, .token ";"] .statement
  | declArray :
      Fitting .declArray [.typing, .token none, .token "[", .token none, .token "]", .token ";"]
        .statement
  | locId : Fitting .locId [.token none] .location
  | locIndex : Fitting .locIndex [.location, .token "[", .token none, .token "]"] .location
  | passLocation : Fitting .pass [.location] .location
  | passLocated : Fitting .pass [.location] .value
  | passValue : Fitting .pass [.value] .value
  | passToken (word? : Option String) : Fitting .pass [.token word?] .value
  | paren : Fitting .paren [.token "(", .value, .token ")"] .value
  | binary (op : BinaryOp) : Fitting (.binary op) [.value, .token op.text, .value] .value
  | unary (op : UnaryOp) : Fitting (.unary op) [.token op.text, .value] .value
  | assign : Fitting .assign [.location, .token "=", .value, .token ";"] .statement
  | assignToken : Fitting .assign [.location, .token "=", .token none, .token ";"] .statement
  | ifThen :
      Fitting .ifThen [.token "if", .token "(", .value, .token ")", .test, .statement] .statement
  | ifElse :
      Fitting .ifElse
        [.token "if", .token "(", .value, .token ")", .test, .statement, .token "else", .otherwise,
          .statement] .statement
  | whileLoop :
      Fitting .whileLoop
        [.token "while", .loop, .token "(", .value, .token ")", .loopTest, .statement] .statement
  | doWhile :
      Fitting .doWhile
        [.token "do", .loop, .statement, .token "while", .token "(", .value, .token ")", .token ";"]
        .statement
  | breakLoop : Fitting .breakLoop [.token "break", .token ";"] .statement
  | nestedBlock : Fitting .nestedBlock [.scope, .block] .statement
  | ifTest : Fitting .ifTest [] .test
  | ifElseMark : Fitting .ifElseMark [] .otherwise
  | loopEnter : Fitting .loopEnter [] .loop
  | loopTest : Fitting .loopTest [] .loopTest
  | scopeEnter : Fitting .scopeEnter [] .scope

theorem Semantic.fitting_of_fits {action : Semantic} {body : List Role} {head : Role}
    (fits : action.fits body head = true) : Fitting action body head := by
  have every : ∀ shape ∈ action.shapes, Fitting action shape.1 shape.2 := by
    cases action <;>
      simp only [Semantic.shapes, List.forall_mem_cons, List.not_mem_nil, false_implies,
        implies_true, and_true] <;>
      and_intros <;> constructor
  exact every (body, head) (of_decide_eq_true fits)

namespace Language

/-- The semantic actions by production. -/
def ruleActions : Array Semantic := (rules.map Rule.action).toArray

/-- The word that is read as the terminal of a name. A class of tokens has no word of its own, and the
end of input has none. -/
def wordOf? (name : String) : Option String :=
  if name ∈ ["id", "num", "real", "basic", "$"] then none else some name

/-- The role of a nonterminal by its name. -/
def roleOf (name : String) : Role :=
  if name ∈ ["program", "decls", "decl", "stmts", "stmt"] then .statement
  else if name = "block" then .block
  else if name ∈ ["type", "type_array"] then .typing
  else if name ∈ ["loc", "loc_array"] then .location
  else if name = "if_test" then .test
  else if name = "if_else" then .otherwise
  else if name = "loop_enter" then .loop
  else if name = "loop_test" then .loopTest
  else if name = "scope_enter" then .scope
  else .value

/-- The role of a symbol. -/
def symbolRole (grammar : Grammar) : Symbol → Role
  | .token id => .token (wordOf? (grammar.tokenName id))
  | .nonterminal id => roleOf (grammar.nonterminalName id)

/-- Every rule has an action that fits it. -/
theorem fits_of_build {grammar : Grammar} (described : description.build = .ok grammar) {index : Nat}
    {production : Production} (found : grammar.productions[index]? = some production) :
    (ruleActions.getD index .nothing).fits (production.body.map (symbolRole grammar))
      (symbolRole grammar (.nonterminal production.head)) = true := by
  have checked : (description.build.map fun grammar =>
      grammar.productions.zipIdx.all fun entry =>
        (ruleActions.getD entry.2 .nothing).fits (entry.1.body.map (symbolRole grammar))
          (symbolRole grammar (.nonterminal entry.1.head))) = .ok true := by
    decide +kernel
  rw [described] at checked
  exact List.all_eq_true.mp (Except.ok.inj checked) (production, index)
    (List.mem_zipIdx_iff_getElem?.mpr found)

end Language

/-- The trees have the roles, one for each: a token is a leaf, with the word if there is one, and a
node has children as its action expects them. -/
inductive Shaped (actions : Array Semantic) : List Role → List (Tree Token) → Prop where
  | nil : Shaped actions [] []
  | leaf (token : Token) (word? : Option String) (roles : List Role) (trees : List (Tree Token))
      (worded : ∀ word ∈ word?, token.text = word) (rest : Shaped actions roles trees) :
      Shaped actions (.token word? :: roles) (.leaf token :: trees)
  | node (index : Nat) (head : Role) (body roles : List Role) (children trees : List (Tree Token))
      (fits : (actions.getD index .nothing).fits body head = true)
      (inside : Shaped actions body children) (rest : Shaped actions roles trees) :
      Shaped actions (head :: roles) (.node index children :: trees)

/-- A single token, of the word if there is one. -/
def Names (word? : Option String) (tree : Tree Token) : Prop :=
  ∃ token, tree = .leaf token ∧ ∀ word ∈ word?, token.text = word

/-- The text of the token of a word is the word. -/
theorem Names.map_eq {word : String} {tree : Tree Token} (names : Names (some word) tree) :
    tree.map Token.text = .leaf word := by
  obtain ⟨token, rfl, worded⟩ := names
  rw [Tree.map_leaf, worded word rfl]

/-- What a tree of a role looks like: a token, or a node. Of the statements, blocks alone are in
braces. -/
def Role.Shows : Role → Tree Token → Prop
  | .token word?, tree => Names word? tree
  | .block, tree => ∃ index children, tree = .node index children ∧
      (tree.map Token.text).isBraced = true
  | .statement, tree => ∃ index children, tree = .node index children ∧
      (tree.map Token.text).isBraced = false
  | _, tree => ∃ index children, tree = .node index children

/-- A tree is spelled like its role, if that is not the role of a class of tokens. -/
theorem Role.Shows.spells_eq {role : Role} {tree : Tree Token} (shows : role.Shows tree)
    (word : String) (single : role ≠ .token none) :
    (tree.map Token.text).spells word = decide (role = .token (some word)) := by
  cases role with
  | token word? =>
      cases word? with
      | none => exact absurd rfl single
      | some own =>
          rw [Names.map_eq shows, Tree.spells_leaf]
          simp [Bool.beq_eq_decide_eq]
  | statement | block =>
      obtain ⟨index, children, rfl, _⟩ := shows
      rw [Tree.map_node, Tree.spells_node]
      simp
  | _ =>
      obtain ⟨index, children, rfl⟩ := shows
      rw [Tree.map_node, Tree.spells_node]
      simp

/-- A node looks like its role if its children do. -/
theorem Role.shows_node {action : Semantic} {body : List Role} {head : Role} {index : Nat}
    {children : List (Tree Token)} (fits : action.fits body head = true)
    (inside : List.Forall₂ Role.Shows body children) : head.Shows (.node index children) := by
  have length := inside.length_eq
  have other (different : children.length ≠ 4) :
      ((Tree.node index children).map Token.text).isBraced = false := by
    rw [Tree.map_node]
    exact Tree.isBraced_of_length (by rwa [List.length_map])
  cases Semantic.fitting_of_fits fits with
  | braced =>
      rcases inside with _ | ⟨opens, _ | ⟨_, _ | ⟨_, _ | ⟨closes, ⟨⟩⟩⟩⟩⟩
      exact ⟨_, _, rfl, by simp [Tree.isBraced, opens.map_eq, closes.map_eq]⟩
  | assign | assignToken =>
      rcases inside with _ | ⟨_, _ | ⟨_, _ | ⟨_, _ | ⟨ends, ⟨⟩⟩⟩⟩⟩
      exact ⟨_, _, rfl, by simp [Tree.isBraced, ends.map_eq]⟩
  | skip | child | seq | decl | declArray | ifThen | ifElse | whileLoop | doWhile | breakLoop
  | nestedBlock => exact ⟨_, _, rfl, other (by simp [← length])⟩
  | _ => exact ⟨_, _, rfl⟩

/-- Trees of the language look like their roles. -/
theorem Shaped.shows {actions : Array Semantic} {roles : List Role} {trees : List (Tree Token)}
    (shaped : Shaped actions roles trees) : List.Forall₂ Role.Shows roles trees := by
  induction shaped with
  | nil => exact .nil
  | leaf token word? roles trees worded _ ih => exact .cons ⟨token, rfl, worded⟩ ih
  | node index head body roles children trees fits _ _ insideIh ih =>
      exact .cons (Role.shows_node fits insideIh) ih

/-- The action of the last node fits the roles of its children. -/
theorem Shaped.exists_last {actions : Array Semantic} {roles : List Role} {index : Nat}
    {left right : List (Tree Token)} (shaped : Shaped actions roles (left ++ [.node index right])) :
    ∃ body head, (actions.getD index .nothing).fits body head = true ∧
      Shaped actions body right := by
  induction left generalizing roles with
  | nil =>
      cases shaped with
      | node _ head body _ _ _ fits inside _ => exact ⟨body, head, fits, inside⟩
  | cons tree left ih =>
      cases shaped with
      | leaf _ _ _ _ _ rest => exact ih rest
      | node _ _ _ _ _ _ _ _ rest => exact ih rest

namespace Language

/-- A token that is read as a terminal with a word is that word. -/
theorem text_of_terminal? {grammar : Grammar} {token : Token} {id : Nat}
    (known : (ParseTable.ofGrammar grammar).terminal? token = some id) :
    ∀ word ∈ wordOf? (grammar.tokenName id), token.text = word := by
  intro word worded
  have spelled : grammar.tokenName id = word ∧ word ∉ ["id", "num", "real", "basic", "$"] := by
    unfold wordOf? at worded
    split at worded
    · cases worded
    · rename_i single
      cases worded
      exact ⟨rfl, single⟩
  obtain ⟨named, single⟩ := spelled
  -- Only the end of input has a number that belongs to no token.
  have inside : id < grammar.tokens.length := by
    by_contra outside
    rw [Grammar.tokenName, List.getD_eq_getElem?_getD,
      List.getElem?_eq_none (Nat.le_of_not_lt outside)] at named
    exact single (named ▸ by decide)
  have found : ∀ name, (ParseTable.ofGrammar grammar).grammar.token? name = some id →
      name = word := by
    intro name known
    have same : (grammar.tokens ++ [freshName grammar.tokens "$" grammar.tokens.length "$"]).getD id
        "$" = name := Description.getD_of_idxOf? "$" known
    rw [List.getD_eq_getElem?_getD, List.getElem?_append_left inside,
      ← List.getD_eq_getElem?_getD] at same
    exact same.symm.trans named
  obtain ⟨kind, text, start⟩ := token
  have other : ∀ name ∈ ["id", "num", "real", "basic"], name ≠ word := by
    rintro name listed rfl
    exact single (List.mem_append_left ["$"] listed)
  cases kind with
  | eof =>
      cases known
      exact absurd inside (Nat.lt_irrefl _)
  | ident => exact absurd (found "id" known) (other "id" (by decide))
  | number => exact absurd (found "num" known) (other "num" (by decide))
  | real => exact absurd (found "real" known) (other "real" (by decide))
  | typeName => exact absurd (found "basic" known) (other "basic" (by decide))
  | _ => exact found text known

/-- Trees of the language have the roles of their symbols. -/
theorem shaped_of_parses {grammar : Grammar} (described : description.build = .ok grammar)
    {symbols : List Symbol} {trees : List (Tree Token)}
    (parsed : grammar.Parses (ParseTable.ofGrammar grammar).terminal? symbols trees) :
    Shaped ruleActions (symbols.map (symbolRole grammar)) trees := by
  induction parsed with
  | nil => exact .nil
  | leaf token terminal symbols trees read _ ih =>
      exact .leaf token _ _ trees (text_of_terminal? read) ih
  | node index production children symbols trees found _ _ bodyIh ih =>
      exact .node index _ _ _ children trees (fits_of_build described found) bodyIh ih

theorem start_role {grammar : Grammar} (described : description.build = .ok grammar) :
    symbolRole grammar (.nonterminal grammar.start) = .statement := by
  have name : grammar.nonterminalName grammar.start = "program" :=
    Description.getD_of_idxOf? "?" (start_of_build described)
  rw [symbolRole, name]
  decide +kernel

end Language

end ThreeAddress

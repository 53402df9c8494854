import ThreeAddress.Proofs.Language.Effects
import ThreeAddress.Proofs.Language.Roles

/-!
The code that a walk along a syntax tree emits is the code of the program read off the tree. What a
tree does is stated for its role, for whatever stands beside it, so that the trees of a body are
taken off a walk one by one.
-/

set_option autoImplicit false

namespace ThreeAddress

/-- A tree that leaves the value of an expression on the stack. -/
structure Evaluates (actions : Array Semantic) (tree : Tree Token) (expr : Expr) : Prop where
  read : Expr.read (tree.map Token.text) = some expr
  walk : ∀ {trees : List (Tree Token)} {stack last : List Attribute} {translator after : Translator}
    {code : List Instruction} {supply : Supply} {breaks : List Label},
    translator.Holds code supply breaks →
    Walk actions (tree :: trees) stack translator last after →
    ∃ pushed middle, pushed.placeText = expr.result supply.temporaries ∧
      middle.Holds (code ++ expr.code supply.temporaries) (supply.spend expr.operators) breaks ∧
      Walk actions trees (pushed :: stack) middle last after

/-- A tree that only notes a type. -/
def Types (actions : Array Semantic) (tree : Tree Token) : Prop :=
  ∀ {trees : List (Tree Token)} {stack last : List Attribute} {translator after : Translator}
    {code : List Instruction} {supply : Supply} {breaks : List Label},
    translator.Holds code supply breaks →
    Walk actions (tree :: trees) stack translator last after →
    ∃ pushed middle, middle.Holds code supply breaks ∧
      Walk actions trees (pushed :: stack) middle last after

/-- A tree that emits the code of a statement. -/
structure Emits (actions : Array Semantic) (tree : Tree Token) (stmt : Stmt) : Prop where
  read : Stmt.read (tree.map Token.text) = some stmt
  walk : ∀ {trees : List (Tree Token)} {stack last : List Attribute} {translator after : Translator}
    {code : List Instruction} {supply : Supply} {breaks : List Label},
    translator.Holds code supply breaks →
    Walk actions (tree :: trees) stack translator last after →
    stmt.Nested (!breaks.isEmpty) ∧
      ∃ pushed middle,
        middle.Holds (code ++ stmt.code breaks supply) (stmt.after supply) breaks ∧
        Walk actions trees (pushed :: stack) middle last after

/-- A node without children that runs the action of a marker. -/
def Marks (actions : Array Semantic) (action : Semantic) (tree : Tree Token) : Prop :=
  ∃ index, tree = .node index [] ∧ actions.getD index .nothing = action

/-- What a tree of a role does. -/
def Role.Acts (actions : Array Semantic) : Role → Tree Token → Prop
  | .token word?, tree => Names word? tree
  | .location, tree => ∃ place, Evaluates actions tree (.place place)
  | .value, tree => ∃ expr, Evaluates actions tree expr
  | .typing, tree => Types actions tree
  | .statement, tree | .block, tree => ∃ stmt, Emits actions tree stmt
  | .test, tree => Marks actions .ifTest tree
  | .otherwise, tree => Marks actions .ifElseMark tree
  | .loop, tree => Marks actions .loopEnter tree
  | .loopTest, tree => Marks actions .loopTest tree
  | .scope, tree => Marks actions .scopeEnter tree

/-- A tree that emits the code of a statement is not the token of a word. -/
theorem Emits.spells_eq {actions : Array Semantic} {tree : Tree Token} {stmt : Stmt}
    (emits : Emits actions tree stmt) (word : String) :
    (tree.map Token.text).spells word = false := by
  cases tree with
  | leaf token => cases emits.read
  | node index children => rw [Tree.map_node, Tree.spells_node]

section Walk

variable {actions : Array Semantic} {index : Nat} {action : Semantic} {tree : Tree Token}
  {trees : List (Tree Token)} {stack last : List Attribute} {translator after : Translator}
  {code : List Instruction} {supply : Supply} {breaks : List Label} {word? : Option String}

theorem Walk.of_nil (holds : translator.Holds code supply breaks)
    (walk : Walk actions [] stack translator last after) :
    last = stack ∧ after.Holds code supply breaks := by
  cases walk with
  | nil _ _ log => exact ⟨rfl, holds.relogged log⟩

theorem Walk.of_node {children : List (Tree Token)}
    (walk : Walk actions (.node index children :: trees) stack translator last after)
    (acts : actions.getD index .nothing = action) :
    ∃ body middle pos head done, Walk actions children stack translator body middle ∧
      Reduction.run action body pos middle = .ok head done ∧
      Walk actions trees (head :: stack) done last after := by
  cases walk with
  | node _ _ _ _ body _ _ middle done _ pos head inside ran rest =>
      exact ⟨body, middle, pos, head, done, inside, acts ▸ ran, rest⟩

theorem Names.walk (names : Names word? tree)
    (walk : Walk actions (tree :: trees) stack translator last after) :
    ∃ token : Attribute, Walk actions trees (token :: stack) translator last after := by
  obtain ⟨token, rfl, _⟩ := names
  cases walk with
  | leaf _ _ _ _ _ _ rest => exact ⟨_, rest⟩

theorem Names.evaluates (names : Names word? tree) :
    ∃ text, Evaluates actions tree (.place text) := by
  obtain ⟨token, rfl, _⟩ := names
  refine ⟨token.text, rfl, ?_⟩
  intro trees stack last translator after code supply breaks holds walk
  cases walk with
  | leaf _ _ _ _ _ _ rest =>
      exact ⟨_, translator, rfl, by rwa [Expr.code, List.append_nil], rest⟩

theorem Marks.walk (marks : Marks actions action tree) (holds : translator.Holds code supply breaks)
    (walk : Walk actions (tree :: trees) stack translator last after) :
    ∃ middle pos head done, middle.Holds code supply breaks ∧
      Reduction.run action stack pos middle = .ok head done ∧
      Walk actions trees (head :: stack) done last after := by
  obtain ⟨index, rfl, acts⟩ := marks
  obtain ⟨_, middle, pos, head, done, inside, ran, rest⟩ := walk.of_node acts
  obtain ⟨rfl, quiet⟩ := inside.of_nil holds
  exact ⟨middle, pos, head, done, quiet, ran, rest⟩

end Walk

variable {actions : Array Semantic} {index : Nat}

namespace Evaluates

theorem pass {child : Tree Token} {expr : Expr} (acts : actions.getD index .nothing = .pass)
    (inner : Evaluates actions child expr) : Evaluates actions (.node index [child]) expr where
  read := by simpa using inner.read
  walk := by
    intro trees stack last translator after code supply breaks holds walk
    obtain ⟨_, _, _, _, _, inside, ran, rest⟩ := walk.of_node acts
    obtain ⟨_, _, place, holds, inside⟩ := inner.walk holds inside
    obtain ⟨rfl, holds⟩ := inside.of_nil holds
    obtain ⟨rfl, holds⟩ := Reduction.run_pass holds ran
    exact ⟨_, _, place, holds, rest⟩

theorem paren {left right : Tree Token} {production : Nat} {children : List (Tree Token)}
    {expr : Expr} (acts : actions.getD index .nothing = .paren) (opening : Names (some "(") left)
    (inner : Evaluates actions (.node production children) expr)
    (closing : Names (some ")") right) :
    Evaluates actions (.node index [left, .node production children, right]) expr where
  read := by simpa [opening.map_eq, closing.map_eq] using inner.read
  walk := by
    intro trees stack last translator after code supply breaks holds walk
    obtain ⟨_, _, _, _, _, inside, ran, rest⟩ := walk.of_node acts
    obtain ⟨_, inside⟩ := opening.walk inside
    obtain ⟨_, _, place, holds, inside⟩ := inner.walk holds inside
    obtain ⟨_, inside⟩ := closing.walk inside
    obtain ⟨rfl, holds⟩ := inside.of_nil holds
    obtain ⟨rfl, holds⟩ := Reduction.run_paren holds ran
    exact ⟨_, _, place, holds, rest⟩

theorem locId {child : Tree Token} {place : String} (acts : actions.getD index .nothing = .locId)
    (inner : Evaluates actions child (.place place)) :
    Evaluates actions (.node index [child]) (.place place) where
  read := by simpa using inner.read
  walk := by
    intro trees stack last translator after code supply breaks holds walk
    obtain ⟨_, _, _, _, _, inside, ran, rest⟩ := walk.of_node acts
    obtain ⟨_, _, place, holds, inside⟩ := inner.walk holds inside
    obtain ⟨rfl, holds⟩ := inside.of_nil holds
    obtain ⟨rfl, holds⟩ := Reduction.run_locId holds ran
    exact ⟨.place _, _, place, holds, rest⟩

theorem locIndex {left opening right closing : Tree Token} {base size : String}
    (acts : actions.getD index .nothing = .locIndex) (array : Evaluates actions left (.place base))
    (opens : Names (some "[") opening) (position : Evaluates actions right (.place size))
    (closes : Names (some "]") closing) :
    Evaluates actions (.node index [left, opening, right, closing])
      (.place (base ++ "[" ++ size ++ "]")) where
  read := by simp [array.read, opens.map_eq, position.read, closes.map_eq]
  walk := by
    intro trees stack last translator after code supply breaks holds walk
    obtain ⟨_, _, _, _, _, inside, ran, rest⟩ := walk.of_node acts
    obtain ⟨_, _, basePlace, holds, inside⟩ := array.walk holds inside
    obtain ⟨_, inside⟩ := opens.walk inside
    obtain ⟨_, _, sizePlace, holds, inside⟩ := position.walk holds inside
    obtain ⟨_, inside⟩ := closes.walk inside
    obtain ⟨rfl, holds⟩ := inside.of_nil holds
    obtain ⟨rfl, holds⟩ := Reduction.run_locIndex holds ran
    rw [basePlace, sizePlace] at rest
    refine ⟨_, _, rfl, ?_, rest⟩
    simpa [Expr.code, Expr.operators, Supply.spend_spend] using holds

theorem binary {op : BinaryOp} {left mid right : Tree Token} {lhs rhs : Expr}
    (acts : actions.getD index .nothing = .binary op) (first : Evaluates actions left lhs)
    (sign : Names (some op.text) mid) (second : Evaluates actions right rhs) :
    Evaluates actions (.node index [left, mid, right]) (.binary op lhs rhs) where
  read := by simp [first.read, sign.map_eq, second.read]
  walk := by
    intro trees stack last translator after code supply breaks holds walk
    obtain ⟨_, _, _, _, _, inside, ran, rest⟩ := walk.of_node acts
    obtain ⟨_, _, leftPlace, holds, inside⟩ := first.walk holds inside
    obtain ⟨_, inside⟩ := sign.walk inside
    obtain ⟨_, _, rightPlace, holds, inside⟩ := second.walk holds inside
    obtain ⟨rfl, holds⟩ := inside.of_nil holds
    obtain ⟨rfl, holds⟩ := Reduction.run_binary holds ran
    rw [leftPlace, rightPlace] at holds
    simp only [Supply.spend_temporaries, List.append_assoc] at holds
    rw [Supply.spend_spend, Supply.spend_spend] at holds
    exact ⟨_, _, rfl, holds, rest⟩

theorem unary {op : UnaryOp} {sign child : Tree Token} {operand : Expr}
    (acts : actions.getD index .nothing = .unary op) (mark : Names (some op.text) sign)
    (inner : Evaluates actions child operand) :
    Evaluates actions (.node index [sign, child]) (.unary op operand) where
  read := by simp [mark.map_eq, inner.read]
  walk := by
    intro trees stack last translator after code supply breaks holds walk
    obtain ⟨_, _, _, _, _, inside, ran, rest⟩ := walk.of_node acts
    obtain ⟨_, inside⟩ := mark.walk inside
    obtain ⟨_, _, place, holds, inside⟩ := inner.walk holds inside
    obtain ⟨rfl, holds⟩ := inside.of_nil holds
    obtain ⟨rfl, holds⟩ := Reduction.run_unary holds ran
    rw [place, Supply.spend_spend, List.append_assoc] at holds
    exact ⟨_, _, rfl, holds, rest⟩

end Evaluates

namespace Types

theorem child {child : Tree Token} (acts : actions.getD index .nothing = .nothing)
    (inner : Types actions child) : Types actions (.node index [child]) := by
  intro trees stack last translator after code supply breaks holds walk
  obtain ⟨_, _, _, _, _, inside, ran, rest⟩ := walk.of_node acts
  obtain ⟨_, _, holds, inside⟩ := inner holds inside
  obtain ⟨rfl, holds⟩ := inside.of_nil holds
  exact ⟨_, _, Reduction.run_nothing holds ran, rest⟩

theorem basic {name : Tree Token} (acts : actions.getD index .nothing = .basicType)
    (names : Names none name) : Types actions (.node index [name]) := by
  intro trees stack last translator after code supply breaks holds walk
  obtain ⟨_, _, _, _, _, inside, ran, rest⟩ := walk.of_node acts
  obtain ⟨_, inside⟩ := names.walk inside
  obtain ⟨rfl, holds⟩ := inside.of_nil holds
  exact ⟨_, _, Reduction.run_basicType holds ran, rest⟩

theorem array {element opening size closing : Tree Token}
    (acts : actions.getD index .nothing = .typeArray) (inner : Types actions element)
    (opens : Names (some "[") opening) (sized : Names none size)
    (closes : Names (some "]") closing) :
    Types actions (.node index [element, opening, size, closing]) := by
  intro trees stack last translator after code supply breaks holds walk
  obtain ⟨_, _, _, _, _, inside, ran, rest⟩ := walk.of_node acts
  obtain ⟨_, _, holds, inside⟩ := inner holds inside
  obtain ⟨_, inside⟩ := opens.walk inside
  obtain ⟨_, inside⟩ := sized.walk inside
  obtain ⟨_, inside⟩ := closes.walk inside
  obtain ⟨rfl, holds⟩ := inside.of_nil holds
  exact ⟨_, _, Reduction.run_typeArray holds ran, rest⟩

end Types

namespace Emits

theorem skip (acts : actions.getD index .nothing = .nothing) :
    Emits actions (.node index []) .skip where
  read := by simp
  walk := by
    intro trees stack last translator after code supply breaks holds walk
    obtain ⟨_, _, _, _, _, inside, ran, rest⟩ := walk.of_node acts
    obtain ⟨rfl, holds⟩ := inside.of_nil holds
    have holds := Reduction.run_nothing holds ran
    exact ⟨trivial, _, _, by rwa [Stmt.code, List.append_nil], rest⟩

theorem child {child : Tree Token} {stmt : Stmt} (acts : actions.getD index .nothing = .nothing)
    (inner : Emits actions child stmt) : Emits actions (.node index [child]) stmt where
  read := by simpa using inner.read
  walk := by
    intro trees stack last translator after code supply breaks holds walk
    obtain ⟨_, _, _, _, _, inside, ran, rest⟩ := walk.of_node acts
    obtain ⟨nested, _, _, holds, inside⟩ := inner.walk holds inside
    obtain ⟨rfl, holds⟩ := inside.of_nil holds
    exact ⟨nested, _, _, Reduction.run_nothing holds ran, rest⟩

theorem seq {left right : Tree Token} {first second : Stmt}
    (acts : actions.getD index .nothing = .nothing) (one : Emits actions left first)
    (two : Emits actions right second) (plain : (right.map Token.text).isBraced = false) :
    Emits actions (.node index [left, right]) (.seq first second) where
  read := by simp [one.spells_eq, plain, one.read, two.read]
  walk := by
    intro trees stack last translator after code supply breaks holds walk
    obtain ⟨_, _, _, _, _, inside, ran, rest⟩ := walk.of_node acts
    obtain ⟨firstNested, _, _, holds, inside⟩ := one.walk holds inside
    obtain ⟨secondNested, _, _, holds, inside⟩ := two.walk holds inside
    obtain ⟨rfl, holds⟩ := inside.of_nil holds
    have holds := Reduction.run_nothing holds ran
    rw [List.append_assoc] at holds
    exact ⟨⟨firstNested, secondNested⟩, _, _, holds, rest⟩

theorem braced {opening left right closing : Tree Token} {first second : Stmt}
    (acts : actions.getD index .nothing = .nothing) (opens : Names (some "\x7b") opening)
    (one : Emits actions left first) (two : Emits actions right second)
    (closes : Names (some "\x7d") closing) :
    Emits actions (.node index [opening, left, right, closing]) (.seq first second) where
  read := by simp [opens.map_eq, one.read, two.read, closes.map_eq]
  walk := by
    intro trees stack last translator after code supply breaks holds walk
    obtain ⟨_, _, _, _, _, inside, ran, rest⟩ := walk.of_node acts
    obtain ⟨_, inside⟩ := opens.walk inside
    obtain ⟨firstNested, _, _, holds, inside⟩ := one.walk holds inside
    obtain ⟨secondNested, _, _, holds, inside⟩ := two.walk holds inside
    obtain ⟨_, inside⟩ := closes.walk inside
    obtain ⟨rfl, holds⟩ := inside.of_nil holds
    have holds := Reduction.run_nothing holds ran
    rw [List.append_assoc] at holds
    exact ⟨⟨firstNested, secondNested⟩, _, _, holds, rest⟩

theorem declare {type closing : Tree Token} {token : Token}
    (acts : actions.getD index .nothing = .decl) (typed : Types actions type)
    (closes : Names (some ";") closing) :
    Emits actions (.node index [type, .leaf token, closing]) (.declare token.text) where
  read := by simp [closes.map_eq]
  walk := by
    intro trees stack last translator after code supply breaks holds walk
    obtain ⟨_, _, _, _, _, inside, ran, rest⟩ := walk.of_node acts
    obtain ⟨_, _, holds, inside⟩ := typed holds inside
    cases inside with
    | leaf _ _ _ _ _ _ inside =>
        obtain ⟨_, inside⟩ := closes.walk inside
        obtain ⟨rfl, holds⟩ := inside.of_nil holds
        have holds := Reduction.run_decl holds ran
        exact ⟨trivial, _, _, by rwa [Stmt.code, List.append_nil], rest⟩

theorem declareArray {type opening size closing final : Tree Token} {token : Token}
    (acts : actions.getD index .nothing = .declArray) (typed : Types actions type)
    (opens : Names (some "[") opening) (sized : Names none size)
    (closes : Names (some "]") closing) (ends : Names (some ";") final) :
    Emits actions (.node index [type, .leaf token, opening, size, closing, final])
      (.declare token.text) where
  read := by simp [opens.map_eq, closes.map_eq, ends.map_eq]
  walk := by
    intro trees stack last translator after code supply breaks holds walk
    obtain ⟨_, _, _, _, _, inside, ran, rest⟩ := walk.of_node acts
    obtain ⟨_, _, holds, inside⟩ := typed holds inside
    cases inside with
    | leaf _ _ _ _ _ _ inside =>
        obtain ⟨_, inside⟩ := opens.walk inside
        obtain ⟨_, inside⟩ := sized.walk inside
        obtain ⟨_, inside⟩ := closes.walk inside
        obtain ⟨_, inside⟩ := ends.walk inside
        obtain ⟨rfl, holds⟩ := inside.of_nil holds
        have holds := Reduction.run_declArray holds ran
        exact ⟨trivial, _, _, by rwa [Stmt.code, List.append_nil], rest⟩

theorem assign {location sign source final : Tree Token} {place : String} {value : Expr}
    (acts : actions.getD index .nothing = .assign)
    (target : Evaluates actions location (.place place)) (signed : Names (some "=") sign)
    (inner : Evaluates actions source value) (ends : Names (some ";") final) :
    Emits actions (.node index [location, sign, source, final]) (.assign place value) where
  read := by simp [target.read, signed.map_eq, inner.read, ends.map_eq]
  walk := by
    intro trees stack last translator after code supply breaks holds walk
    obtain ⟨_, _, _, _, _, inside, ran, rest⟩ := walk.of_node acts
    obtain ⟨_, _, targetPlace, holds, inside⟩ := target.walk holds inside
    obtain ⟨_, inside⟩ := signed.walk inside
    obtain ⟨_, _, valuePlace, holds, inside⟩ := inner.walk holds inside
    obtain ⟨_, inside⟩ := ends.walk inside
    obtain ⟨rfl, holds⟩ := inside.of_nil holds
    have holds := Reduction.run_assign holds ran
    rw [targetPlace, valuePlace, Supply.spend_spend] at holds
    refine ⟨trivial, _, _, ?_, rest⟩
    simpa [Stmt.code, Stmt.after, Expr.code, Expr.result, Expr.operators] using holds

theorem ifThen {word opening test closing marker consequent : Tree Token} {cond : Expr}
    {body : Stmt}
    (acts : actions.getD index .nothing = .ifThen) (worded : Names (some "if") word)
    (opens : Names (some "(") opening) (tested : Evaluates actions test cond)
    (closes : Names (some ")") closing) (marks : Marks actions .ifTest marker)
    (inner : Emits actions consequent body) :
    Emits actions (.node index [word, opening, test, closing, marker, consequent])
      (.ifThen cond body) where
  read := by
    obtain ⟨_, rfl, _⟩ := marks
    simp [worded.map_eq, opens.map_eq, tested.read, closes.map_eq, inner.read]
  walk := by
    intro trees stack last translator after code supply breaks holds walk
    obtain ⟨_, _, _, _, _, inside, ran, rest⟩ := walk.of_node acts
    obtain ⟨_, inside⟩ := worded.walk inside
    obtain ⟨_, inside⟩ := opens.walk inside
    obtain ⟨_, _, place, holds, inside⟩ := tested.walk holds inside
    obtain ⟨_, inside⟩ := closes.walk inside
    obtain ⟨_, _, _, _, holds, ranTest, inside⟩ := marks.walk holds inside
    obtain ⟨rfl, holds⟩ := Reduction.run_ifTest holds ranTest
    obtain ⟨nested, _, _, holds, inside⟩ := inner.walk holds inside
    obtain ⟨rfl, holds⟩ := inside.of_nil holds
    have holds := Reduction.run_ifThen holds ran
    rw [place] at holds
    simp only [List.append_assoc, List.singleton_append] at holds
    exact ⟨nested, _, _, holds, rest⟩

theorem ifElse
    {word opening test closing marker consequent otherWord otherMarker alternative : Tree Token}
    {cond : Expr} {body other : Stmt} (acts : actions.getD index .nothing = .ifElse)
    (worded : Names (some "if") word) (opens : Names (some "(") opening)
    (tested : Evaluates actions test cond) (closes : Names (some ")") closing)
    (marks : Marks actions .ifTest marker) (inner : Emits actions consequent body)
    (otherWorded : Names (some "else") otherWord)
    (otherMarks : Marks actions .ifElseMark otherMarker) (outer : Emits actions alternative other) :
    Emits actions
      (.node index
        [word, opening, test, closing, marker, consequent, otherWord, otherMarker, alternative])
      (.ifElse cond body other) where
  read := by
    simp [worded.map_eq, opens.map_eq, tested.read, closes.map_eq, inner.read, otherWorded.map_eq,
      outer.read]
  walk := by
    intro trees stack last translator after code supply breaks holds walk
    obtain ⟨_, _, _, _, _, inside, ran, rest⟩ := walk.of_node acts
    obtain ⟨_, inside⟩ := worded.walk inside
    obtain ⟨_, inside⟩ := opens.walk inside
    obtain ⟨_, _, place, holds, inside⟩ := tested.walk holds inside
    obtain ⟨_, inside⟩ := closes.walk inside
    obtain ⟨_, _, _, _, holds, ranTest, inside⟩ := marks.walk holds inside
    obtain ⟨rfl, holds⟩ := Reduction.run_ifTest holds ranTest
    obtain ⟨nested, _, _, holds, inside⟩ := inner.walk holds inside
    obtain ⟨_, inside⟩ := otherWorded.walk inside
    obtain ⟨_, _, _, _, holds, ranMark, inside⟩ := otherMarks.walk holds inside
    obtain ⟨rfl, holds⟩ := Reduction.run_ifElseMark holds ranMark
    obtain ⟨otherNested, _, _, holds, inside⟩ := outer.walk holds inside
    obtain ⟨rfl, holds⟩ := inside.of_nil holds
    have holds := Reduction.run_ifElse holds ran
    rw [place] at holds
    simp only [List.append_assoc, List.singleton_append] at holds
    exact ⟨⟨nested, otherNested⟩, _, _, holds, rest⟩

theorem whileDo {word enter opening test closing marker inner : Tree Token} {cond : Expr}
    {body : Stmt} (acts : actions.getD index .nothing = .whileLoop)
    (worded : Names (some "while") word) (enters : Marks actions .loopEnter enter)
    (opens : Names (some "(") opening) (tested : Evaluates actions test cond)
    (closes : Names (some ")") closing)
    (marks : Marks actions .loopTest marker) (repeated : Emits actions inner body) :
    Emits actions (.node index [word, enter, opening, test, closing, marker, inner])
      (.whileDo cond body) where
  read := by simp [worded.map_eq, opens.map_eq, tested.read, closes.map_eq, repeated.read]
  walk := by
    intro trees stack last translator after code supply breaks holds walk
    obtain ⟨_, _, _, _, _, inside, ran, rest⟩ := walk.of_node acts
    obtain ⟨_, inside⟩ := worded.walk inside
    obtain ⟨_, _, _, _, holds, ranEnter, inside⟩ := enters.walk holds inside
    obtain ⟨rfl, holds⟩ := Reduction.run_loopEnter holds ranEnter
    obtain ⟨_, inside⟩ := opens.walk inside
    obtain ⟨_, _, place, holds, inside⟩ := tested.walk holds inside
    obtain ⟨_, inside⟩ := closes.walk inside
    obtain ⟨_, _, _, _, holds, ranTest, inside⟩ := marks.walk holds inside
    have holds := Reduction.run_loopTest holds ranTest
    obtain ⟨nested, _, _, holds, inside⟩ := repeated.walk holds inside
    obtain ⟨rfl, holds⟩ := inside.of_nil holds
    have holds := Reduction.run_whileLoop holds ran
    rw [place] at holds
    simp only [List.append_assoc, List.singleton_append] at holds
    exact ⟨nested, _, _, holds, rest⟩

theorem doWhile {word enter inner loopWord opening test closing final : Tree Token} {cond : Expr}
    {body : Stmt} (acts : actions.getD index .nothing = .doWhile) (worded : Names (some "do") word)
    (enters : Marks actions .loopEnter enter) (repeated : Emits actions inner body)
    (loopWorded : Names (some "while") loopWord) (opens : Names (some "(") opening)
    (tested : Evaluates actions test cond) (closes : Names (some ")") closing)
    (ends : Names (some ";") final) :
    Emits actions (.node index [word, enter, inner, loopWord, opening, test, closing, final])
      (.doWhile body cond) where
  read := by
    simp [worded.map_eq, repeated.read, loopWorded.map_eq, opens.map_eq, tested.read,
      closes.map_eq, ends.map_eq]
  walk := by
    intro trees stack last translator after code supply breaks holds walk
    obtain ⟨_, _, _, _, _, inside, ran, rest⟩ := walk.of_node acts
    obtain ⟨_, inside⟩ := worded.walk inside
    obtain ⟨_, _, _, _, holds, ranEnter, inside⟩ := enters.walk holds inside
    obtain ⟨rfl, holds⟩ := Reduction.run_loopEnter holds ranEnter
    obtain ⟨nested, _, _, holds, inside⟩ := repeated.walk holds inside
    obtain ⟨_, inside⟩ := loopWorded.walk inside
    obtain ⟨_, inside⟩ := opens.walk inside
    obtain ⟨_, _, place, holds, inside⟩ := tested.walk holds inside
    obtain ⟨_, inside⟩ := closes.walk inside
    obtain ⟨_, inside⟩ := ends.walk inside
    obtain ⟨rfl, holds⟩ := inside.of_nil holds
    have holds := Reduction.run_doWhile holds ran
    rw [place] at holds
    simp only [List.append_assoc, List.singleton_append] at holds
    exact ⟨nested, _, _, holds, rest⟩

theorem leave {word final : Tree Token} (acts : actions.getD index .nothing = .breakLoop)
    (worded : Names (some "break") word) (ends : Names (some ";") final) :
    Emits actions (.node index [word, final]) .leave where
  read := by simp [worded.map_eq, ends.map_eq]
  walk := by
    intro trees stack last translator after code supply breaks holds walk
    obtain ⟨_, _, _, _, _, inside, ran, rest⟩ := walk.of_node acts
    obtain ⟨_, inside⟩ := worded.walk inside
    obtain ⟨_, inside⟩ := ends.walk inside
    obtain ⟨rfl, holds⟩ := inside.of_nil holds
    obtain ⟨exit, outer, rfl, holds⟩ := Reduction.run_breakLoop holds ran
    exact ⟨rfl, _, _, holds, rest⟩

theorem block {enter inner : Tree Token} {body : Stmt}
    (acts : actions.getD index .nothing = .nestedBlock) (enters : Marks actions .scopeEnter enter)
    (emits : Emits actions inner body) (braced : (inner.map Token.text).isBraced = true) :
    Emits actions (.node index [enter, inner]) (.block body) where
  read := by
    obtain ⟨_, rfl, _⟩ := enters
    simp [braced, emits.read]
  walk := by
    intro trees stack last translator after code supply breaks holds walk
    obtain ⟨_, _, _, _, _, inside, ran, rest⟩ := walk.of_node acts
    obtain ⟨_, _, _, _, holds, ranEnter, inside⟩ := enters.walk holds inside
    have holds := Reduction.run_scopeEnter holds ranEnter
    obtain ⟨nested, _, _, holds, inside⟩ := emits.walk holds inside
    obtain ⟨rfl, holds⟩ := inside.of_nil holds
    exact ⟨nested, _, _, Reduction.run_nestedBlock holds ran, rest⟩

end Emits

/-- A node does what its role asks if its children do and its action fits. -/
theorem Role.acts_node {body : List Role} {head : Role} {children : List (Tree Token)}
    (fits : (actions.getD index .nothing).fits body head = true)
    (shown : List.Forall₂ Role.Shows body children)
    (inside : List.Forall₂ (Role.Acts actions) body children) :
    head.Acts actions (.node index children) := by
  generalize acts : actions.getD index .nothing = action at fits
  cases Semantic.fitting_of_fits fits with
  | skip =>
      cases inside
      exact ⟨_, .skip acts⟩
  | child =>
      rcases inside with _ | ⟨⟨_, one⟩, ⟨⟩⟩
      exact ⟨_, .child acts one⟩
  | seq =>
      rcases inside with _ | ⟨⟨_, one⟩, _ | ⟨⟨_, two⟩, ⟨⟩⟩⟩
      rcases shown with _ | ⟨_, _ | ⟨⟨_, _, _, plain⟩, ⟨⟩⟩⟩
      exact ⟨_, .seq acts one two plain⟩
  | braced =>
      rcases inside with _ | ⟨opens, _ | ⟨⟨_, one⟩, _ | ⟨⟨_, two⟩, _ | ⟨closes, ⟨⟩⟩⟩⟩⟩
      exact ⟨_, .braced acts opens one two closes⟩
  | typing =>
      rcases inside with _ | ⟨inner, ⟨⟩⟩
      exact Types.child acts inner
  | basicType =>
      rcases inside with _ | ⟨names, ⟨⟩⟩
      exact Types.basic acts names
  | typeArray =>
      rcases inside with _ | ⟨inner, _ | ⟨opens, _ | ⟨sized, _ | ⟨closes, ⟨⟩⟩⟩⟩⟩
      exact Types.array acts inner opens sized closes
  | decl =>
      rcases inside with _ | ⟨typed, _ | ⟨⟨token, rfl, _⟩, _ | ⟨closes, ⟨⟩⟩⟩⟩
      exact ⟨_, .declare acts typed closes⟩
  | declArray =>
      rcases inside with _ | ⟨typed, _ | ⟨⟨token, rfl, _⟩, _ | ⟨opens, _ | ⟨sized, _ | ⟨closes,
        _ | ⟨ends, ⟨⟩⟩⟩⟩⟩⟩⟩
      exact ⟨_, .declareArray acts typed opens sized closes ends⟩
  | locId =>
      rcases inside with _ | ⟨names, ⟨⟩⟩
      obtain ⟨_, inner⟩ := names.evaluates
      exact ⟨_, .locId acts inner⟩
  | locIndex =>
      rcases inside with _ | ⟨⟨_, array⟩, _ | ⟨opens, _ | ⟨sized, _ | ⟨closes, ⟨⟩⟩⟩⟩⟩
      obtain ⟨_, position⟩ := sized.evaluates
      exact ⟨_, .locIndex acts array opens position closes⟩
  | passLocation =>
      rcases inside with _ | ⟨⟨_, inner⟩, ⟨⟩⟩
      exact ⟨_, .pass acts inner⟩
  | passLocated =>
      rcases inside with _ | ⟨⟨_, inner⟩, ⟨⟩⟩
      exact ⟨_, .pass acts inner⟩
  | passValue =>
      rcases inside with _ | ⟨⟨_, inner⟩, ⟨⟩⟩
      exact ⟨_, .pass acts inner⟩
  | passToken word? =>
      rcases inside with _ | ⟨names, ⟨⟩⟩
      obtain ⟨_, inner⟩ := names.evaluates
      exact ⟨_, .pass acts inner⟩
  | paren =>
      rcases inside with _ | ⟨opens, _ | ⟨⟨_, inner⟩, _ | ⟨closes, ⟨⟩⟩⟩⟩
      rcases shown with _ | ⟨_, _ | ⟨⟨_, _, rfl⟩, _ | ⟨_, ⟨⟩⟩⟩⟩
      exact ⟨_, .paren acts opens inner closes⟩
  | binary op =>
      rcases inside with _ | ⟨⟨_, first⟩, _ | ⟨sign, _ | ⟨⟨_, second⟩, ⟨⟩⟩⟩⟩
      exact ⟨_, .binary acts first sign second⟩
  | unary op =>
      rcases inside with _ | ⟨sign, _ | ⟨⟨_, inner⟩, ⟨⟩⟩⟩
      exact ⟨_, .unary acts sign inner⟩
  | assign =>
      rcases inside with _ | ⟨⟨_, target⟩, _ | ⟨signed, _ | ⟨⟨_, inner⟩,
        _ | ⟨ends, ⟨⟩⟩⟩⟩⟩
      exact ⟨_, .assign acts target signed inner ends⟩
  | assignToken =>
      rcases inside with _ | ⟨⟨_, target⟩, _ | ⟨signed, _ | ⟨names, _ | ⟨ends, ⟨⟩⟩⟩⟩⟩
      obtain ⟨_, inner⟩ := names.evaluates
      exact ⟨_, .assign acts target signed inner ends⟩
  | ifThen =>
      rcases inside with _ | ⟨worded, _ | ⟨opens, _ | ⟨⟨_, tested⟩, _ | ⟨closes,
        _ | ⟨marks, _ | ⟨⟨_, inner⟩, ⟨⟩⟩⟩⟩⟩⟩⟩
      exact ⟨_, .ifThen acts worded opens tested closes marks inner⟩
  | ifElse =>
      rcases inside with _ | ⟨worded, _ | ⟨opens, _ | ⟨⟨_, tested⟩, _ | ⟨closes,
        _ | ⟨marks, _ | ⟨⟨_, inner⟩, _ | ⟨otherWorded, _ | ⟨otherMarks,
        _ | ⟨⟨_, outer⟩, ⟨⟩⟩⟩⟩⟩⟩⟩⟩⟩⟩
      exact ⟨_, .ifElse acts worded opens tested closes marks inner otherWorded otherMarks outer⟩
  | whileLoop =>
      rcases inside with _ | ⟨worded, _ | ⟨enters, _ | ⟨opens, _ | ⟨⟨_, tested⟩,
        _ | ⟨closes, _ | ⟨marks, _ | ⟨⟨_, repeated⟩, ⟨⟩⟩⟩⟩⟩⟩⟩⟩
      exact ⟨_, .whileDo acts worded enters opens tested closes marks repeated⟩
  | doWhile =>
      rcases inside with _ | ⟨worded, _ | ⟨enters, _ | ⟨⟨_, repeated⟩, _ | ⟨loopWorded,
        _ | ⟨opens, _ | ⟨⟨_, tested⟩, _ | ⟨closes, _ | ⟨ends, ⟨⟩⟩⟩⟩⟩⟩⟩⟩⟩
      exact ⟨_, .doWhile acts worded enters repeated loopWorded opens tested closes ends⟩
  | breakLoop =>
      rcases inside with _ | ⟨worded, _ | ⟨ends, ⟨⟩⟩⟩
      exact ⟨_, .leave acts worded ends⟩
  | nestedBlock =>
      rcases inside with _ | ⟨enters, _ | ⟨⟨_, emits⟩, ⟨⟩⟩⟩
      rcases shown with _ | ⟨_, _ | ⟨⟨_, _, _, braced⟩, ⟨⟩⟩⟩
      exact ⟨_, .block acts enters emits braced⟩
  | _ =>
      cases inside
      exact ⟨index, rfl, acts⟩

/-- Trees of the language do what their roles ask. -/
theorem Shaped.acts {roles : List Role} {trees : List (Tree Token)}
    (shaped : Shaped actions roles trees) : List.Forall₂ (Role.Acts actions) roles trees := by
  induction shaped with
  | nil => exact .nil
  | leaf token word? roles trees worded _ ih => exact .cons ⟨token, rfl, worded⟩ ih
  | node index head body roles children trees fits inside _ insideIh ih =>
      exact .cons (Role.acts_node fits inside.shows insideIh) ih

/-! Programs whose leaves are not spelled like temporaries. -/

theorem eq_t_or_isDigit {text : String} (form : isTemporary text = true) (letter : Char)
    (member : letter ∈ text.toList) : letter = 't' ∨ letter.isDigit = true := by
  unfold isTemporary at form
  split at form
  · rename_i first rest spelled
    rw [spelled] at member
    rcases List.mem_cons.mp member with rfl | later
    · exact .inl rfl
    · exact .inr (List.all_eq_true.mp form letter later)
  · cases form

/-- An indexed place does not have the form of a temporary. -/
theorem isTemporary_indexed (base index : String) :
    isTemporary (base ++ "[" ++ index ++ "]") = false := by
  by_contra contrary
  have form := Bool.eq_true_of_not_eq_false contrary
  have bracket : '[' ∈ (base ++ "[" ++ index ++ "]").toList := by simp
  rcases eq_t_or_isDigit form '[' bracket with same | digit
  · exact absurd same (by decide)
  · exact absurd digit (by decide)

/-- An expression read off a tree has the places of its leaves, and indexed ones. -/
theorem Expr.plain_of_read {tree : Tree String} {expr : Expr}
    (plain : ∀ text ∈ tree.leaves, isTemporary text = false)
    (read : Expr.read tree = some expr) : expr.Plain := by
  fun_induction Expr.read tree generalizing expr with
  | case1 text =>
      cases read
      exact plain text (by simp)
  | case2 _ child ih => exact ih (by simpa using plain) read
  | case3 _ _ _ _ _ operandRead _ ih =>
      cases read
      have operandPlain := ih (fun text member => plain text (by simp [member])) operandRead
      exact operandPlain
  | case5 _ _ _ _ op lhs rhs rightRead leftRead _ leftIh rightIh =>
      cases read
      constructor
      · exact leftIh (fun text member => plain text (by simp [member])) leftRead
      · exact rightIh (fun text member => plain text (by simp [member])) rightRead
  | case7 _ _ _ _ _ _ ih => exact ih (fun text member => plain text (by simp [member])) read
  | case9 _ _ _ _ _ _ base size =>
      cases read
      exact isTemporary_indexed base size
  | case4 | case6 | case8 | case10 | case11 | case12 => cases read

/-- A statement read off a tree has the places of its leaves, and indexed ones. -/
theorem Stmt.plain_of_read {tree : Tree String} {stmt : Stmt}
    (plain : ∀ text ∈ tree.leaves, isTemporary text = false)
    (read : Stmt.read tree = some stmt) : stmt.Plain := by
  fun_induction Stmt.read tree generalizing stmt with
  | case2 | case4 | case8 | case15 =>
      cases read
      exact trivial
  | case3 _ child ih => exact ih (by simpa using plain) read
  | case5 _ _ body _ _ ih =>
      obtain ⟨inner, found, rfl⟩ := Option.map_eq_some_iff.mp read
      have innerPlain := ih (fun text member => plain text (by simp [member])) found
      exact innerPlain
  | case6 _ _ _ _ _ _ _ secondRead firstRead firstIh secondIh =>
      cases read
      constructor
      · exact firstIh (fun text member => plain text (by simp [member])) firstRead
      · exact secondIh (fun text member => plain text (by simp [member])) secondRead
  | case10 _ _ _ _ _ _ _ _ secondRead firstRead firstIh secondIh =>
      cases read
      constructor
      · exact firstIh (fun text member => plain text (by simp [member])) firstRead
      · exact secondIh (fun text member => plain text (by simp [member])) secondRead
  | case12 _ _ _ _ _ _ _ _ _ valueRead placeRead =>
      cases read
      constructor
      · exact Expr.plain_of_read (fun text member => plain text (by simp [member])) placeRead
      · exact Expr.plain_of_read (fun text member => plain text (by simp [member])) valueRead
  | case16 _ _ _ _ _ _ _ _ _ _ _ bodyRead condRead ih =>
      cases read
      constructor
      · exact Expr.plain_of_read (fun text member => plain text (by simp [member])) condRead
      · exact ih (fun text member => plain text (by simp [member])) bodyRead
  | case19 _ _ _ _ _ _ _ _ _ _ _ bodyRead condRead ih =>
      cases read
      constructor
      · exact Expr.plain_of_read (fun text member => plain text (by simp [member])) condRead
      · exact ih (fun text member => plain text (by simp [member])) bodyRead
  | case22 _ _ _ _ _ _ _ _ _ _ _ _ condRead bodyRead ih =>
      cases read
      constructor
      · exact ih (fun text member => plain text (by simp [member])) bodyRead
      · exact Expr.plain_of_read (fun text member => plain text (by simp [member])) condRead
  | case25 _ _ _ _ _ _ _ _ _ _ _ _ _ _ otherRead bodyRead condRead bodyIh otherIh =>
      cases read
      refine ⟨?_, ?_, ?_⟩
      · exact Expr.plain_of_read (fun text member => plain text (by simp [member])) condRead
      · exact bodyIh (fun text member => plain text (by simp [member])) bodyRead
      · exact otherIh (fun text member => plain text (by simp [member])) otherRead
  | _ => cases read

/-- A tree that emits the code of a statement whose places are not spelled like temporaries. -/
structure Executes (actions : Array Semantic) (tree : Tree Token) (stmt : Stmt) : Prop
    extends Emits actions tree stmt where
  plain : stmt.Plain

/-- What a tree of a role does if its tokens are not spelled like temporaries. -/
def Role.Meets (actions : Array Semantic) : Role → Tree Token → Prop
  | .statement, tree => ∃ stmt, Executes actions tree stmt
  | role, tree => role.Acts actions tree

theorem Role.Acts.meets {role : Role} {tree : Tree Token} (acts : role.Acts actions tree)
    (plain : ∀ token ∈ tree.leaves, isTemporary token.text = false) : role.Meets actions tree := by
  cases role with
  | statement =>
      obtain ⟨stmt, emits⟩ := acts
      have texts : ∀ text ∈ (tree.map Token.text).leaves, isTemporary text = false := by
        intro text member
        rw [Tree.leaves_map] at member
        obtain ⟨token, inside, rfl⟩ := List.mem_map.mp member
        exact plain token inside
      exact ⟨stmt, emits, Stmt.plain_of_read texts emits.read⟩
  | _ => exact acts

/-- Trees of the language do what their roles ask, on the places that their tokens name. -/
theorem Shaped.meets {roles : List Role} {trees : List (Tree Token)}
    (shaped : Shaped actions roles trees)
    (plain : ∀ token ∈ trees.flatMap Tree.leaves, isTemporary token.text = false) :
    List.Forall₂ (Role.Meets actions) roles trees := by
  have acts := shaped.acts
  clear shaped
  induction acts with
  | nil => exact .nil
  | cons head _ ih =>
      simp only [List.flatMap_cons, List.forall_mem_append] at plain
      exact .cons (head.meets plain.1) (ih plain.2)

end ThreeAddress

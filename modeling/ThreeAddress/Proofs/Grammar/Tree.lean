import ThreeAddress.Grammar.Basic

/-!
Syntax trees over the productions of a grammar. Sequences of trees matter as much as single ones:
the body of a production and the stack of a parser are both read as such a sequence.
-/

set_option autoImplicit false

namespace ThreeAddress

/-- A syntax tree: a token that was read, or a production over the trees of its body. -/
inductive Tree (α : Type) where
  | leaf (token : α)
  | node (production : Nat) (children : List (Tree α))

namespace Tree

variable {α β : Type}

mutual

/-- The tokens of a tree from left to right. -/
def leaves : Tree α → List α
  | .leaf token => [token]
  | .node _ children => leavesAll children

def leavesAll : List (Tree α) → List α
  | [] => []
  | tree :: rest => tree.leaves ++ leavesAll rest

end

mutual

/-- The productions of a tree in post-order: those of its children, then its own. -/
def postorder : Tree α → List Nat
  | .leaf _ => []
  | .node production children => postorderAll children ++ [production]

def postorderAll : List (Tree α) → List Nat
  | [] => []
  | tree :: rest => tree.postorder ++ postorderAll rest

end

mutual

/-- Renames the tokens of a tree. -/
def map (rename : α → β) : Tree α → Tree β
  | .leaf token => .leaf (rename token)
  | .node production children => .node production (mapAll rename children)

def mapAll (rename : α → β) : List (Tree α) → List (Tree β)
  | [] => []
  | tree :: rest => tree.map rename :: mapAll rename rest

end

theorem leavesAll_eq (trees : List (Tree α)) : leavesAll trees = trees.flatMap leaves := by
  induction trees with
  | nil => rfl
  | cons tree rest ih => rw [leavesAll, ih, List.flatMap_cons]

theorem postorderAll_eq (trees : List (Tree α)) :
    postorderAll trees = trees.flatMap postorder := by
  induction trees with
  | nil => rfl
  | cons tree rest ih => rw [postorderAll, ih, List.flatMap_cons]

theorem mapAll_eq (rename : α → β) (trees : List (Tree α)) :
    mapAll rename trees = trees.map (map rename) := by
  induction trees with
  | nil => rfl
  | cons tree rest ih => rw [mapAll, ih, List.map_cons]

@[simp] theorem leaves_leaf (token : α) : (leaf token).leaves = [token] := rfl

@[simp] theorem leaves_node (production : Nat) (children : List (Tree α)) :
    (node production children).leaves = children.flatMap leaves := leavesAll_eq children

@[simp] theorem postorder_leaf (token : α) : (leaf token).postorder = [] := rfl

@[simp] theorem postorder_node (production : Nat) (children : List (Tree α)) :
    (node production children).postorder = children.flatMap postorder ++ [production] := by
  rw [postorder, postorderAll_eq]

@[simp] theorem map_leaf (rename : α → β) (token : α) :
    (leaf token).map rename = leaf (rename token) := rfl

@[simp] theorem map_node (rename : α → β) (production : Nat) (children : List (Tree α)) :
    (node production children).map rename = node production (children.map (map rename)) := by
  rw [map, mapAll_eq]

mutual

@[simp] theorem leaves_map (rename : α → β) :
    (tree : Tree α) → (tree.map rename).leaves = tree.leaves.map rename
  | .leaf _ => rfl
  | .node _ children => leavesAll_mapAll rename children

theorem leavesAll_mapAll (rename : α → β) :
    (trees : List (Tree α)) → leavesAll (mapAll rename trees) = (leavesAll trees).map rename
  | [] => rfl
  | tree :: rest => by
    rw [mapAll, leavesAll, leavesAll, List.map_append, leaves_map rename tree,
      leavesAll_mapAll rename rest]

end

mutual

theorem map_map {γ : Type} (rename : α → β) (again : β → γ) :
    (tree : Tree α) → (tree.map rename).map again = tree.map fun token => again (rename token)
  | .leaf _ => rfl
  | .node production children =>
    congrArg (node production) (mapAll_mapAll rename again children)

theorem mapAll_mapAll {γ : Type} (rename : α → β) (again : β → γ) :
    (trees : List (Tree α)) →
      mapAll again (mapAll rename trees) = mapAll (fun token => again (rename token)) trees
  | [] => rfl
  | tree :: rest => by
    rw [mapAll, mapAll, mapAll, map_map rename again tree, mapAll_mapAll rename again rest]

end

mutual

/-- Renaming that changes no leaf changes nothing. -/
theorem map_eq_self (rename : α → α) :
    (tree : Tree α) → (∀ token ∈ tree.leaves, rename token = token) → tree.map rename = tree
  | .leaf token, same => congrArg leaf (same token (List.mem_singleton.mpr rfl))
  | .node production children, same =>
    congrArg (node production) (mapAll_eq_self rename children same)

theorem mapAll_eq_self (rename : α → α) :
    (trees : List (Tree α)) → (∀ token ∈ leavesAll trees, rename token = token) →
      mapAll rename trees = trees
  | [], _ => rfl
  | tree :: rest, same => by
    rw [leavesAll] at same
    rw [mapAll, map_eq_self rename tree fun token member => same token (List.mem_append_left _ member),
      mapAll_eq_self rename rest fun token member => same token (List.mem_append_right _ member)]

end

end Tree

/-- The trees are syntax trees of the symbols, one for each. A token is read as at most one
terminal. -/
inductive Grammar.Parses {α : Type} (grammar : Grammar) (reads : α → Option Nat) :
    List Symbol → List (Tree α) → Prop where
  | nil : Parses grammar reads [] []
  | leaf (token : α) (terminal : Nat) (symbols : List Symbol) (trees : List (Tree α))
      (read : reads token = some terminal) (rest : Parses grammar reads symbols trees) :
      Parses grammar reads (.token terminal :: symbols) (.leaf token :: trees)
  | node (index : Nat) (production : Production) (children : List (Tree α))
      (symbols : List Symbol) (trees : List (Tree α))
      (found : grammar.productions[index]? = some production)
      (body : Parses grammar reads production.body children)
      (rest : Parses grammar reads symbols trees) :
      Parses grammar reads (.nonterminal production.head :: symbols)
        (.node index children :: trees)

namespace Grammar.Parses

variable {α β : Type} {grammar : Grammar} {reads : α → Option Nat}

theorem length_eq {symbols : List Symbol} {trees : List (Tree α)}
    (parsed : grammar.Parses reads symbols trees) : trees.length = symbols.length := by
  induction parsed with
  | nil => rfl
  | leaf _ _ _ _ _ _ ih => simp only [List.length_cons, ih]
  | node _ _ _ _ _ _ _ _ _ ih => simp only [List.length_cons, ih]

theorem append {front back : List Symbol} {left right : List (Tree α)}
    (first : grammar.Parses reads front left) (second : grammar.Parses reads back right) :
    grammar.Parses reads (front ++ back) (left ++ right) := by
  induction first with
  | nil => exact second
  | leaf token terminal symbols trees read _ ih => exact .leaf token terminal _ _ read ih
  | node index production children symbols trees found body _ _ ih =>
      exact .node index production children _ _ found body ih

/-- Trees of a sequence of symbols can be cut where the symbols are cut. -/
theorem split {front back : List Symbol} {trees : List (Tree α)}
    (parsed : grammar.Parses reads (front ++ back) trees) :
    ∃ left right, trees = left ++ right ∧ grammar.Parses reads front left ∧
      grammar.Parses reads back right := by
  induction front generalizing trees with
  | nil => exact ⟨[], trees, rfl, .nil, parsed⟩
  | cons symbol front ih =>
      cases parsed with
      | leaf token terminal _ trees read rest =>
          obtain ⟨left, right, rfl, first, second⟩ := ih rest
          exact ⟨.leaf token :: left, right, rfl, .leaf token terminal _ _ read first, second⟩
      | node index production children _ trees found body rest =>
          obtain ⟨left, right, rfl, first, second⟩ := ih rest
          exact ⟨.node index children :: left, right, rfl,
            .node index production children _ _ found body first, second⟩

theorem tail {symbol : Symbol} {symbols : List Symbol} {tree : Tree α} {trees : List (Tree α)}
    (parsed : grammar.Parses reads (symbol :: symbols) (tree :: trees)) :
    grammar.Parses reads symbols trees := by
  cases parsed with
  | leaf _ _ _ _ _ rest => exact rest
  | node _ _ _ _ _ _ _ rest => exact rest

theorem exists_leaf {id : Nat} {symbols : List Symbol} {trees : List (Tree α)}
    (parsed : grammar.Parses reads (.token id :: symbols) trees) :
    ∃ token rest, trees = .leaf token :: rest ∧ reads token = some id ∧
      grammar.Parses reads symbols rest := by
  cases parsed with
  | leaf token _ _ trees read rest => exact ⟨token, trees, rfl, read, rest⟩

/-- The tree of a nonterminal has one of its productions at the root. -/
theorem exists_node {id : Nat} {symbols : List Symbol} {trees : List (Tree α)}
    (parsed : grammar.Parses reads (.nonterminal id :: symbols) trees) :
    ∃ index production children rest, trees = .node index children :: rest ∧
      grammar.productions[index]? = some production ∧ production.head = id ∧
      grammar.Parses reads production.body children ∧ grammar.Parses reads symbols rest := by
  generalize given : Symbol.nonterminal id :: symbols = all at parsed
  cases parsed with
  | nil => cases given
  | leaf _ _ _ _ _ _ => cases given
  | node index production children symbols trees found body rest =>
      cases given
      exact ⟨index, production, children, trees, rfl, found, rfl, body, rest⟩

/-- Renaming tokens keeps trees if it keeps what the tokens are read as. -/
theorem map {renamed : β → Option Nat} (rename : α → β)
    {symbols : List Symbol} {trees : List (Tree α)}
    (parsed : grammar.Parses reads symbols trees)
    (keeps : ∀ token ∈ trees.flatMap Tree.leaves, renamed (rename token) = reads token) :
    grammar.Parses renamed symbols (trees.map (Tree.map rename)) := by
  induction parsed with
  | nil => exact .nil
  | leaf token terminal symbols trees read _ ih =>
      simp only [List.flatMap_cons, Tree.leaves_leaf, List.singleton_append, List.mem_cons] at keeps
      refine .leaf (rename token) terminal _ _ ?_ (ih fun other member => keeps other (.inr member))
      rw [keeps token (.inl rfl), read]
  | node index production children symbols trees found _ _ bodyIh ih =>
      simp only [List.flatMap_cons, Tree.leaves_node, List.mem_append] at keeps
      rw [List.map_cons, Tree.map_node]
      exact .node index production _ _ _ found (bodyIh fun token member => keeps token (.inl member))
        (ih fun token member => keeps token (.inr member))

/-- Trees can be given other leaves that are read as the same terminals. -/
theorem relabel (renamed : β → Option Nat) {symbols : List Symbol} {trees : List (Tree α)}
    (parsed : grammar.Parses reads symbols trees) {tokens : List β}
    (same : tokens.map renamed = (trees.flatMap Tree.leaves).map reads) :
    ∃ others, grammar.Parses renamed symbols others ∧ others.flatMap Tree.leaves = tokens ∧
      others.flatMap Tree.postorder = trees.flatMap Tree.postorder := by
  induction parsed generalizing tokens with
  | nil => exact ⟨[], .nil, (List.map_eq_nil_iff.mp same).symm, rfl⟩
  | leaf token terminal symbols trees read _ ih =>
      obtain ⟨other, rest, rfl, first, later⟩ := List.map_eq_cons_iff.mp same
      obtain ⟨others, parses, leaves, order⟩ := ih later
      refine ⟨.leaf other :: others, .leaf other terminal symbols others ?_ parses, ?_, ?_⟩
      · rw [first, read]
      · rw [List.flatMap_cons, Tree.leaves_leaf, leaves, List.singleton_append]
      · rw [List.flatMap_cons, Tree.postorder_leaf, order, List.flatMap_cons, Tree.postorder_leaf]
  | node index production children symbols trees found _ _ bodyIh ih =>
      rw [List.flatMap_cons, Tree.leaves_node, List.map_append] at same
      obtain ⟨front, back, rfl, first, later⟩ := List.map_eq_append_iff.mp same
      obtain ⟨inside, body, bodyLeaves, bodyOrder⟩ := bodyIh first
      obtain ⟨others, parses, leaves, order⟩ := ih later
      refine ⟨.node index inside :: others, .node index production inside _ _ found body parses, ?_, ?_⟩
      · rw [List.flatMap_cons, Tree.leaves_node, bodyLeaves, leaves]
      · rw [List.flatMap_cons, Tree.postorder_node, bodyOrder, order, List.flatMap_cons,
          Tree.postorder_node]

/-- What holds of the symbols of a sequence, and of a body if it holds of its head, holds of what the
leaves are read as. -/
theorem kept_of_mem {kept : Symbol → Prop}
    (bodies : ∀ production ∈ grammar.productions, kept (.nonterminal production.head) →
      ∀ symbol ∈ production.body, kept symbol)
    {symbols : List Symbol} {trees : List (Tree α)} (parsed : grammar.Parses reads symbols trees)
    (given : ∀ symbol ∈ symbols, kept symbol) :
    ∀ token ∈ trees.flatMap Tree.leaves, ∃ id, reads token = some id ∧ kept (.token id) := by
  induction parsed with
  | nil => simp
  | leaf token terminal symbols trees read _ ih =>
      intro other member
      rw [List.flatMap_cons, Tree.leaves_leaf, List.singleton_append, List.mem_cons] at member
      rcases member with rfl | later
      · exact ⟨terminal, read, given _ List.mem_cons_self⟩
      · exact ih (fun symbol inside => given symbol (List.mem_cons_of_mem _ inside)) other later
  | node index production children symbols trees found _ _ bodyIh ih =>
      intro token member
      rw [List.flatMap_cons, Tree.leaves_node, List.mem_append] at member
      rcases member with inside | later
      · exact bodyIh (bodies production (List.mem_of_getElem? found) (given _ List.mem_cons_self))
          token inside
      · exact ih (fun symbol inside => given symbol (List.mem_cons_of_mem _ inside)) token later

/-- The leaves are read as tokens of bodies, or as tokens of the sequence itself. -/
theorem read_of_mem {holds : Nat → Prop}
    (bodies : ∀ production ∈ grammar.productions, ∀ id, .token id ∈ production.body → holds id)
    {symbols : List Symbol} {trees : List (Tree α)} (parsed : grammar.Parses reads symbols trees)
    (given : ∀ id, .token id ∈ symbols → holds id) :
    ∀ token ∈ trees.flatMap Tree.leaves, ∃ id, reads token = some id ∧ holds id := by
  intro token member
  have kept : ∀ production ∈ grammar.productions, ∀ symbol ∈ production.body, ∀ id,
      symbol = .token id → holds id := by
    rintro production inside _ inBody id rfl
    exact bodies production inside id inBody
  have givenKept : ∀ symbol ∈ symbols, ∀ id, symbol = .token id → holds id := by
    rintro _ inside id rfl
    exact given id inside
  obtain ⟨id, read, held⟩ :=
    parsed.kept_of_mem (fun production inside _ => kept production inside) givenKept token member
  exact ⟨id, read, held id rfl⟩

end Grammar.Parses

end ThreeAddress

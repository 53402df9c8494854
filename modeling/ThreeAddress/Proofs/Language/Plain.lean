import ThreeAddress.Proofs.Language.Tail

/-!
Trees of assignments. A number alone can be assigned as an expression or as a number, and the tables
build the second. Every tree can be changed into one that they build, with the same leaves and the
same conditionals.
-/

set_option autoImplicit false

namespace ThreeAddress

namespace Language

/-- The tree is read as a number and nothing else. -/
def IsNumber (tree : Tree Token) : Prop :=
  tree.leaves.map (ParseTable.ofGrammar grammar).terminal? = [some 9]

/-- No number alone is assigned as an expression. -/
inductive Plain : List (Tree Token) → Prop where
  | nil : Plain []
  | leaf (token : Token) (trees : List (Tree Token)) (later : Plain trees) :
      Plain (.leaf token :: trees)
  | node (index : Nat) (children trees : List (Tree Token))
      (value : index = 11 → ∀ tree, children[2]? = some tree → ¬IsNumber tree)
      (inside : Plain children) (later : Plain trees) :
      Plain (.node index children :: trees)

/-- The value of an assignment can be a number instead of an expression. -/
theorem exists_assigned {children : List (Tree Token)} {value : Tree Token}
    (parsed : grammar.Parses (ParseTable.ofGrammar grammar).terminal?
      [.nonterminal 8, .token 7, .nonterminal 10, .token 2] children)
    (plain : Plain children) (third : children[2]? = some value) (number : IsNumber value) :
    ∃ others, grammar.Parses (ParseTable.ofGrammar grammar).terminal?
        [.nonterminal 8, .token 7, .token 9, .token 2] others ∧
      others.flatMap Tree.leaves = children.flatMap Tree.leaves ∧ Plain others ∧
      ∀ tail, Tree.noElseInTailFrom ruleActions .assign tail 0 children = true →
        Tree.noElseInTailFrom ruleActions .assign tail 0 others = true := by
  obtain ⟨index, production, inner, _, rfl, found, head, body, second⟩ := parsed.exists_node
  obtain ⟨equals, _, rfl, readEquals, expression⟩ := second.exists_leaf
  obtain ⟨_, _, _, _, rfl, _, _, _, last⟩ := expression.exists_node
  obtain ⟨semicolon, _, rfl, readSemicolon, ends⟩ := last.exists_leaf
  cases ends
  cases third
  obtain ⟨token, leaves, read⟩ := List.map_eq_singleton_iff.mp number
  refine ⟨[.node index inner, .leaf equals, .leaf token, .leaf semicolon], ?_, ?_, ?_, ?_⟩
  · rw [← head]
    exact .node index production inner _ _ found body (.leaf equals 7 _ _ readEquals
      (.leaf token 9 _ _ read (.leaf semicolon 2 _ _ readSemicolon .nil)))
  · simp only [List.flatMap_cons, leaves, Tree.leaves_leaf]
  · cases plain with
    | node _ _ _ value inside _ =>
        exact .node index inner _ value inside
          (.leaf equals _ (.leaf token _ (.leaf semicolon _ .nil)))
  · intro tail allowed
    obtain ⟨location, _⟩ := Tree.noElseInTailFrom_cons.mp allowed
    exact Tree.noElseInTailFrom_cons.mpr ⟨location, rfl⟩

/-- Every tree has a plain one with the same leaves and the same conditionals. -/
theorem exists_plain {symbols : List Symbol} {trees : List (Tree Token)}
    (parsed : grammar.Parses (ParseTable.ofGrammar grammar).terminal? symbols trees) :
    ∃ others, grammar.Parses (ParseTable.ofGrammar grammar).terminal? symbols others ∧
      others.map Tree.leaves = trees.map Tree.leaves ∧ Plain others ∧
      ∀ action tail place,
        Tree.noElseInTailFrom ruleActions action tail place trees = true →
        Tree.noElseInTailFrom ruleActions action tail place others = true := by
  induction parsed with
  | nil => exact ⟨[], .nil, rfl, .nil, fun _ _ _ allowed => allowed⟩
  | leaf token terminal symbols trees read _ ih =>
      obtain ⟨others, parses, leaves, plain, allowed⟩ := ih
      refine ⟨.leaf token :: others, .leaf token terminal symbols others read parses, ?_,
        .leaf token others plain, ?_⟩
      · rw [List.map_cons, List.map_cons, leaves]
      · intro action tail place given
        obtain ⟨_, later⟩ := Tree.noElseInTailFrom_cons.mp given
        exact Tree.noElseInTailFrom_cons.mpr ⟨rfl, allowed action tail _ later⟩
  | node index production children symbols trees found _ _ bodyIh ih =>
      obtain ⟨others, parses, leaves, plain, allowed⟩ := ih
      obtain ⟨inner, innerParses, innerLeaves, innerPlain, innerAllowed⟩ := bodyIh
      have sameLeaves : inner.flatMap Tree.leaves = children.flatMap Tree.leaves := by
        rw [List.flatMap_def, List.flatMap_def, innerLeaves]
      by_cases number : index = 11 ∧ ∃ value, inner[2]? = some value ∧ IsNumber value
      · obtain ⟨rfl, value, third, number⟩ := number
        rw [statement_found 2 rfl] at found
        cases found
        obtain ⟨changed, changedParses, changedLeaves, changedPlain, changedAllowed⟩ :=
          exists_assigned innerParses innerPlain third number
        refine ⟨.node 12 changed :: others,
          .node 12 ⟨7, [.nonterminal 8, .token 7, .token 9, .token 2]⟩ changed symbols others
            (statement_found 3 rfl) changedParses parses, ?_,
          .node 12 changed others (fun other => by cases other) changedPlain plain, ?_⟩
        · rw [List.map_cons, List.map_cons, leaves, Tree.leaves_node, Tree.leaves_node, changedLeaves,
            sameLeaves]
        · intro action tail place given
          obtain ⟨first, later⟩ := Tree.noElseInTailFrom_cons.mp given
          obtain ⟨_, inside⟩ := Tree.noElseInTail_node.mp first
          refine Tree.noElseInTailFrom_cons.mpr ⟨Tree.noElseInTail_node.mpr ⟨?_, ?_⟩,
            allowed action tail _ later⟩
          · intro _ conditional
            cases conditional
          · exact changedAllowed _ (innerAllowed _ _ _ inside)
      · refine ⟨.node index inner :: others,
          .node index production inner symbols others found innerParses parses, ?_,
          .node index inner others ?_ innerPlain plain, ?_⟩
        · rw [List.map_cons, List.map_cons, leaves, Tree.leaves_node, Tree.leaves_node, sameLeaves]
        · intro same tree third alone
          exact number ⟨same, tree, third, alone⟩
        · intro action tail place given
          obtain ⟨first, later⟩ := Tree.noElseInTailFrom_cons.mp given
          obtain ⟨short, inside⟩ := Tree.noElseInTail_node.mp first
          exact Tree.noElseInTailFrom_cons.mpr
            ⟨Tree.noElseInTail_node.mpr ⟨short, innerAllowed _ _ _ inside⟩,
              allowed action tail _ later⟩

end Language

end ThreeAddress

import ThreeAddress.Proofs.Grammar.Tree

/-!
Derivations by the productions of a grammar, in any order and from the right. The productions of a
syntax tree in post-order, read backwards, are the rightmost derivation of its leaves.
-/

set_option autoImplicit false

namespace ThreeAddress.Grammar

/-- Replacing nonterminals by bodies leads from the first form to the second. -/
inductive Derives (grammar : Grammar) : List Symbol → List Symbol → Prop where
  | refl (form : List Symbol) : Derives grammar form form
  | step (front back : List Symbol) (index : Nat) (production : Production) (target : List Symbol)
      (found : grammar.productions[index]? = some production)
      (rest : Derives grammar (front ++ production.body ++ back) target) :
      Derives grammar (front ++ .nonterminal production.head :: back) target

/-- Replacing the last nonterminal each time, by the productions listed in order, leads from the
first form to the second. -/
inductive Rightmost (grammar : Grammar) : List Symbol → List Nat → List Symbol → Prop where
  | refl (form : List Symbol) : Rightmost grammar form [] form
  | step (front : List Symbol) (word : List Nat) (index : Nat) (production : Production)
      (later : List Nat) (target : List Symbol)
      (found : grammar.productions[index]? = some production)
      (rest : Rightmost grammar (front ++ production.body ++ word.map .token) later target) :
      Rightmost grammar (front ++ .nonterminal production.head :: word.map .token)
        (index :: later) target

variable {grammar : Grammar}

theorem Derives.of_rightmost {form target : List Symbol} {productions : List Nat}
    (derivation : grammar.Rightmost form productions target) : grammar.Derives form target := by
  induction derivation with
  | refl form => exact .refl form
  | step front word index production later target found _ ih =>
      exact .step front _ index production target found ih

namespace Rightmost

theorem trans {first second third : List Symbol} {early late : List Nat}
    (earlier : grammar.Rightmost first early second)
    (later : grammar.Rightmost second late third) :
    grammar.Rightmost first (early ++ late) third := by
  induction earlier with
  | refl form => exact later
  | step front word index production _ _ found _ ih =>
      exact .step front word index production _ _ found (ih later)

theorem append_left {form target : List Symbol} {productions : List Nat} (before : List Symbol)
    (derivation : grammar.Rightmost form productions target) :
    grammar.Rightmost (before ++ form) productions (before ++ target) := by
  induction derivation with
  | refl form => exact .refl _
  | step front word index production later target found _ ih =>
      rw [← List.append_assoc]
      refine .step (before ++ front) word index production later _ found ?_
      simpa only [List.append_assoc] using ih

/-- Terminals to the right stay where they are. -/
theorem append_right {form target : List Symbol} {productions : List Nat} (after : List Nat)
    (derivation : grammar.Rightmost form productions target) :
    grammar.Rightmost (form ++ after.map .token) productions (target ++ after.map .token) := by
  induction derivation with
  | refl form => exact .refl _
  | step front word index production later target found _ ih =>
      rw [List.append_assoc, List.cons_append, ← List.map_append]
      refine .step front (word ++ after) index production later _ found ?_
      simpa only [List.map_append, List.append_assoc] using ih

end Rightmost

/-- The trees of some symbols derive their leaves from the right, by their productions in reverse
post-order. -/
theorem Parses.rightmost {α : Type} {reads : α → Option Nat} {symbols : List Symbol}
    {trees : List (Tree α)} (parsed : grammar.Parses reads symbols trees) :
    ∃ word : List Nat, (trees.flatMap Tree.leaves).map reads = word.map some ∧
      grammar.Rightmost symbols (trees.flatMap Tree.postorder).reverse (word.map .token) := by
  induction parsed with
  | nil => exact ⟨[], rfl, .refl []⟩
  | leaf token terminal symbols trees read _ ih =>
      obtain ⟨word, leaves, derivation⟩ := ih
      refine ⟨terminal :: word, ?_, ?_⟩
      · simp only [List.flatMap_cons, Tree.leaves_leaf, List.singleton_append, List.map_cons, read,
          leaves]
      · simpa using derivation.append_left [.token terminal]
  | node index production children symbols trees found _ _ bodyIh ih =>
      obtain ⟨inside, insideLeaves, below⟩ := bodyIh
      obtain ⟨word, leaves, derivation⟩ := ih
      refine ⟨inside ++ word, ?_, ?_⟩
      · simp only [List.flatMap_cons, Tree.leaves_node, List.map_append, insideLeaves, leaves]
      · -- The trees to the right are derived first, then the head is replaced, then its body.
        have later := derivation.append_left [.nonterminal production.head]
        have replaced : grammar.Rightmost (.nonterminal production.head :: word.map .token)
            (index :: (children.flatMap Tree.postorder).reverse)
            (inside.map .token ++ word.map .token) :=
          .step [] word index production _ _ found (by simpa using below.append_right word)
        have whole := later.trans replaced
        simpa only [List.flatMap_cons, Tree.postorder_node, List.reverse_append, List.reverse_cons,
          List.reverse_nil, List.singleton_append, List.map_append, List.append_assoc,
          List.cons_append, List.nil_append] using whole

theorem parses_word (grammar : Grammar) (word : List Nat) :
    grammar.Parses some (word.map .token) (word.map .leaf) := by
  induction word with
  | nil => exact .nil
  | cons id word ih => exact .leaf id id _ _ rfl ih

/-- A form that derives a word has trees with the word as their leaves. -/
theorem Derives.exists_parses {form target : List Symbol} (derives : grammar.Derives form target)
    {word : List Nat} (ends : target = word.map .token) :
    ∃ trees : List (Tree Nat), grammar.Parses some form trees ∧
      trees.flatMap Tree.leaves = word := by
  induction derives with
  | refl form =>
      subst ends
      refine ⟨word.map .leaf, grammar.parses_word word, ?_⟩
      rw [List.flatMap_map]
      simp
  | step front back index production target found _ ih =>
      obtain ⟨trees, parsed, leaves⟩ := ih ends
      obtain ⟨outer, right, rfl, outerParsed, rightParsed⟩ := parsed.split
      obtain ⟨left, children, rfl, leftParsed, bodyParsed⟩ := outerParsed.split
      refine ⟨left ++ .node index children :: right,
        leftParsed.append (.node index production children _ _ found bodyParsed rightParsed), ?_⟩
      rw [← leaves]
      simp

end ThreeAddress.Grammar

import ThreeAddress.Proofs.Grammar.Tree
import ThreeAddress.Translator.Basic
import ThreeAddress.Token.Basic

/-!
Semantic actions along syntax trees: each token pushes its text, and each node runs the action of
its production once its children are done. The log is left open, since a run writes to it between
actions.
-/

set_option autoImplicit false

namespace ThreeAddress

/-- Reading the trees in order leads from one stack and translator to another. -/
inductive Walk (actions : Array Semantic) :
    List (Tree Token) → List Attribute → Translator → List Attribute → Translator → Prop where
  | nil (stack : List Attribute) (translator : Translator) (log : Array Event) :
      Walk actions [] stack translator stack { translator with log }
  | leaf (token : Token) (trees : List (Tree Token)) (stack last : List Attribute)
      (translator after : Translator)
      (rest : Walk actions trees (.token token.text token.start :: stack) translator last after) :
      Walk actions (.leaf token :: trees) stack translator last after
  | node (index : Nat) (children trees : List (Tree Token)) (stack body last : List Attribute)
      (translator middle done after : Translator) (pos : Nat) (head : Attribute)
      (inside : Walk actions children stack translator body middle)
      (ran : Reduction.run (actions.getD index .nothing) body pos middle = .ok head done)
      (rest : Walk actions trees (head :: stack) done last after) :
      Walk actions (.node index children :: trees) stack translator last after

namespace Walk

variable {actions : Array Semantic} {trees left right : List (Tree Token)}
  {stack middle last : List Attribute} {translator between after : Translator}

/-- Each tree adds one attribute. -/
theorem exists_added (walk : Walk actions trees stack translator last after) :
    ∃ added, last = added ++ stack ∧ added.length = trees.length := by
  induction walk with
  | nil => exact ⟨[], rfl, rfl⟩
  | leaf token _ _ _ _ _ _ ih =>
      obtain ⟨added, rfl, length⟩ := ih
      refine ⟨added ++ [.token token.text token.start], ?_, ?_⟩
      · rw [List.append_assoc, List.singleton_append]
      · rw [List.length_append, length, List.length_singleton, List.length_cons]
  | node _ _ _ _ _ _ _ _ _ _ _ head _ _ _ _ ih =>
      obtain ⟨added, rfl, length⟩ := ih
      refine ⟨added ++ [head], ?_, ?_⟩
      · rw [List.append_assoc, List.singleton_append]
      · rw [List.length_append, length, List.length_singleton, List.length_cons]

/-- What was logged before does not matter. -/
theorem of_relogged {log : Array Event}
    (walk : Walk actions trees stack { translator with log } last after) :
    Walk actions trees stack translator last after := by
  generalize given : { translator with log } = relogged at walk
  induction walk generalizing translator with
  | nil stack _ later =>
      subst given
      exact .nil stack translator later
  | leaf token trees stack last _ after _ ih => exact .leaf token trees stack last _ after (ih given)
  | node index children trees stack body last _ middle done after pos head _ ran rest insideIh _ =>
      exact .node index children trees stack body last _ middle done after pos head
        (insideIh given) ran rest

theorem append (first : Walk actions left stack translator middle between)
    (second : Walk actions right middle between last after) :
    Walk actions (left ++ right) stack translator last after := by
  induction first with
  | nil => exact second.of_relogged
  | leaf token trees stack _ _ _ _ ih => exact .leaf token _ stack last _ after (ih second)
  | node index children trees stack body _ _ inner done _ pos head inside ran _ _ ih =>
      exact .node index children _ stack body last _ inner done after pos head inside ran (ih second)

theorem split (walk : Walk actions (left ++ right) stack translator last after) :
    ∃ middle between, Walk actions left stack translator middle between ∧
      Walk actions right middle between last after := by
  induction left generalizing stack translator with
  | nil => exact ⟨stack, translator, .nil stack translator translator.log, walk⟩
  | cons tree left ih =>
      cases walk with
      | leaf token _ _ _ _ _ rest =>
          obtain ⟨middle, between, first, second⟩ := ih rest
          exact ⟨middle, between, .leaf token left stack middle translator between first, second⟩
      | node index children _ _ body _ _ inner done _ pos head inside ran rest =>
          obtain ⟨middle, between, first, second⟩ := ih rest
          exact ⟨middle, between, .node index children left stack body middle translator inner done
            between pos head inside ran first, second⟩

/-- Logging changes nothing else. -/
theorem relogged (walk : Walk actions trees stack translator last after) (log : Array Event) :
    Walk actions trees stack translator last { after with log } := by
  simpa using walk.append (.nil last after log)

end Walk

end ThreeAddress

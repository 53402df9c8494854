import ThreeAddress.Proofs.Language.Tail

/-!
What the tables leave undone: no conditional in then-tail position gets an `else`. Where the stack
opens, the short conditional can end on `else` and comes first, so the table does not read it, and
what was read onto the stack shows that.
-/

set_option autoImplicit false

namespace ThreeAddress

namespace Language

open Config

/-- A stack of states and the trees on it, from the top. Tokens were read because the table says so,
and the trees have no `else` in then-tail position. -/
inductive Defers : List Nat → List (Tree Token) → Prop where
  | bottom (state : Nat) : Defers [state] []
  | leaf (target id : Nat) (states : List Nat) (token : Token) (trees : List (Tree Token))
      (entered : grammar.Entered target states (.token id))
      (reads : ParseTable.cell (ParseTable.ofGrammar grammar).tables.action (states.headD 0) id =
        .ok (.shift target))
      (below : Defers states trees) :
      Defers (target :: states) (.leaf token :: trees)
  | node (target index : Nat) (production : Production) (states : List Nat)
      (children trees : List (Tree Token))
      (found : grammar.productions[index]? = some production)
      (entered : grammar.Entered target states (.nonterminal production.head))
      (inner : ∀ tail, Agrees states index tail →
        (Tree.node index children).noElseInTail ruleActions tail = true)
      (below : Defers states trees) :
      Defers (target :: states) (.node index children :: trees)

/-- Where a short conditional can end on `else`, it does. -/
theorem cell_of_ended {states : List Nat} (ended : grammar.Stands states ⟨13, 6, 13⟩) :
    ParseTable.cell (ParseTable.ofGrammar grammar).tables.action (states.headD 0) 13 =
      .ok (.reduce 13) := by
  obtain ⟨items, holds, _⟩ := ended.holds
  have complete : Item.nextSymbol grammar.construction.grammar ⟨13, 6, 13⟩ = none := by
    rw [Item.nextSymbol, statement_body 4 rfl]
    rfl
  have inner : 13 ≠ grammar.construction.acceptProduction := by
    rw [wellFormed.acceptProduction_eq, productions_length]
    decide
  rcases cell_of_wish? ended holds (ended.lookahead_lt wellFormed)
    (Construction.wish?_of_ended complete inner) (.reduce 13) with kept | ⟨_, factor, _⟩ | ⟨longer, _⟩
  · exact kept
  · cases factor
  · cases longer

/-- Only one production is a conditional with an `else`. -/
theorem eq_of_ifElse {index : Nat} (conditional : ruleActions.getD index .nothing = .ifElse) :
    index = 14 := by
  have listed : ∀ index < ruleActions.size, ruleActions.getD index .nothing = .ifElse →
      index = 14 := by decide
  by_cases inside : index < ruleActions.size
  · exact listed index inside conditional
  · rw [Array.getD, dif_neg inside] at conditional
    cases conditional

namespace Defers

variable {states : List Nat} {trees : List (Tree Token)} {index ahead : Nat} {tail : Bool}

theorem drop (defers : Defers states trees) {count : Nat} (inside : count ≤ trees.length) :
    Defers (states.drop count) (trees.drop count) := by
  induction count generalizing states trees with
  | zero => exact defers
  | succ count ih =>
      cases defers with
      | bottom _ => cases inside
      | leaf target id states token trees entered reads below =>
          exact ih below (Nat.le_of_succ_le_succ inside)
      | node target index production states children trees found entered inner below =>
          exact ih below (Nat.le_of_succ_le_succ inside)

/-- The part of a body that is on the stack has no `else` in then-tail position. -/
theorem noElseInTailFrom {body rest : List (Tree Token)} (defers : Defers states (body ++ rest))
    (stands : grammar.Stands states ⟨index, body.length, ahead⟩)
    (agrees : Agrees (states.drop body.length) index tail) :
    Tree.noElseInTailFrom ruleActions (ruleActions.getD index .nothing) tail 0 body.reverse =
      true := by
  induction body generalizing states with
  | nil => rfl
  | cons tree body ih =>
      rw [List.reverse_cons, Tree.noElseInTailFrom_append, Bool.and_eq_true, List.length_reverse,
        Nat.zero_add]
      cases defers with
      | leaf target id states token _ entered reads below =>
          exact ⟨ih below (entered.before stands).1 agrees, rfl⟩
      | node target inner production states children _ found entered inside below =>
          obtain ⟨under, next⟩ := entered.before stands
          have outer : Agrees (states.drop body.length) index tail := agrees
          refine ⟨ih below under outer, ?_⟩
          exact Tree.noElseInTailFrom_cons.mpr ⟨inside _ (outer.called under found next), rfl⟩

/-- A conditional with an `else` begins where the stack does not open. -/
theorem not_opens {body rest : List (Tree Token)} (defers : Defers states (body ++ rest))
    (whole : body.length = 9) (stands : grammar.Stands states ⟨14, 9, ahead⟩) :
    ¬Opens (states.drop 9) := by
  intro opens
  have below : states.drop 9 = (states.drop 2).drop 7 := by rw [List.drop_drop]
  have past : grammar.Stands (states.drop 2) ⟨14, 7, ahead⟩ := stands.fall
  have inside : 2 < (body ++ rest).length := by
    rw [List.length_append]
    omega
  obtain ⟨tree, others, split⟩ :=
    List.exists_cons_of_ne_nil (mt List.drop_eq_nil_iff.mp (Nat.not_le_of_lt inside))
  have later := defers.drop (Nat.le_of_lt inside)
  rw [split] at later
  rw [below] at opens
  -- On top is the `else` that was read, which is where a short conditional would have ended.
  generalize states.drop 2 = stack at later past opens
  cases later with
  | leaf target id under token _ entered reads _ =>
      obtain ⟨before, next⟩ := entered.before past
      rw [statement_body 5 rfl] at next
      cases next
      have ended : grammar.Stands under ⟨13, 6, 13⟩ := before.rise opens (by
        rw [statement_body 4 rfl, statement_body 5 rfl]
        rfl)
      rw [cell_of_ended ended] at reads
      cases reads
  | node target index production under children _ found entered _ _ =>
      have next := (entered.before past).2
      rw [statement_body 5 rfl] at next
      cases next

/-- A body on the stack becomes a tree without an `else` in then-tail position. -/
theorem noElseInTail {body rest : List (Tree Token)} (defers : Defers states (body.reverse ++ rest))
    (stands : grammar.Stands states ⟨index, body.length, ahead⟩)
    (agrees : Agrees (states.drop body.length) index tail) {production : Production}
    (found : grammar.productions[index]? = some production)
    (whole : body.length = production.body.length) :
    (Tree.node index body).noElseInTail ruleActions tail = true := by
  have inside := defers.noElseInTailFrom (by rw [List.length_reverse]; exact stands)
    (by rw [List.length_reverse]; exact agrees)
  rw [List.reverse_reverse] at inside
  refine Tree.noElseInTail_node.mpr ⟨fun opened conditional => ?_, inside⟩
  cases eq_of_ifElse conditional
  rw [statement_found 5 rfl] at found
  cases found
  rw [whole] at stands agrees
  exact defers.not_opens (by rw [List.length_reverse, whole]; rfl) stands
    ((agrees (congrArg (Option.map Production.head) (statement_found 5 rfl))).mp opened)

variable {scan : Scan} {config : Config} {symbols : List Symbol}

theorem shift {target : Nat} (sound : Sound grammar #[] scan config symbols trees)
    (defers : Defers config.states trees.reverse)
    (asked : (ParseTable.ofGrammar grammar).actionOn config.top config.lookahead =
      .ok (.shift target)) :
    Defers (target :: config.states) (trees ++ [Tree.leaf config.lookahead]).reverse := by
  obtain ⟨state, below, items, id, states, holds, known, asks⟩ :=
    sound.asks wellFormed asked (by simp)
  rw [ParseTable.actionOn, known] at asked
  have top : grammar.construction.collection.sets[config.states.headD 0]? = some items := by
    rw [states]
    exact holds
  rw [List.reverse_append, List.reverse_singleton, List.singleton_append]
  cases asks with
  | shift item _ _ member next enters =>
      have stands : grammar.Stands config.states item := ⟨⟨_, sound.linked⟩, items, top, member⟩
      exact .leaf target id _ _ _ (stands.enters top member next enters) asked defers

theorem reduce {target : Nat} {production : Production} {left right : List (Tree Token)}
    (sound : Sound grammar #[] scan config symbols (left ++ right))
    (defers : Defers config.states (left ++ right).reverse)
    (asked : (ParseTable.ofGrammar grammar).actionOn config.top config.lookahead =
      .ok (.reduce index))
    (found : grammar.construction.grammar.productions[index]? = some production)
    (whole : right.length = production.body.length)
    (entered : grammar.Entered target (popAbove production.body.length config.states)
      (.nonterminal production.head)) :
    Defers (target :: popAbove production.body.length config.states)
      (left ++ [Tree.node index right]).reverse := by
  obtain ⟨old, id, items, _, _, _, _, _, holds, member, _⟩ :=
    sound.exists_reduced wellFormed asked found
  have stands : grammar.Stands config.states ⟨index, production.body.length, id⟩ :=
    ⟨⟨_, sound.linked⟩, items, holds, member⟩
  rw [stands.popAbove_eq found rfl, ← whole] at entered ⊢
  rw [← whole] at stands
  rw [List.reverse_append] at defers ⊢
  refine .node target index production _ right _ old entered ?_ ?_
  · intro tail agrees
    exact defers.noElseInTail stands agrees old whole
  · have inside : right.length ≤ (right.reverse ++ left.reverse).length := by
      rw [List.length_append, List.length_reverse]
      exact Nat.le_add_right _ _
    have under := defers.drop inside
    rw [List.drop_left' List.length_reverse] at under
    exact under

/-- One step keeps what the stack shows. -/
theorem of_moves {next : Config} (sound : Sound grammar #[] scan config symbols trees)
    (defers : Defers config.states trees.reverse)
    (moves : Moves (.ofGrammar grammar) #[] config next) :
    ∃ symbols trees, Sound grammar #[] scan next symbols trees ∧
      Defers next.states trees.reverse := by
  cases moves with
  | shift target lookahead input asked fetched =>
      obtain ⟨_, after⟩ := sound.shift wellFormed asked fetched
      exact ⟨_, _, after, shift sound defers asked⟩
  | reduce index production head translator target asked found ran enters =>
      obtain ⟨earlier, left, right, rfl, rfl, after⟩ :=
        sound.reduce wellFormed asked found ran enters
      have whole : right.length = production.body.length := by
        have all := sound.parses.length_eq
        have rest := after.parses.length_eq
        simp only [List.length_append, List.length_reverse, List.length_cons,
          List.length_nil] at all rest
        omega
      exact ⟨_, _, after, reduce sound defers asked found whole ⟨earlier, after.linked⟩⟩

/-- A run keeps what the stack shows. -/
theorem of_reaches {last : Config} (sound : Sound grammar #[] scan config symbols trees)
    (defers : Defers config.states trees.reverse)
    (reaches : Reaches (.ofGrammar grammar) #[] config last) :
    ∃ symbols trees, Sound grammar #[] scan last symbols trees ∧
      Defers last.states trees.reverse := by
  apply reaches.keeps ?_ ⟨symbols, trees, sound, defers⟩
  rintro config next ⟨symbols, trees, sound, defers⟩ moves
  exact of_moves sound defers moves

end Defers

/-- The tree of a run that accepts has no `else` in then-tail position. -/
theorem noElseInTail_of_halts {source : String} {outcome : Outcome} {compiled : Compiled}
    (halts : (ParseTable.ofGrammar grammar).Halts #[] source outcome)
    (accepted : outcome.verdict = .accepted compiled) :
    ∃ tree, Accepts grammar #[] source outcome compiled tree ∧
      tree.noElseInTail ruleActions false = true := by
  obtain ⟨lookahead, input, last, fetched, reaches, step⟩ := halts.reaches accepted
  obtain ⟨symbols, trees, sound, defers⟩ :=
    Defers.of_reaches (.first wellFormed fetched) (.bottom 0) reaches
  obtain ⟨tree, rfl, accepts⟩ := sound.accepts wellFormed step accepted
  refine ⟨tree, accepts, ?_⟩
  obtain ⟨_, _, _, _, same, root, head, _⟩ := accepts.parses.exists_node
  cases same
  rw [List.reverse_singleton] at defers
  generalize last.states = states at defers
  cases defers with
  | node target index production states children _ found entered inner _ =>
      refine inner false fun statement => ?_
      rw [root, Option.map_some, head, start_eq] at statement
      cases statement

end Language

end ThreeAddress

import ThreeAddress.Proofs.Language.Rivals
import ThreeAddress.Proofs.Language.Roles

/-!
Then-tail positions: where a statement stands so that an `else` right after it could still belong to
a conditional around it. The stack of states knows them: a statement is in then-tail position exactly
if the state before it has `else` among the lookaheads of statements.
-/

set_option autoImplicit false

namespace ThreeAddress

/-- What comes at a place of the body is in then-tail position: the branch before `else` always, and
the branch after it and the body of a `while` if the whole is. -/
def Semantic.thenTail (tail : Bool) : Semantic → Nat → Bool
  | .ifThen, 5 => true
  | .ifElse, 5 => true
  | .ifElse, 8 => tail
  | .whileLoop, 6 => tail
  | _, _ => false

namespace Tree

variable {α : Type}

mutual

/-- No conditional with an `else` is in then-tail position, given whether the whole is. -/
def noElseInTail (actions : Array Semantic) (tail : Bool) : Tree α → Bool
  | .leaf _ => true
  | .node index children =>
    !(tail && actions.getD index .nothing == .ifElse) &&
      noElseInTailFrom actions (actions.getD index .nothing) tail 0 children

/-- The same for the trees of a body from a place on. -/
def noElseInTailFrom (actions : Array Semantic) (action : Semantic) (tail : Bool) (place : Nat) :
    List (Tree α) → Bool
  | [] => true
  | tree :: rest =>
    tree.noElseInTail actions (action.thenTail tail place) &&
      noElseInTailFrom actions action tail (place + 1) rest

end

variable {actions : Array Semantic} {action : Semantic} {tail : Bool}

theorem noElseInTail_node {index : Nat} {children : List (Tree α)} :
    (node index children).noElseInTail actions tail = true ↔
      (tail = true → actions.getD index .nothing ≠ .ifElse) ∧
        noElseInTailFrom actions (actions.getD index .nothing) tail 0 children = true := by
  rw [noElseInTail, Bool.and_eq_true]
  refine and_congr_left fun _ => ?_
  cases tail with
  | false => exact iff_of_true rfl fun impossible => by cases impossible
  | true => simp only [Bool.true_and, Bool.not_eq_true', beq_eq_false_iff_ne, forall_const]

theorem noElseInTailFrom_cons {place : Nat} {tree : Tree α} {rest : List (Tree α)} :
    noElseInTailFrom actions action tail place (tree :: rest) = true ↔
      tree.noElseInTail actions (action.thenTail tail place) = true ∧
        noElseInTailFrom actions action tail (place + 1) rest = true := by
  rw [noElseInTailFrom, Bool.and_eq_true]

theorem noElseInTailFrom_append (front back : List (Tree α)) (place : Nat) :
    noElseInTailFrom actions action tail place (front ++ back) =
      (noElseInTailFrom actions action tail place front &&
        noElseInTailFrom actions action tail (place + front.length) back) := by
  induction front generalizing place with
  | nil => rfl
  | cons tree rest ih =>
      rw [List.cons_append, noElseInTailFrom, noElseInTailFrom, ih, Bool.and_assoc,
        List.length_cons, Nat.add_comm rest.length, Nat.add_assoc]

end Tree

namespace Language

/-- A statement begins here that an `else` may follow: the conditional without one is called for with
`else` as its lookahead. -/
def Opens (states : List Nat) : Prop := grammar.Stands states ⟨13, 0, 13⟩

variable {states : List Nat} {index dot ahead : Nat}

/-- Before a statement that `else` follows, the stack opens. -/
theorem opens_of_stands {rest : List Symbol} (stands : grammar.Stands states ⟨index, dot, ahead⟩)
    (remains : (grammar.construction.grammar.bodyOf index).drop dot = .nonterminal 7 :: rest)
    (follows : 13 ∈ grammar.construction.first.lookahead rest ahead) : Opens states :=
  (stands.call wellFormed remains (Grammar.construction_of_found (statement_found 4 rfl)) follows).1

/-- The symbol before a place of a statement. -/
def symbolBefore (core : Core) : Option Symbol :=
  statements[core.production - 9]?.bind fun production => production.body[core.dot - 1]?

theorem symbolBefore_eq {core : Core} (listed : core ∈ statementPlaces) :
    (grammar.construction.grammar.bodyOf core.production)[core.dot - 1]? = symbolBefore core := by
  have within : ∀ core ∈ statementPlaces, 9 ≤ core.production ∧
      core.production - 9 < statements.length := by decide
  obtain ⟨low, high⟩ := within core listed
  have found := List.getElem?_eq_getElem high
  have body := statement_body _ found
  rw [Nat.add_sub_cancel' low] at body
  rw [symbolBefore, body, found, Option.bind_some]

/-- Where the stack opens, a place before a statement calls for it with `else` after it, unless it is
the place of a branch before `else`. -/
theorem Opens.exists_lookahead (opens : Opens states)
    (stands : grammar.Stands states ⟨index, dot, ahead⟩)
    (listed : ⟨index, dot⟩ ∈ statementPlaces) (other : dot ≠ 5) :
    ∃ ahead, grammar.Stands states ⟨index, dot, ahead⟩ ∧
      13 ∈ grammar.construction.first.lookahead
        ((grammar.construction.grammar.bodyOf index).drop (dot + 1)) ahead := by
  obtain ⟨⟨production, place, token⟩, rest, calling, drop, follows⟩ :=
    Grammar.Stands.exists_calling opens wellFormed (statement_found 4 rfl)
  have callerListed : ⟨production, place⟩ ∈ statementPlaces :=
    mem_statementPlaces (Item.nextSymbol_eq_some.mpr ⟨rest, drop⟩)
  -- Both are past the same symbol, and no two of the other places are.
  have apart : ∀ core ∈ statementPlaces, ∀ other ∈ statementPlaces,
      symbolBefore core = symbolBefore other → core = other ∨ other.dot = 5 := by decide
  have positive : ∀ core ∈ statementPlaces, ∃ before, core.dot = before + 1 := by
    intro core member
    have nonzero : ∀ core ∈ statementPlaces, core.dot ≠ 0 := by decide
    exact Nat.exists_eq_succ_of_ne_zero (nonzero core member)
  obtain ⟨before, rfl⟩ := positive _ listed
  obtain ⟨callerBefore, rfl⟩ := positive _ callerListed
  have past := calling.symbol_unique stands
  rcases apart _ callerListed _ listed
    ((symbolBefore_eq callerListed).symm.trans (past.trans (symbolBefore_eq listed))) with same | branch
  · cases same
    have later := Item.drop_advance drop
    rw [← later] at follows
    exact ⟨token, calling, follows⟩
  · exact absurd branch other

/-- At the end of a statement, an `else` that may follow what comes next may follow the whole. -/
theorem opens_drop_iff {production : Production} (stands : grammar.Stands states ⟨index, dot, ahead⟩)
    (listed : ⟨index, dot⟩ ∈ statementPlaces) (other : dot ≠ 5)
    (found : grammar.productions[index]? = some production) (head : production.head = 7)
    (last : production.body.drop dot = [.nonterminal 7]) :
    Opens states ↔ Opens (states.drop dot) := by
  have body := Grammar.bodyOf_eq (Grammar.construction_of_found found)
  have conditional : grammar.productions[13]? = _ := statement_found 4 rfl
  constructor
  · intro opens
    obtain ⟨token, calls, follows⟩ := opens.exists_lookahead stands listed other
    have ends : production.body.drop (dot + 1) = [] := by
      rw [← List.drop_drop, last, List.drop_one, List.tail_cons]
    rw [body, ends, FirstSets.lookahead_nil, List.mem_singleton] at follows
    subst follows
    rw [← Nat.zero_add dot] at calls
    exact calls.fall.sibling wellFormed found conditional head.symm
  · intro opens
    have begins := Grammar.Stands.sibling opens wellFormed conditional found head
    have rises := stands.rise begins rfl
    refine opens_of_stands rises (by rw [body, last]) ?_
    rw [FirstSets.lookahead_nil]
    exact List.mem_singleton.mpr rfl

/-- Before the branch of a conditional the stack opens. -/
theorem opens_of_branch (stands : grammar.Stands states ⟨14, 5, ahead⟩) : Opens states := by
  have remains : (grammar.construction.grammar.bodyOf 14).drop 5 =
      [.nonterminal 7, .token 13, .nonterminal 19, .nonterminal 7] := by
    rw [statement_body 5 rfl]
    rfl
  refine opens_of_stands stands remains ?_
  rw [FirstSets.lookahead_token]
  exact List.mem_singleton.mpr rfl

/-- What can follow a sequence of statements is no `else`. -/
theorem not_opens_of_sequence (stands : grammar.Stands states ⟨9, 1, ahead⟩) : ¬Opens states := by
  intro opens
  obtain ⟨token, calls, follows⟩ := opens.exists_lookahead stands (by decide) (by decide)
  rw [statement_body 0 rfl] at follows
  cases List.mem_singleton.mp follows
  obtain ⟨items, holds, member⟩ := calls.holds
  have follow := (wellFormed.proper.collection_complete.reachable_of holds).mem_followers
    wellFormed.construction_inRange followed starts _ member _
      (Grammar.construction_of_found (statement_found 0 rfl))
  exact absurd follow (by decide)

/-- What follows the body of a `do` is a `while`. -/
theorem not_opens_of_loop (stands : grammar.Stands states ⟨16, 2, ahead⟩) : ¬Opens states := by
  intro opens
  obtain ⟨token, calls, follows⟩ := opens.exists_lookahead stands (by decide) (by decide)
  rw [statement_body 7 rfl] at follows
  exact absurd (List.mem_singleton.mp follows) (by decide)

/-- If the production is one of statements, the flag tells whether the stack opens where it begins. -/
def Agrees (states : List Nat) (index : Nat) (tail : Bool) : Prop :=
  grammar.productions[index]?.map Production.head = some 7 → (tail = true ↔ Opens states)

/-- Before a statement, the stack opens exactly if the statement is in then-tail position. -/
theorem opens_iff {tail : Bool} (stands : grammar.Stands states ⟨index, dot, ahead⟩)
    (next : (grammar.construction.grammar.bodyOf index)[dot]? = some (.nonterminal 7))
    (outer : Agrees (states.drop dot) index tail) :
    (ruleActions.getD index .nothing).thenTail tail dot = true ↔ Opens states := by
  have listed : ⟨index, dot⟩ ∈ statementPlaces := mem_statementPlaces next
  simp only [statementPlaces, List.mem_cons, Core.mk.injEq, List.not_mem_nil, or_false] at listed
  rcases listed with ⟨rfl, rfl⟩ | ⟨rfl, rfl⟩ | ⟨rfl, rfl⟩ | ⟨rfl, rfl⟩ | ⟨rfl, rfl⟩ | ⟨rfl, rfl⟩
  · exact iff_of_false Bool.false_ne_true (not_opens_of_sequence stands)
  · -- The long conditional begins where the short one does.
    have begins : grammar.Stands (states.drop 5) ⟨13, 0, ahead⟩ := stands.fall
    have longer := begins.sibling wellFormed (statement_found 4 rfl) (statement_found 5 rfl) rfl
    refine iff_of_true rfl (opens_of_branch (stands.rise longer ?_))
    rw [statement_body 4 rfl, statement_body 5 rfl]
    rfl
  · exact iff_of_true rfl (opens_of_branch stands)
  · exact (outer (congrArg (Option.map Production.head) (statement_found 5 rfl))).trans
      (opens_drop_iff stands (by decide) (by decide) (statement_found 5 rfl) rfl rfl).symm
  · exact (outer (congrArg (Option.map Production.head) (statement_found 6 rfl))).trans
      (opens_drop_iff stands (by decide) (by decide) (statement_found 6 rfl) rfl rfl).symm
  · exact iff_of_false Bool.false_ne_true (not_opens_of_loop stands)

/-- The flags of the trees of a body agree with the stacks on which they begin. -/
theorem Agrees.called {tail : Bool} (outer : Agrees (states.drop dot) index tail)
    (stands : grammar.Stands states ⟨index, dot, ahead⟩) {inner : Nat} {production : Production}
    (found : grammar.productions[inner]? = some production)
    (next : (grammar.construction.grammar.bodyOf index)[dot]? =
      some (.nonterminal production.head)) :
    Agrees states inner ((ruleActions.getD index .nothing).thenTail tail dot) := by
  intro statement
  rw [found, Option.map_some, Option.some.injEq] at statement
  rw [statement] at next
  exact opens_iff stands next outer

end Language

end ThreeAddress

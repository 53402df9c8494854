import ThreeAddress.Proofs.Meaning.Emit

/-!
What the straight pieces of the code do: the evaluation of an expression, a test with its jump, and
single instructions.
-/

set_option autoImplicit false

namespace ThreeAddress

variable {V : Type}

/-- The stores agree except on temporaries. -/
def Store.Agrees (store memory : Store V) : Prop :=
  ∀ place, isTemporary place = false → store place = memory place

/-- Only temporaries from the given one on have changed. -/
def Store.Kept (next : Nat) (before after : Store V) : Prop :=
  ∀ place, (∀ number, next ≤ number → place ≠ temporary number) → after place = before place

namespace Store

variable {store memory before middle after : Store V} {next : Nat}

theorem Agrees.refl (store : Store V) : store.Agrees store := fun _ _ => rfl

theorem Agrees.set (agrees : store.Agrees memory) (place : String) (value : V) :
    (store.set place value).Agrees (memory.set place value) := by
  intro other plain
  unfold Store.set
  split
  · rfl
  · exact agrees other plain

theorem Agrees.of_kept (agrees : store.Agrees before) (kept : Kept next before after) :
    store.Agrees after := by
  intro place plain
  rw [kept place fun number _ => ne_temporary plain number]
  exact agrees place plain

theorem Kept.refl (next : Nat) (store : Store V) : Kept next store store := fun _ _ => rfl

theorem Kept.trans {later : Nat} (first : Kept next before middle) (second : Kept later middle after)
    (above : next ≤ later) : Kept next before after := by
  intro place apart
  rw [second place fun number bound => apart number (by omega), first place apart]

theorem Kept.set {number : Nat} (above : next ≤ number) (store : Store V) (value : V) :
    Kept next store (store.set (temporary number) value) := by
  intro place apart
  exact if_neg (apart number above)

@[simp] theorem set_same (store : Store V) (place : String) (value : V) :
    store.set place value place = value := if_pos rfl

end Store

namespace Expr

variable {meaning : Meaning V} {code : List Instruction} {store memory : Store V} {pos next : Nat}

/-- The place of a value is not a temporary that is handed out later. -/
theorem result_ne {expr : Expr} (plain : expr.Plain) (next number : Nat)
    (later : next + expr.operators ≤ number) : expr.result next ≠ temporary number := by
  cases expr with
  | place text => exact ne_temporary plain number
  | binary op left right =>
      intro same
      have numbers := temporary_injective same
      simp only [operators] at later
      omega
  | unary op operand =>
      intro same
      have numbers := temporary_injective same
      simp only [operators] at later
      omega

/-- The code of an expression leaves its value in its place, and changes nothing but its own
temporaries. -/
theorem run_code (expr : Expr) (stands : Stands code pos (expr.code next)) (plain : expr.Plain)
    (agrees : store.Agrees memory) :
    ∃ after, Machine.run meaning code (expr.code next).length ⟨pos, memory⟩ =
        some ⟨pos + (expr.code next).length, after⟩ ∧
      memory.Kept next after ∧ after (expr.result next) = expr.eval meaning store := by
  induction expr generalizing pos next memory with
  | place text => exact ⟨memory, rfl, .refl next memory, (agrees text plain).symm⟩
  | binary op left right leftIh rightIh =>
      have inner := stands.append_right
      obtain ⟨first, leftRun, leftKept, leftValue⟩ := leftIh stands.append_left plain.1 agrees
      obtain ⟨second, rightRun, rightKept, rightValue⟩ :=
        rightIh inner.append_left plain.2 (agrees.of_kept leftKept)
      have both := Machine.run_trans leftRun rightRun
      have operation := inner.append_right.head
      have leftStill : second (left.result next) = left.eval meaning store := by
        have apart := left.result_ne plain.1 next
        rw [rightKept _ apart, leftValue]
      refine ⟨second.set (temporary (next + left.operators + right.operators))
        (meaning.binary op (left.eval meaning store) (right.eval meaning store)), ?_, ?_, ?_⟩
      · have last : Machine.step meaning code
            ⟨pos + (left.code next).length + (right.code (next + left.operators)).length, second⟩ =
            some ⟨pos + (left.code next).length + (right.code (next + left.operators)).length + 1,
              second.set (temporary (next + left.operators + right.operators))
                (meaning.binary op (left.eval meaning store) (right.eval meaning store))⟩ := by
          unfold Machine.step
          simp only [operation, Machine.write, leftStill, rightValue]
        have whole := Machine.run_trans both (Machine.run_one last)
        simp only [Expr.code, List.length_append, List.length_singleton, ← Nat.add_assoc] at whole ⊢
        exact whole
      · have kept := leftKept.trans rightKept (Nat.le_add_right _ _)
        exact kept.trans (.set (by omega) second _) (Nat.le_refl next)
      · simp [result, eval]
  | unary op operand ih =>
      obtain ⟨first, firstRun, kept, value⟩ := ih stands.append_left plain agrees
      have operation := stands.append_right.head
      refine ⟨first.set (temporary (next + operand.operators))
        (meaning.unary op (operand.eval meaning store)), ?_, ?_, ?_⟩
      · have last : Machine.step meaning code ⟨pos + (operand.code next).length, first⟩ =
            some ⟨pos + (operand.code next).length + 1,
              first.set (temporary (next + operand.operators))
                (meaning.unary op (operand.eval meaning store))⟩ := by
          unfold Machine.step
          simp only [operation, Machine.write, value]
        have whole := Machine.run_trans firstRun (Machine.run_one last)
        simp only [Expr.code, List.length_append, List.length_singleton, ← Nat.add_assoc] at whole ⊢
        exact whole
      · exact kept.trans (.set (by omega) first _) (Nat.le_refl next)
      · simp [result, eval]

end Expr

namespace Machine

variable {code : List Instruction} {pos there next : Nat} {label : Label}

/-- One instruction leads from one place to another and leaves the store alone. -/
def Hops (meaning : Meaning V) (code : List Instruction) (source target : Nat) : Prop :=
  ∀ memory : Store V, run meaning code 1 ⟨source, memory⟩ = some ⟨target, memory⟩

/-- Execution evaluates the condition and goes one way or the other. -/
def Tests (meaning : Meaning V) (code : List Instruction) (cond : Expr) (source yes no : Nat) :
    Prop :=
  ∀ store memory : Store V, store.Agrees memory → ∃ steps after, store.Agrees after ∧
    run meaning code steps ⟨source, memory⟩ =
      some ⟨if meaning.truth (cond.eval meaning store) then yes else no, after⟩

theorem Tests.yes {meaning : Meaning V} {cond : Expr} {source yes no : Nat}
    {store memory : Store V} (tests : Tests meaning code cond source yes no)
    (agrees : store.Agrees memory) (test : meaning.truth (cond.eval meaning store) = true) :
    ∃ steps after, store.Agrees after ∧
      run meaning code steps ⟨source, memory⟩ = some ⟨yes, after⟩ := by
  have outcome := tests store memory agrees
  rwa [if_pos test] at outcome

theorem Tests.no {meaning : Meaning V} {cond : Expr} {source yes no : Nat}
    {store memory : Store V} (tests : Tests meaning code cond source yes no)
    (agrees : store.Agrees memory) (test : meaning.truth (cond.eval meaning store) = false) :
    ∃ steps after, store.Agrees after ∧
      run meaning code steps ⟨source, memory⟩ = some ⟨no, after⟩ := by
  have outcome := tests store memory agrees
  rwa [if_neg (ne_true_of_eq_false test)] at outcome

theorem hops_label (meaning : Meaning V) {rest : List Instruction}
    (stands : Stands code pos (.label label :: rest)) : Hops meaning code pos (pos + 1) := by
  intro memory
  refine run_one ?_
  unfold step
  simp only [stands.head, advance]

theorem hops_goto (meaning : Meaning V) {rest : List Instruction}
    (stands : Stands code pos (.goto label :: rest)) (target : target? code label = some there) :
    Hops meaning code pos there := by
  intro memory
  refine run_one ?_
  unfold step
  simp only [stands.head, jump, target, Option.map_some]

theorem tests_ifFalse (meaning : Meaning V) {cond : Expr} {rest : List Instruction}
    (stands : Stands code pos (cond.code next ++ .ifFalse (cond.result next) label :: rest))
    (plain : cond.Plain) (target : target? code label = some there) :
    Tests meaning code cond pos (pos + (cond.code next).length + 1) there := by
  intro store memory agrees
  obtain ⟨after, run, kept, value⟩ := cond.run_code stands.append_left plain agrees
  have test := stands.append_right.head
  refine ⟨_, after, agrees.of_kept kept, Machine.run_trans run (Machine.run_one ?_)⟩
  unfold Machine.step
  simp only [test, value, Machine.jump, target, Machine.advance, Option.map_some]
  split <;> rfl

theorem tests_ifTrue (meaning : Meaning V) {cond : Expr} {rest : List Instruction}
    (stands : Stands code pos (cond.code next ++ .ifTrue (cond.result next) label :: rest))
    (plain : cond.Plain) (target : target? code label = some there) :
    Tests meaning code cond pos there (pos + (cond.code next).length + 1) := by
  intro store memory agrees
  obtain ⟨after, run, kept, value⟩ := cond.run_code stands.append_left plain agrees
  have test := stands.append_right.head
  refine ⟨_, after, agrees.of_kept kept, Machine.run_trans run (Machine.run_one ?_)⟩
  unfold Machine.step
  simp only [test, value, Machine.jump, target, Machine.advance, Option.map_some]
  split <;> rfl

/-- An assignment: the value is computed and copied to its place. -/
theorem run_assign (meaning : Meaning V) {place : String} {value : Expr}
    {rest : List Instruction} {store memory : Store V}
    (stands : Stands code pos (value.code next ++ .copy place (value.result next) :: rest))
    (plain : value.Plain) (agrees : store.Agrees memory) :
    ∃ after, run meaning code ((value.code next).length + 1) ⟨pos, memory⟩ =
        some ⟨pos + (value.code next).length + 1, after⟩ ∧
      (store.set place (value.eval meaning store)).Agrees after := by
  obtain ⟨after, run, kept, result⟩ := value.run_code stands.append_left plain agrees
  have copy := stands.append_right.head
  refine ⟨after.set place (value.eval meaning store), run_trans run (run_one ?_), ?_⟩
  · unfold Machine.step
    simp only [copy, result, Machine.write]
  · exact (agrees.of_kept kept).set place _

end Machine

end ThreeAddress

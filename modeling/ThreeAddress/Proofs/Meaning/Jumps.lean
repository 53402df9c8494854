import Mathlib.Data.List.Perm.Subperm
import ThreeAddress.Proofs.Meaning.Emit

/-!
Where the code of a program jumps to. A statement defines each label that it takes from its supply,
so all jumps lead to labels of the code, but for breaks out of loops around it.
-/

set_option autoImplicit false

namespace ThreeAddress

/-- The label that an instruction can jump to. -/
def Instruction.target? : Instruction → Option Label
  | .goto target => some target
  | .ifFalse _ target => some target
  | .ifTrue _ target => some target
  | _ => none

/-- The labels that the code can jump to, in order. -/
def targetsOf (code : List Instruction) : List Label := code.filterMap Instruction.target?

@[simp] theorem targetsOf_nil : targetsOf [] = [] := rfl

@[simp] theorem targetsOf_append (front back : List Instruction) :
    targetsOf (front ++ back) = targetsOf front ++ targetsOf back := List.filterMap_append

@[simp] theorem targetsOf_cons (instruction : Instruction) (rest : List Instruction) :
    targetsOf (instruction :: rest) = instruction.target?.toList ++ targetsOf rest := by
  cases instruction <;> rfl

@[simp] theorem Expr.targetsOf_code (expr : Expr) (next : Nat) :
    targetsOf (expr.code next) = [] := by
  induction expr generalizing next with
  | place text => rfl
  | binary op left right leftIh rightIh => simp [code, leftIh, rightIh, Instruction.target?]
  | unary op operand ih => simp [code, ih, Instruction.target?]

namespace Stmt

/-- A statement defines as many labels as it takes. -/
theorem labels_after (stmt : Stmt) (exits : List Label) (supply : Supply) :
    (stmt.after supply).labels =
      supply.labels + (labelsOf (stmt.code exits supply)).length := by
  induction stmt generalizing exits supply with
  | skip => rfl
  | leave => cases exits <;> rfl
  | declare name => simp [after, code]
  | seq first second firstIh secondIh =>
      rw [after, secondIh exits, firstIh exits, code, labelsOf_append, List.length_append]
      omega
  | assign place value => simp [after, code, Instruction.label?]
  | ifThen cond body ih =>
      rw [after, ih exits]
      simp +arith [code, Instruction.label?]
  | ifElse cond body other bodyIh otherIh =>
      rw [after, otherIh exits, Supply.mark_labels, bodyIh exits]
      simp +arith [code, Instruction.label?]
  | whileDo cond body ih =>
      rw [after, ih (⟨supply.labels + 1⟩ :: exits)]
      simp +arith [code, Instruction.label?]
  | doWhile body cond ih =>
      rw [after, Supply.spend_labels, ih (⟨supply.labels + 1⟩ :: exits)]
      simp +arith [code, Instruction.label?]
  | block body ih => simp [after, code, ih exits]

/-- The labels that a statement defines are those that it takes, each of them once. -/
theorem labelsOf_perm (stmt : Stmt) (exits : List Label) (supply : Supply) :
    (labelsOf (stmt.code exits supply)).Perm
      ((List.range' supply.labels (labelsOf (stmt.code exits supply)).length).map Label.mk) := by
  obtain ⟨nodup, drawn⟩ := stmt.drawn_code exits supply
  have inside : labelsOf (stmt.code exits supply) ⊆
      (List.range' supply.labels (labelsOf (stmt.code exits supply)).length).map Label.mk := by
    intro label member
    have range := drawn label member
    rw [stmt.labels_after exits] at range
    exact List.mem_map.mpr ⟨label.number, List.mem_range'_1.mpr range, rfl⟩
  apply (List.subperm_of_subset nodup inside).perm_of_length_le
  exact Nat.le_of_eq (by rw [List.length_map, List.length_range'])

/-- The code jumps to labels of its own and to exits of loops around it. -/
theorem targetsOf_subset (stmt : Stmt) (exits : List Label) (supply : Supply) {labels : List Label}
    (own : labelsOf (stmt.code exits supply) ⊆ labels) (outer : exits ⊆ labels) :
    targetsOf (stmt.code exits supply) ⊆ labels := by
  induction stmt generalizing exits supply with
  | skip => exact List.nil_subset labels
  | declare name => exact List.nil_subset labels
  | leave =>
      cases exits with
      | nil => exact List.nil_subset labels
      | cons exit rest => simpa [code, Instruction.target?] using (List.cons_subset.mp outer).1
  | seq first second firstIh secondIh =>
      rw [code, labelsOf_append, List.append_subset] at own
      rw [code, targetsOf_append, List.append_subset]
      exact ⟨firstIh exits supply own.1 outer, secondIh exits _ own.2 outer⟩
  | assign place value => simp [code, Instruction.target?]
  | ifThen cond body ih =>
      obtain ⟨inner, otherwise⟩ :
          labelsOf (body.code exits ((supply.spend cond.operators).mark 1)) ⊆ labels ∧
            ⟨supply.labels⟩ ∈ labels := by
        simpa [code, Instruction.label?] using own
      have jumps := ih exits _ inner outer
      simp [code, Instruction.target?, otherwise, jumps]
  | ifElse cond body other bodyIh otherIh =>
      obtain ⟨inner, otherwise, alternative, finish⟩ :
          labelsOf (body.code exits ((supply.spend cond.operators).mark 1)) ⊆ labels ∧
            ⟨supply.labels⟩ ∈ labels ∧
            labelsOf (other.code exits
              ((body.after ((supply.spend cond.operators).mark 1)).mark 1)) ⊆ labels ∧
            ⟨(body.after ((supply.spend cond.operators).mark 1)).labels⟩ ∈ labels := by
        simpa [code, Instruction.label?] using own
      have jumps := bodyIh exits _ inner outer
      have otherJumps := otherIh exits _ alternative outer
      simp [code, Instruction.target?, otherwise, finish, jumps, otherJumps]
  | whileDo cond body ih =>
      obtain ⟨start, inner, exit⟩ :
          ⟨supply.labels⟩ ∈ labels ∧
            labelsOf (body.code (⟨supply.labels + 1⟩ :: exits)
              ((supply.mark 2).spend cond.operators)) ⊆ labels ∧
            ⟨supply.labels + 1⟩ ∈ labels := by
        simpa [code, Instruction.label?] using own
      have jumps := ih _ _ inner (List.cons_subset.mpr ⟨exit, outer⟩)
      simp [code, Instruction.target?, start, exit, jumps]
  | doWhile body cond ih =>
      obtain ⟨start, inner, exit⟩ :
          ⟨supply.labels⟩ ∈ labels ∧
            labelsOf (body.code (⟨supply.labels + 1⟩ :: exits) (supply.mark 2)) ⊆ labels ∧
            ⟨supply.labels + 1⟩ ∈ labels := by
        simpa [code, Instruction.label?] using own
      have jumps := ih _ _ inner (List.cons_subset.mpr ⟨exit, outer⟩)
      simp [code, Instruction.target?, start, jumps]
  | block body ih => exact ih exits supply.enter own outer

/-- Code without labels and jumps. -/
def Straight (code : List Instruction) : Prop := labelsOf code = [] ∧ targetsOf code = []

/-- How code is laid out for a statement. The exit is that of the innermost loop around it, and that
is where a break goes; a loop has its exit at its end. -/
inductive Laid : (innermost : Option Label) → Stmt → List Instruction → Prop where
  | skip (innermost : Option Label) : Laid innermost .skip []
  | declare (innermost : Option Label) (name : String) : Laid innermost (.declare name) []
  | seq (innermost : Option Label) (first second : Stmt) (front back : List Instruction)
      (one : Laid innermost first front) (two : Laid innermost second back) :
      Laid innermost (.seq first second) (front ++ back)
  | assign (innermost : Option Label) (place : String) (value : Expr) (code : List Instruction)
      (straight : Straight code) : Laid innermost (.assign place value) code
  | ifThen (innermost : Option Label) (cond : Expr) (body : Stmt) (test code : List Instruction)
      (tested : String) (otherwise : Label) (straight : Straight test)
      (inner : Laid innermost body code) :
      Laid innermost (.ifThen cond body)
        (test ++ (.ifFalse tested otherwise :: (code ++ [.label otherwise])))
  | ifElse (innermost : Option Label) (cond : Expr) (body other : Stmt)
      (test code otherCode : List Instruction) (tested : String) (otherwise finish : Label)
      (straight : Straight test) (inner : Laid innermost body code)
      (alternative : Laid innermost other otherCode) :
      Laid innermost (.ifElse cond body other)
        (test ++ (.ifFalse tested otherwise ::
          (code ++ (.goto finish :: .label otherwise :: (otherCode ++ [.label finish])))))
  | whileDo (innermost : Option Label) (cond : Expr) (body : Stmt) (test code : List Instruction)
      (tested : String) (start exit : Label) (straight : Straight test)
      (inner : Laid (some exit) body code) :
      Laid innermost (.whileDo cond body)
        (.label start :: (test ++ (.ifFalse tested exit ::
          (code ++ [.goto start, .label exit]))))
  | doWhile (innermost : Option Label) (body : Stmt) (cond : Expr) (code test : List Instruction)
      (tested : String) (start exit : Label) (straight : Straight test)
      (inner : Laid (some exit) body code) :
      Laid innermost (.doWhile body cond)
        (.label start :: (code ++ (test ++ [.ifTrue tested start, .label exit])))
  | leave (exit : Label) : Laid (some exit) .leave [.goto exit]
  | block (innermost : Option Label) (body : Stmt) (code : List Instruction)
      (inner : Laid innermost body code) : Laid innermost (.block body) code

theorem straight_code (expr : Expr) (next : Nat) : Straight (expr.code next) :=
  ⟨expr.labelsOf_code next, expr.targetsOf_code next⟩

/-- The code of a statement is laid out for it, if its breaks stand in loops. -/
theorem laid_code (stmt : Stmt) (exits : List Label) (supply : Supply)
    (nested : stmt.Nested (!exits.isEmpty)) : Laid exits.head? stmt (stmt.code exits supply) := by
  induction stmt generalizing exits supply with
  | skip => exact .skip _
  | declare name => exact .declare _ name
  | leave =>
      cases exits with
      | nil => cases nested
      | cons exit rest => exact .leave exit
  | seq first second firstIh secondIh =>
      exact .seq _ first second _ _ (firstIh exits supply nested.1) (secondIh exits _ nested.2)
  | assign place value =>
      apply Laid.assign
      simp [Straight, code, Instruction.label?, Instruction.target?]
  | ifThen cond body ih =>
      exact .ifThen _ cond body _ _ _ _ (straight_code cond _) (ih exits _ nested)
  | ifElse cond body other bodyIh otherIh =>
      exact .ifElse _ cond body other _ _ _ _ _ _ (straight_code cond _)
        (bodyIh exits _ nested.1) (otherIh exits _ nested.2)
  | whileDo cond body ih =>
      exact .whileDo _ cond body _ _ _ _ _ (straight_code cond _) (ih (_ :: exits) _ nested)
  | doWhile body cond ih =>
      exact .doWhile _ body cond _ _ _ _ _ (straight_code cond _) (ih (_ :: exits) _ nested)
  | block body ih => exact .block _ body _ (ih exits supply.enter nested)

end Stmt

end ThreeAddress

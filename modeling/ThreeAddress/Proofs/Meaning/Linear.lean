import Mathlib.Data.List.Nodup
import ThreeAddress.Proofs.Meaning.Numbering

/-!
Temporaries are used like resources. Each instruction takes the temporaries among its operands from
those that are pending and adds the one it computes, so over a whole program every temporary that is
computed is used once.
-/

set_option autoImplicit false

namespace ThreeAddress

/-- The places that an instruction reads. -/
def Instruction.operands : Instruction → List String
  | .copy _ src => [src]
  | .binary _ _ lhs rhs => [lhs, rhs]
  | .unary _ _ src => [src]
  | .ifFalse cond _ => [cond]
  | .ifTrue cond _ => [cond]
  | .label _ => []
  | .goto _ => []

/-- The operands of all instructions, in order. -/
def operandsOf (code : List Instruction) : List String := code.flatMap Instruction.operands

@[simp] theorem operandsOf_nil : operandsOf [] = [] := rfl

@[simp] theorem operandsOf_cons (instruction : Instruction) (code : List Instruction) :
    operandsOf (instruction :: code) = instruction.operands ++ operandsOf code := rfl

@[simp] theorem operandsOf_append (front back : List Instruction) :
    operandsOf (front ++ back) = operandsOf front ++ operandsOf back := List.flatMap_append

@[simp] theorem computedOf_nil : computedOf [] = [] := rfl

@[simp] theorem computedOf_append (front back : List Instruction) :
    computedOf (front ++ back) = computedOf front ++ computedOf back := List.filterMap_append

theorem computedOf_cons (instruction : Instruction) (code : List Instruction) :
    computedOf (instruction :: code) = instruction.computed?.toList ++ computedOf code := by
  cases computes : instruction.computed? with
  | none => exact List.filterMap_cons_none computes
  | some name => exact List.filterMap_cons_some computes

/-- The temporaries among some places. -/
def temporariesOf (places : List String) : List String := places.filter isTemporary

/-- The code takes what it needs from the temporaries that are pending, each of them once, and
leaves the others with those that it computes and does not use. -/
inductive Linear : (pending : List String) → List Instruction → (left : List String) → Prop where
  | nil (pending left : List String) (same : pending.Perm left) : Linear pending [] left
  | cons (pending rest left : List String) (instruction : Instruction) (code : List Instruction)
      (takes : pending.Perm (temporariesOf instruction.operands ++ rest))
      (later : Linear (instruction.computed?.toList ++ rest) code left) :
      Linear pending (instruction :: code) left

namespace Linear

variable {pending others middle left : List String} {front back code : List Instruction}

theorem of_perm (linear : Linear pending code left) (same : others.Perm pending) :
    Linear others code left := by
  cases linear with
  | nil _ _ rest => exact .nil _ _ (same.trans rest)
  | cons _ rest _ instruction code takes later =>
      exact .cons _ rest _ instruction code (same.trans takes) later

theorem append (first : Linear pending front middle) (second : Linear middle back left) :
    Linear pending (front ++ back) left := by
  induction first with
  | nil _ _ same => exact second.of_perm same
  | cons _ rest _ instruction code takes _ ih =>
      exact .cons _ rest _ instruction _ takes (ih second)

theorem split (linear : Linear pending (front ++ back) left) :
    ∃ middle, Linear pending front middle ∧ Linear middle back left := by
  induction front generalizing pending with
  | nil => exact ⟨pending, .nil _ _ (.refl _), linear⟩
  | cons instruction front ih =>
      cases linear with
      | cons _ rest _ _ _ takes later =>
          obtain ⟨middle, first, second⟩ := ih later
          exact ⟨middle, .cons _ rest _ instruction front takes first, second⟩

/-- A label takes nothing and computes nothing. -/
theorem label (linear : Linear pending code left) (target : Label) :
    Linear pending (.label target :: code) left :=
  .cons pending pending left _ code (.refl _) linear

theorem goto (linear : Linear pending code left) (target : Label) :
    Linear pending (.goto target :: code) left :=
  .cons pending pending left _ code (.refl _) linear

/-- What is pending or computed is used or left. -/
theorem balance (linear : Linear pending code left) {name : String}
    (form : isTemporary name = true) :
    pending.count name + (computedOf code).count name =
      (operandsOf code).count name + left.count name := by
  induction linear with
  | nil _ _ same => simpa [computedOf, operandsOf] using same.count_eq name
  | cons pending rest left instruction code takes _ ih =>
      have taken := takes.count_eq name
      rw [List.count_append, temporariesOf, List.count_filter form] at taken
      rw [List.count_append] at ih
      rw [computedOf_cons, operandsOf_cons, List.count_append, List.count_append]
      omega

end Linear

/-- The place is computed by an instruction, and it is an operand once after it and not before. -/
def UsedOnce (code : List Instruction) (name : String) : Prop :=
  ∃ before definition after, code = before ++ definition :: after ∧
    definition.computed? = some name ∧ name ∉ operandsOf (before ++ [definition]) ∧
    (operandsOf after).count name = 1

/-- If nothing is pending at the end, each temporary that is computed only once is used once. -/
theorem Linear.usedOnce {code : List Instruction} (linear : Linear [] code [])
    (nodup : (computedOf code).Nodup) {name : String} (form : isTemporary name = true)
    (computed : name ∈ computedOf code) : UsedOnce code name := by
  obtain ⟨definition, member, computes⟩ := List.mem_filterMap.mp computed
  obtain ⟨before, after, rfl⟩ := List.append_of_mem member
  obtain ⟨middle, first, second⟩ := linear.split
  cases second with
  | cons _ rest _ _ _ takes later =>
      have single := List.count_eq_one_of_mem nodup computed
      rw [computedOf_append, computedOf_cons, computes, Option.toList_some, List.singleton_append,
        List.count_append, List.count_cons_self] at single
      have earlier := first.balance form
      have taken := takes.count_eq name
      have last := later.balance form
      rw [List.count_append, temporariesOf, List.count_filter form] at taken
      rw [computes, Option.toList_some, List.singleton_append, List.count_cons_self] at last
      rw [List.count_nil] at earlier last
      refine ⟨before, definition, after, rfl, computes, ?_, by omega⟩
      rw [← List.count_eq_zero]
      simp only [operandsOf_append, operandsOf_cons, operandsOf_nil, List.append_nil,
        List.count_append]
      omega

theorem temporariesOf_append (front back : List String) :
    temporariesOf (front ++ back) = temporariesOf front ++ temporariesOf back :=
  List.filter_append ..

@[simp] theorem temporariesOf_temporary (number : Nat) :
    temporariesOf [temporary number] = [temporary number] := by
  simp [temporariesOf, isTemporary_temporary]

namespace Expr

/-- An expression uses all that it computes but its result. -/
theorem linear (expr : Expr) (plain : expr.Plain) (next : Nat) (pending : List String) :
    Linear pending (expr.code next) (temporariesOf [expr.result next] ++ pending) := by
  induction expr generalizing next pending with
  | place text =>
      have free : temporariesOf [result next (.place text)] = [] := by
        simp [temporariesOf, result, (show isTemporary text = false from plain)]
      rw [free]
      exact .nil _ _ (.refl _)
  | binary op left right leftIh rightIh =>
      have first := leftIh plain.1 next pending
      have second := rightIh plain.2 (next + left.operators)
        (temporariesOf [left.result next] ++ pending)
      refine first.append (second.append (.cons _ pending _ _ _ ?_ (.nil _ _ ?_)))
      · change List.Perm _ (temporariesOf ([left.result next] ++
          [right.result (next + left.operators)]) ++ pending)
        rw [temporariesOf_append, ← List.append_assoc]
        exact List.perm_append_comm.append_right pending
      · rw [result, temporariesOf_temporary]
        exact .refl _
  | unary op operand ih =>
      refine (ih plain next pending).append (.cons _ pending _ _ _ (.refl _) (.nil _ _ ?_))
      rw [result, temporariesOf_temporary]
      exact .refl _

/-- An expression with an instruction behind it that reads its result. -/
theorem linear_read (expr : Expr) (plain : expr.Plain) (next : Nat) {pending left : List String}
    {instruction : Instruction} {code : List Instruction}
    (reads : instruction.operands = [expr.result next]) (quiet : instruction.computed? = none)
    (later : Linear pending code left) :
    Linear pending (expr.code next ++ instruction :: code) left := by
  refine (expr.linear plain next pending).append (.cons _ pending left instruction code ?_ ?_)
  · rw [reads]
  · rwa [quiet]

end Expr

namespace Stmt

/-- A statement uses all that it computes. -/
theorem linear (stmt : Stmt) (plain : stmt.Plain) (exits : List Label) (supply : Supply)
    (pending : List String) : Linear pending (stmt.code exits supply) pending := by
  have done : Linear pending [] pending := .nil _ _ (.refl _)
  induction stmt generalizing exits supply with
  | skip => exact done
  | declare name => exact done
  | leave =>
      cases exits with
      | nil => exact done
      | cons exit outer => exact done.goto exit
  | seq first second firstIh secondIh =>
      exact (firstIh plain.1 exits supply).append (secondIh plain.2 exits _)
  | assign place value => exact value.linear_read plain.2 _ rfl rfl done
  | ifThen cond body ih =>
      exact cond.linear_read plain.1 _ rfl rfl ((ih plain.2 exits _).append (done.label _))
  | ifElse cond body other bodyIh otherIh =>
      exact cond.linear_read plain.1 _ rfl rfl ((bodyIh plain.2.1 exits _).append
        ((((otherIh plain.2.2 exits _).append (done.label _)).label _).goto _))
  | whileDo cond body ih =>
      exact (cond.linear_read plain.1 _ rfl rfl
        ((ih plain.2 _ _).append ((done.label _).goto _))).label _
  | doWhile body cond ih =>
      exact ((ih plain.1 _ _).append (cond.linear_read plain.2 _ rfl rfl (done.label _))).label _
  | block body ih => exact ih plain exits supply.enter

end Stmt

end ThreeAddress

import ThreeAddress.Proofs.Meaning.Emit

/-!
Where the code of a program computes something, it goes to a temporary, and the numbers of these
temporaries rise along the code.
-/

set_option autoImplicit false

namespace ThreeAddress

/-- The destination of an instruction with an operator. -/
def Instruction.computed? : Instruction → Option String
  | .binary dst _ _ _ => some dst
  | .unary dst _ _ => some dst
  | _ => none

/-- The destinations of operators, in order. -/
def computedOf (code : List Instruction) : List String := code.filterMap Instruction.computed?

/-- The destinations of operators are temporaries with rising numbers from `low` on, below `high`. -/
inductive Numbered : (low high : Nat) → List Instruction → Prop where
  | nil (low high : Nat) (below : low ≤ high) : Numbered low high []
  | quiet (low high : Nat) (instruction : Instruction) (rest : List Instruction)
      (quiet : instruction.computed? = none) (numbered : Numbered low high rest) :
      Numbered low high (instruction :: rest)
  | computed (low number high : Nat) (instruction : Instruction) (rest : List Instruction)
      (computes : instruction.computed? = some (temporary number)) (above : low ≤ number)
      (numbered : Numbered (number + 1) high rest) : Numbered low high (instruction :: rest)

namespace Numbered

variable {low start middle high : Nat} {front back code : List Instruction}

theorem low_le_high (numbered : Numbered low high code) : low ≤ high := by
  induction numbered with
  | nil _ _ below => exact below
  | quiet _ _ _ _ _ _ ih => exact ih
  | computed _ _ _ _ _ _ _ _ ih => omega

theorem lower (numbered : Numbered low high code) (below : start ≤ low) :
    Numbered start high code := by
  induction numbered with
  | nil _ _ bound => exact .nil _ _ (Nat.le_trans below bound)
  | quiet _ _ instruction rest quiet _ ih => exact .quiet _ _ instruction rest quiet (ih below)
  | computed _ number _ instruction rest computes above numbered _ =>
      exact .computed _ number _ instruction rest computes (Nat.le_trans below above) numbered

theorem append (first : Numbered low middle front) (second : Numbered middle high back) :
    Numbered low high (front ++ back) := by
  induction first with
  | nil _ _ below => exact second.lower below
  | quiet _ _ instruction rest quiet _ ih => exact .quiet _ _ instruction _ quiet (ih second)
  | computed _ number _ instruction rest computes above _ ih =>
      exact .computed _ number _ instruction _ computes above (ih second)

/-- Labels, jumps and copies can be put at the end. -/
theorem close (numbered : Numbered low high code) (instructions : List Instruction)
    (quiet : ∀ instruction ∈ instructions, instruction.computed? = none) :
    Numbered low high (code ++ instructions) := by
  have silent : Numbered high high instructions := by
    induction instructions with
    | nil => exact .nil high high (Nat.le_refl high)
    | cons instruction rest ih =>
        rw [List.forall_mem_cons] at quiet
        exact .quiet high high instruction rest quiet.1 (ih quiet.2)
  exact numbered.append silent

/-- An operator takes the number after its operands. -/
theorem compute (numbered : Numbered low high code) (instruction : Instruction)
    (computes : instruction.computed? = some (temporary high)) :
    Numbered low (high + 1) (code ++ [instruction]) := by
  have last : Numbered high (high + 1) [instruction] :=
    .computed high high (high + 1) instruction [] computes (Nat.le_refl high)
      (.nil _ _ (Nat.le_refl _))
  exact numbered.append last

/-- The numbers that were taken. -/
theorem exists_numbers (numbered : Numbered low high code) :
    ∃ numbers : List Nat, computedOf code = numbers.map temporary ∧
      numbers.Pairwise (· < ·) ∧ ∀ number ∈ numbers, low ≤ number ∧ number < high := by
  induction numbered with
  | nil => exact ⟨[], rfl, .nil, by simp⟩
  | quiet low high instruction rest quiet _ ih =>
      obtain ⟨numbers, names, rising, within⟩ := ih
      refine ⟨numbers, ?_, rising, within⟩
      rw [← names, computedOf, List.filterMap_cons_none quiet, computedOf]
  | computed low number high instruction rest computes above numbered ih =>
      obtain ⟨numbers, names, rising, within⟩ := ih
      have bound := numbered.low_le_high
      refine ⟨number :: numbers, ?_, ?_, ?_⟩
      · rw [computedOf, List.filterMap_cons_some computes, List.map_cons, ← names, computedOf]
      · refine List.pairwise_cons.mpr ⟨?_, rising⟩
        intro later member
        have := within later member
        omega
      · rw [List.forall_mem_cons]
        refine ⟨⟨above, by omega⟩, ?_⟩
        intro later member
        have := within later member
        omega

end Numbered

theorem Supply.temporaries_le_declare (name : String) (supply : Supply) :
    supply.temporaries ≤ (supply.declare name).temporaries := by
  unfold Supply.declare
  split
  · exact Nat.le_refl _
  · exact Nat.le_succ _

@[simp] theorem Supply.exit_temporaries (supply : Supply) :
    supply.exit.temporaries = supply.temporaries := by
  unfold Supply.exit
  split <;> rfl

/-- An expression takes one number for each of its operators. -/
theorem Expr.numbered (expr : Expr) (next : Nat) :
    Numbered next (next + expr.operators) (expr.code next) := by
  induction expr generalizing next with
  | place text => exact .nil next next (Nat.le_refl next)
  | binary op left right leftIh rightIh =>
      have operands := (leftIh next).append (rightIh (next + left.operators))
      have whole := operands.compute (.binary
        (temporary (next + left.operators + right.operators)) op (left.result next)
        (right.result (next + left.operators))) rfl
      rw [List.append_assoc] at whole
      simpa only [Expr.code, Expr.operators, Nat.add_assoc] using whole
  | unary op operand ih => exact (ih next).compute _ rfl

/-- A statement takes its numbers from its supply. -/
theorem Stmt.numbered (stmt : Stmt) (exits : List Label) (supply : Supply) :
    Numbered supply.temporaries (stmt.after supply).temporaries (stmt.code exits supply) := by
  induction stmt generalizing exits supply with
  | skip => exact .nil _ _ (Nat.le_refl _)
  | declare name => exact .nil _ _ (supply.temporaries_le_declare name)
  | seq first second firstIh secondIh =>
      exact (firstIh exits supply).append (secondIh exits (first.after supply))
  | assign place value =>
      have computed := value.numbered supply.temporaries
      exact computed.close _ (by simp [Instruction.computed?])
  | ifThen cond body ih =>
      have tested := cond.numbered supply.temporaries
      have inner := ih exits ((supply.spend cond.operators).mark 1)
      exact tested.append (.quiet _ _ _ _ rfl (inner.close _ (by simp [Instruction.computed?])))
  | ifElse cond body other bodyIh otherIh =>
      have tested := cond.numbered supply.temporaries
      have inner := bodyIh exits ((supply.spend cond.operators).mark 1)
      have outer := otherIh exits ((body.after ((supply.spend cond.operators).mark 1)).mark 1)
      exact tested.append (.quiet _ _ _ _ rfl (inner.append (.quiet _ _ _ _ rfl
        (.quiet _ _ _ _ rfl (outer.close _ (by simp [Instruction.computed?]))))))
  | whileDo cond body ih =>
      have tested := cond.numbered supply.temporaries
      have inner := ih (⟨supply.labels + 1⟩ :: exits) ((supply.mark 2).spend cond.operators)
      exact .quiet _ _ _ _ rfl (tested.append
        (.quiet _ _ _ _ rfl (inner.close _ (by simp [Instruction.computed?]))))
  | doWhile body cond ih =>
      have inner := ih (⟨supply.labels + 1⟩ :: exits) (supply.mark 2)
      have tested := cond.numbered (body.after (supply.mark 2)).temporaries
      exact .quiet _ _ _ _ rfl (inner.append (tested.close _ (by simp [Instruction.computed?])))
  | leave =>
      cases exits with
      | nil => exact .nil _ _ (Nat.le_refl _)
      | cons exit outer => exact .quiet _ _ _ _ rfl (.nil _ _ (Nat.le_refl _))
  | block body ih =>
      have inner := ih exits supply.enter
      rw [Stmt.after, Supply.exit_temporaries]
      exact inner

end ThreeAddress

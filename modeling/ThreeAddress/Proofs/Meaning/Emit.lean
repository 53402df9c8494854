import ThreeAddress.Proofs.Meaning.Machine

/-!
The code of a structured program, in one walk from left to right. The walk draws labels and
temporaries from a supply that it hands on.
-/

set_option autoImplicit false

namespace ThreeAddress

/-- What is handed out next, and the names declared in the open scopes with their depths. -/
structure Supply where
  labels : Nat
  temporaries : Nat
  depth : Nat
  names : List (String × Nat)
deriving Repr, DecidableEq

namespace Supply

/-- The supply before the first statement, in the outermost scope. -/
def first : Supply := ⟨0, 0, 1, []⟩

def spend (count : Nat) (supply : Supply) : Supply :=
  { supply with temporaries := supply.temporaries + count }

def mark (count : Nat) (supply : Supply) : Supply :=
  { supply with labels := supply.labels + count }

/-- A name that is new takes a temporary for its address. -/
def declare (name : String) (supply : Supply) : Supply :=
  if supply.names.any (fun known => known.1 == name) then supply
  else
    { supply with
      temporaries := supply.temporaries + 1
      names := supply.names ++ [(name, supply.depth)] }

def enter (supply : Supply) : Supply := { supply with depth := supply.depth + 1 }

def exit (supply : Supply) : Supply :=
  if supply.depth = 0 then supply
  else
    { supply with
      depth := supply.depth - 1
      names := supply.names.filter fun known => known.2 != supply.depth }

theorem spend_spend (first second : Nat) (supply : Supply) :
    (supply.spend first).spend second = supply.spend (first + second) := by
  simp only [spend, Nat.add_assoc]

@[simp] theorem spend_temporaries (count : Nat) (supply : Supply) :
    (supply.spend count).temporaries = supply.temporaries + count := rfl

@[simp] theorem spend_labels (count : Nat) (supply : Supply) :
    (supply.spend count).labels = supply.labels := rfl

@[simp] theorem mark_labels (count : Nat) (supply : Supply) :
    (supply.mark count).labels = supply.labels + count := rfl

@[simp] theorem declare_labels (name : String) (supply : Supply) :
    (supply.declare name).labels = supply.labels := by
  unfold declare
  split <;> rfl

@[simp] theorem enter_labels (supply : Supply) : supply.enter.labels = supply.labels := rfl

@[simp] theorem exit_labels (supply : Supply) : supply.exit.labels = supply.labels := by
  unfold exit
  split <;> rfl

end Supply

namespace Expr

/-- The number of temporaries that an expression takes. -/
def operators : Expr → Nat
  | .place _ => 0
  | .binary _ left right => left.operators + right.operators + 1
  | .unary _ operand => operand.operators + 1

/-- The place where the value of an expression is left, if `next` is the next temporary. -/
def result (next : Nat) : Expr → String
  | .place text => text
  | .binary _ left right => temporary (next + left.operators + right.operators)
  | .unary _ operand => temporary (next + operand.operators)

def code (next : Nat) : Expr → List Instruction
  | .place _ => []
  | .binary op left right =>
    left.code next ++ (right.code (next + left.operators) ++
      [.binary (temporary (next + left.operators + right.operators)) op (left.result next)
        (right.result (next + left.operators))])
  | .unary op operand =>
    operand.code next ++ [.unary (temporary (next + operand.operators)) op (operand.result next)]

@[simp] theorem labelsOf_code (expr : Expr) (next : Nat) : labelsOf (expr.code next) = [] := by
  induction expr generalizing next with
  | place text => rfl
  | binary op left right leftIh rightIh => simp [code, leftIh, rightIh, Instruction.label?]
  | unary op operand ih => simp [code, ih, Instruction.label?]

end Expr

namespace Stmt

/-- What a statement leaves of the supply. -/
def after : Stmt → Supply → Supply
  | .skip, supply => supply
  | .leave, supply => supply
  | .declare name, supply => supply.declare name
  | .seq first second, supply => second.after (first.after supply)
  | .assign _ value, supply => supply.spend value.operators
  | .ifThen cond body, supply => body.after ((supply.spend cond.operators).mark 1)
  | .ifElse cond body other, supply =>
    other.after ((body.after ((supply.spend cond.operators).mark 1)).mark 1)
  | .whileDo cond body, supply => body.after ((supply.mark 2).spend cond.operators)
  | .doWhile body cond, supply => (body.after (supply.mark 2)).spend cond.operators
  | .block body, supply => (body.after supply.enter).exit

/-- The code of a statement inside loops with the given exits, the innermost first. -/
def code (exits : List Label) : Stmt → Supply → List Instruction
  | .skip, _ => []
  | .declare _, _ => []
  | .seq first second, supply => first.code exits supply ++ second.code exits (first.after supply)
  | .assign place value, supply =>
    value.code supply.temporaries ++ [.copy place (value.result supply.temporaries)]
  | .ifThen cond body, supply =>
    let otherwise : Label := ⟨supply.labels⟩
    cond.code supply.temporaries ++
      (.ifFalse (cond.result supply.temporaries) otherwise ::
        (body.code exits ((supply.spend cond.operators).mark 1) ++ [.label otherwise]))
  | .ifElse cond body other, supply =>
    let otherwise : Label := ⟨supply.labels⟩
    let middle := body.after ((supply.spend cond.operators).mark 1)
    let finish : Label := ⟨middle.labels⟩
    cond.code supply.temporaries ++
      (.ifFalse (cond.result supply.temporaries) otherwise ::
        (body.code exits ((supply.spend cond.operators).mark 1) ++
          (.goto finish :: .label otherwise ::
            (other.code exits (middle.mark 1) ++ [.label finish]))))
  | .whileDo cond body, supply =>
    let start : Label := ⟨supply.labels⟩
    let exit : Label := ⟨supply.labels + 1⟩
    .label start ::
      (cond.code supply.temporaries ++
        (.ifFalse (cond.result supply.temporaries) exit ::
          (body.code (exit :: exits) ((supply.mark 2).spend cond.operators) ++
            [.goto start, .label exit])))
  | .doWhile body cond, supply =>
    let start : Label := ⟨supply.labels⟩
    let exit : Label := ⟨supply.labels + 1⟩
    let middle := body.after (supply.mark 2)
    .label start ::
      (body.code (exit :: exits) (supply.mark 2) ++
        (cond.code middle.temporaries ++
          [.ifTrue (cond.result middle.temporaries) start, .label exit]))
  | .leave, _ =>
    match exits with
    | exit :: _ => [.goto exit]
    | [] => []
  | .block body, supply => body.code exits supply.enter

theorem labels_le_after (stmt : Stmt) (supply : Supply) :
    supply.labels ≤ (stmt.after supply).labels := by
  induction stmt generalizing supply with
  | skip => exact Nat.le_refl _
  | leave => exact Nat.le_refl _
  | declare name => simp [after]
  | seq first second firstIh secondIh => exact Nat.le_trans (firstIh supply) (secondIh _)
  | assign place value => simp [after]
  | ifThen cond body ih =>
      have inner := ih ((supply.spend cond.operators).mark 1)
      simp only [Supply.mark_labels, Supply.spend_labels] at inner
      simp only [after]
      omega
  | ifElse cond body other bodyIh otherIh =>
      have inner := bodyIh ((supply.spend cond.operators).mark 1)
      have outer := otherIh ((body.after ((supply.spend cond.operators).mark 1)).mark 1)
      simp only [Supply.mark_labels, Supply.spend_labels] at inner outer
      simp only [after]
      omega
  | whileDo cond body ih =>
      have inner := ih ((supply.mark 2).spend cond.operators)
      simp only [Supply.mark_labels, Supply.spend_labels] at inner
      simp only [after]
      omega
  | doWhile body cond ih =>
      have inner := ih (supply.mark 2)
      simp only [Supply.mark_labels] at inner
      simp only [after, Supply.spend_labels]
      omega
  | block body ih =>
      have inner := ih supply.enter
      simp only [Supply.enter_labels] at inner
      simp only [after, Supply.exit_labels]
      exact inner

/-- A list of different labels, all of them drawn from a range. -/
def Drawn (low high : Nat) (labels : List Label) : Prop :=
  labels.Nodup ∧ ∀ label ∈ labels, low ≤ label.number ∧ label.number < high

theorem Drawn.nil (low high : Nat) : Drawn low high [] := ⟨List.nodup_nil, by simp⟩

theorem Drawn.singleton {low high number : Nat} (above : low ≤ number) (below : number < high) :
    Drawn low high [⟨number⟩] := ⟨by simp, by simp [above, below]⟩

theorem Drawn.pair (number : Nat) : Drawn number (number + 2) [⟨number⟩, ⟨number + 1⟩] :=
  ⟨by simp, by simp⟩

theorem Drawn.append {low middle high : Nat} {left right : List Label}
    (first : Drawn low middle left) (second : Drawn middle high right) (below : low ≤ middle)
    (above : middle ≤ high) : Drawn low high (left ++ right) := by
  refine ⟨List.nodup_append.mpr ⟨first.1, second.1, ?_⟩, ?_⟩
  · rintro label inLeft _ inRight rfl
    have one := first.2 label inLeft
    have two := second.2 label inRight
    omega
  · intro label member
    rcases List.mem_append.mp member with inLeft | inRight
    · have range := first.2 label inLeft
      omega
    · have range := second.2 label inRight
      omega

theorem Drawn.perm {low high : Nat} {left right : List Label} (drawn : Drawn low high left)
    (same : right.Perm left) : Drawn low high right :=
  ⟨same.symm.nodup drawn.1, fun label member => drawn.2 label (same.mem_iff.mp member)⟩

/-- The labels that a statement defines are different from each other and taken from its supply. -/
theorem drawn_code (stmt : Stmt) (exits : List Label) (supply : Supply) :
    Drawn supply.labels (stmt.after supply).labels (labelsOf (stmt.code exits supply)) := by
  induction stmt generalizing exits supply with
  | skip => exact .nil _ _
  | declare name => exact .nil _ _
  | leave =>
      cases exits with
      | nil => exact .nil _ _
      | cons exit rest => exact .nil _ _
  | seq first second firstIh secondIh =>
      simp only [code, labelsOf_append, after]
      exact (firstIh exits supply).append (secondIh exits _) (first.labels_le_after _)
        (second.labels_le_after _)
  | assign place value =>
      simp only [code, labelsOf_append, Expr.labelsOf_code, List.nil_append]
      exact .nil _ _
  | ifThen cond body ih =>
      have inner := ih exits ((supply.spend cond.operators).mark 1)
      have grows := body.labels_le_after ((supply.spend cond.operators).mark 1)
      simp only [Supply.mark_labels, Supply.spend_labels] at inner grows
      simp only [code, labelsOf_append, labelsOf_cons, Expr.labelsOf_code, Instruction.label?,
        labelsOf_nil, Option.toList_none, Option.toList_some, List.nil_append, List.append_nil, after]
      have own : Drawn supply.labels (supply.labels + 1) [⟨supply.labels⟩] :=
        .singleton (by omega) (by omega)
      exact (own.append inner (by omega) grows).perm List.perm_append_comm
  | ifElse cond body other bodyIh otherIh =>
      have inner := bodyIh exits ((supply.spend cond.operators).mark 1)
      have grows := body.labels_le_after ((supply.spend cond.operators).mark 1)
      have outer := otherIh exits ((body.after ((supply.spend cond.operators).mark 1)).mark 1)
      have more := other.labels_le_after
        ((body.after ((supply.spend cond.operators).mark 1)).mark 1)
      simp only [Supply.mark_labels, Supply.spend_labels] at inner grows outer more
      simp only [code, labelsOf_append, labelsOf_cons, Expr.labelsOf_code, Instruction.label?,
        labelsOf_nil, Option.toList_none, Option.toList_some, List.nil_append, List.append_nil,
        List.singleton_append, after]
      generalize body.after ((supply.spend cond.operators).mark 1) = middle at *
      have own : Drawn supply.labels (supply.labels + 1) [⟨supply.labels⟩] :=
        .singleton (by omega) (by omega)
      have finish : Drawn middle.labels (middle.labels + 1) [⟨middle.labels⟩] :=
        .singleton (by omega) (by omega)
      have whole := (own.append inner (by omega) grows).append (finish.append outer (by omega) more)
        (by omega) (by omega)
      exact whole.perm (List.perm_middle.trans
        (List.Perm.cons _ (List.Perm.append_left _ List.perm_append_comm)))
  | whileDo cond body ih =>
      have inner := ih (⟨supply.labels + 1⟩ :: exits) ((supply.mark 2).spend cond.operators)
      have grows := body.labels_le_after ((supply.mark 2).spend cond.operators)
      simp only [Supply.mark_labels, Supply.spend_labels] at inner grows
      simp only [code, labelsOf_append, labelsOf_cons, Expr.labelsOf_code, Instruction.label?,
        labelsOf_nil, Option.toList_none, Option.toList_some, List.nil_append, List.append_nil,
        List.singleton_append, after]
      exact ((Drawn.pair _).append inner (by omega) grows).perm
        (List.Perm.cons _ List.perm_append_comm)
  | doWhile body cond ih =>
      have inner := ih (⟨supply.labels + 1⟩ :: exits) (supply.mark 2)
      have grows := body.labels_le_after (supply.mark 2)
      simp only [Supply.mark_labels] at inner grows
      simp only [code, labelsOf_append, labelsOf_cons, Expr.labelsOf_code, Instruction.label?,
        labelsOf_nil, Option.toList_none, Option.toList_some, List.nil_append, List.append_nil,
        List.singleton_append, after, Supply.spend_labels]
      exact ((Drawn.pair _).append inner (by omega) grows).perm
        (List.Perm.cons _ List.perm_append_comm)
  | block body ih =>
      have inner := ih exits supply.enter
      simp only [Supply.enter_labels] at inner
      simp only [code, after, Supply.exit_labels]
      exact inner

end Stmt

theorem temporary_toList (number : Nat) :
    (temporary number).toList = 't' :: Nat.toDigits 10 number := by
  simp [temporary]

/-- Temporaries have the form of temporaries. -/
theorem isTemporary_temporary (number : Nat) : isTemporary (temporary number) = true := by
  unfold isTemporary
  rw [temporary_toList]
  cases digits : Nat.toDigits 10 number with
  | nil => exact absurd digits Nat.toDigits_ne_nil
  | cons first rest =>
      simp only [List.all_eq_true]
      intro digit member
      exact Nat.isDigit_of_mem_toDigits (by decide) (by decide) (digits ▸ member)

theorem temporary_injective {first second : Nat} (same : temporary first = temporary second) :
    first = second := by
  have digits := congrArg String.toList same
  rw [temporary_toList, temporary_toList, List.cons.injEq] at digits
  have value := congrArg (fun digits => Nat.ofDigitChars 10 digits 0) digits.2
  simpa using value

theorem ne_temporary {text : String} (plain : isTemporary text = false) (number : Nat) :
    text ≠ temporary number := by
  rintro rfl
  rw [isTemporary_temporary] at plain
  cases plain

end ThreeAddress

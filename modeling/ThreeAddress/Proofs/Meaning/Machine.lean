import ThreeAddress.Proofs.Meaning.Program

/-!
Execution of instructions one after the other. A jump goes to the label instruction of its target,
and a run ends where the code ends.
-/

set_option autoImplicit false

namespace ThreeAddress

variable {V : Type}

/-- The next instruction, by number, and the store. -/
structure Machine (V : Type) where
  pc : Nat
  store : Store V

/-- Where the label instruction of a label stands. -/
def target? (code : List Instruction) (label : Label) : Option Nat :=
  code.findIdx? (· == .label label)

def Instruction.label? : Instruction → Option Label
  | .label target => some target
  | _ => none

/-- The labels that the code defines, in order. -/
def labelsOf (code : List Instruction) : List Label := code.filterMap Instruction.label?

@[simp] theorem labelsOf_nil : labelsOf [] = [] := rfl

@[simp] theorem labelsOf_append (front back : List Instruction) :
    labelsOf (front ++ back) = labelsOf front ++ labelsOf back := List.filterMap_append

@[simp] theorem labelsOf_cons (instruction : Instruction) (rest : List Instruction) :
    labelsOf (instruction :: rest) = instruction.label?.toList ++ labelsOf rest := by
  cases instruction <;> rfl

namespace Machine

def advance (machine : Machine V) : Machine V := { machine with pc := machine.pc + 1 }

/-- Writes a place and goes on. -/
def write (machine : Machine V) (place : String) (value : V) : Machine V :=
  ⟨machine.pc + 1, machine.store.set place value⟩

def jump (code : List Instruction) (label : Label) (machine : Machine V) : Option (Machine V) :=
  (target? code label).map fun pc => { machine with pc }

/-- Executes one instruction. There is no step at the end of the code, and none to a label that is
missing. -/
def step (meaning : Meaning V) (code : List Instruction) (machine : Machine V) :
    Option (Machine V) :=
  match code[machine.pc]? with
  | none => none
  | some (.copy dst src) => some (machine.write dst (machine.store src))
  | some (.binary dst op lhs rhs) =>
    some (machine.write dst (meaning.binary op (machine.store lhs) (machine.store rhs)))
  | some (.unary dst op src) => some (machine.write dst (meaning.unary op (machine.store src)))
  | some (.label _) => some machine.advance
  | some (.goto label) => machine.jump code label
  | some (.ifFalse cond label) =>
    if meaning.truth (machine.store cond) then some machine.advance else machine.jump code label
  | some (.ifTrue cond label) =>
    if meaning.truth (machine.store cond) then machine.jump code label else some machine.advance

/-- Executes a number of instructions. -/
def run (meaning : Meaning V) (code : List Instruction) : (steps : Nat) → Machine V →
    Option (Machine V)
  | 0, machine => some machine
  | steps + 1, machine => (machine.step meaning code).bind (run meaning code steps)

/-- Execution from the first instruction runs off the end of the code with the given store. -/
def Ends (meaning : Meaning V) (code : List Instruction) (store final : Store V) : Prop :=
  ∃ steps, run meaning code steps ⟨0, store⟩ = some ⟨code.length, final⟩

variable {meaning : Meaning V} {code : List Instruction}

theorem run_add (first second : Nat) (machine : Machine V) :
    run meaning code (first + second) machine =
      (run meaning code first machine).bind (run meaning code second) := by
  induction first generalizing machine with
  | zero => rw [Nat.zero_add, run, Option.bind_some]
  | succ first ih =>
      rw [Nat.succ_add, run, run, Option.bind_assoc]
      congr 1
      funext next
      exact ih next

theorem run_trans {first second : Nat} {start middle final : Machine V}
    (one : run meaning code first start = some middle)
    (two : run meaning code second middle = some final) :
    run meaning code (first + second) start = some final := by
  rw [run_add, one, Option.bind_some, two]

theorem run_one {start next : Machine V} (step : start.step meaning code = some next) :
    run meaning code 1 start = some next := by
  rw [run, step, Option.bind_some, run]

/-- A run that has come to an end passes through every configuration on the way. -/
theorem run_rest {first steps : Nat} {start middle final : Machine V}
    (one : run meaning code first start = some middle)
    (whole : run meaning code steps start = some final)
    (ended : final.step meaning code = none) :
    first ≤ steps ∧ run meaning code (steps - first) middle = some final := by
  by_cases early : first ≤ steps
  · refine ⟨early, ?_⟩
    have split : first + (steps - first) = steps := by omega
    rw [← split, run_add, one, Option.bind_some] at whole
    exact whole
  · have split : steps + (first - steps) = first := by omega
    obtain ⟨more, further⟩ : ∃ more, first - steps = more + 1 := ⟨first - steps - 1, by omega⟩
    rw [← split, run_add, whole, Option.bind_some, further, run, ended] at one
    cases one

theorem step_length (store : Store V) : step meaning code ⟨code.length, store⟩ = none := by
  have outside : code[code.length]? = none := List.getElem?_eq_none (Nat.le_refl _)
  unfold step
  simp only [outside]

/-- Execution runs off the end of the code after a number of steps. -/
def Finishes (meaning : Meaning V) (code : List Instruction) (steps : Nat) (machine : Machine V) :
    Prop :=
  ∃ final, run meaning code steps machine = some ⟨code.length, final⟩

theorem Finishes.rest {first steps : Nat} {start middle : Machine V}
    (finishes : Finishes meaning code steps start)
    (one : run meaning code first start = some middle) :
    first ≤ steps ∧ Finishes meaning code (steps - first) middle := by
  obtain ⟨final, whole⟩ := finishes
  obtain ⟨early, rest⟩ := run_rest one whole (step_length final)
  exact ⟨early, final, rest⟩

/-- Execution is determined. -/
theorem Ends.unique {store first second : Store V} (one : Ends meaning code store first)
    (other : Ends meaning code store second) : first = second := by
  obtain ⟨steps, run⟩ := one
  obtain ⟨others, also⟩ := other
  have rest := run_rest run also (step_length second)
  cases left : others - steps with
  | zero =>
      rw [left] at rest
      exact congrArg Machine.store (Option.some.inj rest.2)
  | succ more =>
      rw [left, Machine.run, step_length] at rest
      cases rest.2

end Machine

/-- The piece stands in the code at the position. -/
def Stands (code : List Instruction) (pos : Nat) (piece : List Instruction) : Prop :=
  ∃ front back, code = front ++ piece ++ back ∧ front.length = pos

namespace Stands

variable {code left right : List Instruction} {pos : Nat}

theorem whole (code : List Instruction) : Stands code 0 code := ⟨[], [], by simp, rfl⟩

theorem append_left (stands : Stands code pos (left ++ right)) : Stands code pos left := by
  obtain ⟨front, back, rfl, rfl⟩ := stands
  exact ⟨front, right ++ back, by simp only [List.append_assoc], rfl⟩

theorem append_right (stands : Stands code pos (left ++ right)) :
    Stands code (pos + left.length) right := by
  obtain ⟨front, back, rfl, rfl⟩ := stands
  exact ⟨front ++ left, back, by simp only [List.append_assoc], List.length_append⟩

theorem tail {instruction : Instruction} (stands : Stands code pos (instruction :: right)) :
    Stands code (pos + 1) right := by
  have split : Stands code pos ([instruction] ++ right) := stands
  exact split.append_right

theorem head {instruction : Instruction} (stands : Stands code pos (instruction :: right)) :
    code[pos]? = some instruction := by
  obtain ⟨front, back, rfl, rfl⟩ := stands
  rw [List.append_assoc, List.getElem?_append_right (Nat.le_refl _), Nat.sub_self]
  rfl

/-- A label that is defined once is found where its instruction stands. -/
theorem target {label : Label} (stands : Stands code pos (.label label :: right))
    (unique : (labelsOf code).Nodup) : target? code label = some pos := by
  obtain ⟨front, back, rfl, rfl⟩ := stands
  have absent : ∀ instruction ∈ front, (instruction == .label label) = false := by
    intro instruction member
    refine beq_eq_false_iff_ne.mpr ?_
    rintro rfl
    have twice : ¬(labelsOf (front ++ .label label :: right ++ back)).Nodup := by
      rw [List.append_assoc, labelsOf_append, List.cons_append, labelsOf_cons, List.nodup_append]
      rintro ⟨_, _, apart⟩
      refine apart label ?_ label List.mem_cons_self rfl
      exact List.mem_filterMap.mpr ⟨_, member, rfl⟩
    exact twice unique
  rw [target?, List.append_assoc, List.findIdx?_append,
    List.findIdx?_eq_none_iff.mpr absent, List.cons_append, List.findIdx?_cons]
  simp

end Stands

end ThreeAddress

import ThreeAddress.Proofs.Language.Inversion

/-!
What semantic actions do with the slots of the stack that they read. An action takes no notice of the
rest of the stack, and if each slot holds what is expected, it misses nothing.
-/

set_option autoImplicit false

namespace ThreeAddress

/-- What the attribute of the head can be read as afterwards, if it is not empty. -/
def Semantic.gives? : Semantic → Option Use
  | .pass | .paren | .locId | .locIndex | .binary _ | .unary _ => some .operand
  | .ifTest | .ifElseMark => some .label
  | .loopEnter => some .loop
  | _ => none

/-- The attribute is for this use, or empty if it is for none. -/
def Attribute.Serves (use? : Option Use) (held : Attribute) : Prop :=
  match use? with
  | .some use => use.accepts held = true
  | .none => held = .none

namespace Reduction

variable {α : Type} {action : Semantic} {stack : List Attribute}

/-- An action depends on the slots that it reads and on nothing else of the stack. -/
theorem run_congr {other : List Attribute}
    (same : ∀ slot ∈ action.reads, stack[slot.depth]? = other[slot.depth]?) :
    run action stack = run action other := by
  have found : ∀ slot ∈ action.reads,
      Reduction.slot action stack slot.depth = Reduction.slot action other slot.depth := by
    intro slot listed
    rw [Reduction.slot, same slot listed, Reduction.slot]
  funext pos
  cases action <;>
    simp only [Semantic.reads, List.forall_mem_cons, List.not_mem_nil, false_implies,
      implies_true, and_true] at found <;>
    simp only [run, placeAt, labelAt, loopAt, found]

/-- What the computation gives is of the kind, and it does not fail for want of an attribute. -/
structure Yields (kind : α → Prop) (reduction : Reduction α) : Prop where
  value : ∀ translator value after, reduction translator = .ok value after → kind value
  error : ∀ translator after action,
    reduction translator ≠ .error (.error (.missingAttribute action)) after

theorem Leaves.serves {pos : Nat} {translator after : Translator} {head : Attribute}
    (leaves : Leaves stack pos translator action head after)
    (filled : ∀ slot ∈ action.reads, slot.Filled stack) : head.Serves action.gives? := by
  have handed {depth : Nat} (own : ⟨depth, .operand⟩ ∈ action.reads)
      (found : stack[depth]? = some head) : Use.operand.accepts head = true := by
    obtain ⟨held, there, accepted⟩ := filled _ own
    obtain rfl := Option.some.inj (found.symm.trans there)
    exact accepted
  cases leaves with
  | pass _ found => exact handed List.mem_cons_self found
  | paren _ found => exact handed List.mem_cons_self found
  | _ => rfl

/-- An action whose slots are filled misses nothing, and gives an attribute for its use. -/
theorem yields_run (filled : ∀ slot ∈ action.reads, slot.Filled stack) (pos : Nat) :
    Yields (Attribute.Serves action.gives?) (run action stack pos) where
  value := fun _ _ _ ran => (leaves_of_run ran).serves filled
  error := by
    intro translator after missed ran
    cases cause_of_run ran with
    | unfilled slot own unfilled => exact unfilled (filled slot own)

end Reduction

end ThreeAddress

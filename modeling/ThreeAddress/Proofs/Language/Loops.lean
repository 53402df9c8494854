import ThreeAddress.Proofs.Language.Inversion
import ThreeAddress.Proofs.Language.Typed

/-!
The open loops of the translator are those on the stack of attributes. The translator opens a loop
with a marker and closes it with one of two rules, without a look at the stack; the rules take one
loop off the stack exactly where the translator closes one.
-/

set_option autoImplicit false

namespace ThreeAddress

/-- The exit of a loop. -/
def Attribute.exit? : Attribute → Option Label
  | .loop _ exit => some exit
  | _ => Option.none

/-- The exits of the loops on a stack, from the top. -/
def loopExits (stack : List Attribute) : List Label := stack.filterMap Attribute.exit?

@[simp] theorem loopExits_nil : loopExits [] = [] := rfl

theorem loopExits_append (front back : List Attribute) :
    loopExits (front ++ back) = loopExits front ++ loopExits back := List.filterMap_append

theorem loopExits_cons (held : Attribute) (stack : List Attribute) :
    loopExits (held :: stack) = loopExits [held] ++ loopExits stack :=
  loopExits_append [held] stack

/-- Tokens and places are no loops. -/
theorem Use.loopExits_of_operand {held : Attribute} (accepted : Use.operand.accepts held = true) :
    loopExits [held] = [] := by
  cases held with
  | token text start => rfl
  | place text => rfl
  | _ => cases accepted

/-- What is carried for the use of a role is a loop if the role is that of a loop. -/
theorem Role.length_loopExits {role : Role} {held : Attribute} (serves : held.Serves role.use?) :
    (loopExits [held]).length = if role = .loop then 1 else 0 := by
  cases role with
  | token | location | value => rw [Use.loopExits_of_operand serves]; rfl
  | typing | statement | block | loopTest | scope =>
      obtain rfl : held = .none := serves
      rfl
  | test | otherwise =>
      cases held with
      | label label => rfl
      | _ => cases serves
  | loop =>
      cases held with
      | loop start exit => rfl
      | _ => cases serves

namespace Semantic

/-- The number of loops that an action closes. -/
def closes : Semantic → Nat
  | .whileLoop | .doWhile => 1
  | _ => 0

theorem closes_eq_zero {action : Semantic} :
    action.closes = 0 ↔ action ≠ .whileLoop ∧ action ≠ .doWhile := by
  cases action <;> simp [closes]

/-- The loops in a body are those that the action closes, and the head is a loop if the action opens
one. -/
theorem loops_of_fits {action : Semantic} {body : List Role} {head : Role}
    (fits : action.fits body head = true) :
    body.count .loop = action.closes ∧ (head = .loop ↔ action = .loopEnter) := by
  cases fitting_of_fits fits <;> exact ⟨rfl, by simp⟩

end Semantic

namespace Reduction

theorem declare_breaks (name : String) (size pos : Nat) (translator : Translator) :
    (translator.declare name size pos).breaks = translator.breaks := by
  unfold Translator.declare
  split <;> rfl

/-- An action opens the loop that it leaves in the attribute of the head, and closes the innermost
ones before. -/
theorem Leaves.breaks_eq {action : Semantic} {stack : List Attribute} {pos : Nat}
    {translator after : Translator} {head : Attribute}
    (leaves : Leaves stack pos translator action head after)
    (serves : head.Serves action.gives?) :
    after.breaks = loopExits [head] ++ translator.breaks.drop action.closes := by
  cases leaves with
  | pass child found => rw [Use.loopExits_of_operand serves]; rfl
  | paren child found => rw [Use.loopExits_of_operand serves]; rfl
  | decl name found => exact declare_breaks _ _ _ _
  | declArray name size found => exact declare_breaks _ _ _ _
  | whileLoop start exit => exact (List.drop_one).symm
  | doWhile cond start exit => exact (List.drop_one).symm
  | _ => rfl

end Reduction

namespace Language

variable {grammar : Grammar} {symbols : List Symbol} {stack : List Attribute}

/-- There are as many loops on the stack as symbols that stand for one. -/
theorem Typed.length_loopExits (typed : Typed grammar symbols stack) :
    (loopExits stack).length = (symbols.map (symbolRole grammar)).count .loop := by
  induction typed with
  | bottom => rfl
  | push symbol held symbols stack serves _ ih =>
      rw [loopExits_cons, List.length_append, Role.length_loopExits serves, ih, List.map_cons,
        List.count_cons]
      simp only [beq_iff_eq]
      omega

/-- With a body the loops in it are taken off the stack. -/
theorem Typed.loopExits_popAbove {body : List Symbol} {earlier : List Symbol}
    (typed : Typed grammar (body.reverse ++ earlier) stack) :
    loopExits (ThreeAddress.popAbove body.length stack) =
      (loopExits stack).drop ((body.map (symbolRole grammar)).count .loop) := by
  have whole := typed.length_loopExits
  have rest := typed.popAbove.length_loopExits
  have length := typed.length_eq
  rw [List.length_append, List.length_reverse] at length
  rw [popAbove_eq_drop _ _ (by omega)] at rest ⊢
  have split : loopExits stack =
      loopExits (stack.take body.length) ++ loopExits (stack.drop body.length) := by
    rw [← loopExits_append, List.take_append_drop]
  rw [split, List.length_append, rest, List.map_append, List.count_append, List.map_reverse,
    List.count_reverse] at whole
  rw [split, List.drop_left' (by omega)]

/-- A reduction keeps the open loops in line with the stack. -/
theorem Typed.breaks_reduce (described : description.build = .ok grammar) {index pos : Nat}
    {production : Production} {earlier : List Symbol} {head : Attribute}
    {translator after : Translator}
    (typed : Typed grammar (production.body.reverse ++ earlier) stack)
    (found : grammar.productions[index]? = some production)
    (leaves : Reduction.Leaves stack pos translator
      (ruleActions.getD index .nothing) head after)
    (serves : head.Serves (ruleActions.getD index .nothing).gives?)
    (inLine : translator.breaks = loopExits stack) :
    after.breaks = loopExits (head :: ThreeAddress.popAbove production.body.length stack) := by
  rw [leaves.breaks_eq serves, inLine, loopExits_cons head (ThreeAddress.popAbove _ _),
    typed.loopExits_popAbove, (Semantic.loops_of_fits (fits_of_build described found)).1]

end Language

end ThreeAddress

import ThreeAddress.Proofs.Language.Effects

/-!
Semantic actions read backwards: what an action that succeeded has done, and why one that failed did
so. Invariants of the translator are taken from here, case by case, without running an action again.
-/

set_option autoImplicit false

namespace ThreeAddress

/-- The array sizes of a program can be at fault in two ways: one is no number that fits in a word,
or their product does not fit. -/
def Failure.OfSize : Failure → Prop
  | .error (.badArraySize _) => True
  | .sizeOverflow => True
  | _ => False

namespace Reduction

/-- What each action leaves if it succeeds: the attribute of the head, and the translator. -/
inductive Leaves (stack : List Attribute) (pos : Nat) (translator : Translator) :
    Semantic → Attribute → Translator → Prop where
  | nothing : Leaves stack pos translator .nothing .none translator
  | pass (child : Attribute) (found : stack[0]? = some child) :
      Leaves stack pos translator .pass child translator
  | paren (child : Attribute) (found : stack[1]? = some child) :
      Leaves stack pos translator .paren child translator
  | basicType (name : Attribute) (found : stack[0]? = some name) :
      Leaves stack pos translator .basicType .none
        { translator with pendingType := name.placeText }
  | typeArray (size : Nat) :
      Leaves stack pos translator .typeArray .none { translator with pendingSize := size }
  | decl (name : Attribute) (found : stack[1]? = some name) :
      Leaves stack pos translator .decl .none
        (translator.declare name.placeText translator.pendingSize (name.start?.getD pos))
  | declArray (name : Attribute) (size : Nat) (found : stack[4]? = some name) :
      Leaves stack pos translator .declArray .none
        (translator.declare name.placeText size (name.start?.getD pos))
  | locId (text : String) :
      Leaves stack pos translator .locId (.place text) { translator with lastName := text }
  | locIndex (text : String) : Leaves stack pos translator .locIndex (.place text) translator
  | assign (dst src : String) :
      Leaves stack pos translator .assign .none (translator.append (.copy dst src))
  | binary (op : BinaryOp) (lhs rhs : String) :
      Leaves stack pos translator (.binary op) (.place translator.symbols.fresh.1)
        ({ translator with symbols := translator.symbols.fresh.2 }.append
          (.binary translator.symbols.fresh.1 op lhs rhs))
  | unary (op : UnaryOp) (src : String) :
      Leaves stack pos translator (.unary op) (.place translator.symbols.fresh.1)
        ({ translator with symbols := translator.symbols.fresh.2 }.append
          (.unary translator.symbols.fresh.1 op src))
  | ifTest (cond : String) :
      Leaves stack pos translator .ifTest (.label translator.addLabel.1)
        (translator.addLabel.2.append (.ifFalse cond translator.addLabel.1))
  | ifElseMark (otherwise : Label) :
      Leaves stack pos translator .ifElseMark (.label translator.addLabel.1)
        ((translator.addLabel.2.append (.goto translator.addLabel.1)).append (.label otherwise))
  | ifThen (otherwise : Label) :
      Leaves stack pos translator .ifThen .none (translator.append (.label otherwise))
  | ifElse (finish : Label) :
      Leaves stack pos translator .ifElse .none (translator.append (.label finish))
  | loopEnter :
      Leaves stack pos translator .loopEnter
        (.loop translator.addLabel.1 translator.addLabel.2.addLabel.1)
        { translator.addLabel.2.addLabel.2.append (.label translator.addLabel.1) with
          breaks := translator.addLabel.2.addLabel.1 :: translator.breaks }
  | loopTest (cond : String) (exit : Label) :
      Leaves stack pos translator .loopTest .none (translator.append (.ifFalse cond exit))
  | whileLoop (start exit : Label) :
      Leaves stack pos translator .whileLoop .none
        { (translator.append (.goto start)).append (.label exit) with
          breaks := translator.breaks.tail }
  | doWhile (cond : String) (start exit : Label) :
      Leaves stack pos translator .doWhile .none
        { (translator.append (.ifTrue cond start)).append (.label exit) with
          breaks := translator.breaks.tail }
  | breakLoop (exit : Label) (outer : List Label) (inside : translator.breaks = exit :: outer) :
      Leaves stack pos translator .breakLoop .none (translator.append (.goto exit))
  | scopeEnter :
      Leaves stack pos translator .scopeEnter .none
        { translator with symbols := translator.symbols.enter }
  | nestedBlock :
      Leaves stack pos translator .nestedBlock .none
        { translator with symbols := translator.symbols.exit }

variable {action : Semantic} {stack : List Attribute} {pos depth : Nat}
  {translator after : Translator} {head : Attribute}

theorem slot_eq_ok {held : Attribute} (ran : slot action stack depth translator = .ok held after) :
    stack[depth]? = some held ∧ after = translator := by
  unfold slot at ran
  cases found : stack[depth]? with
  | none =>
      rw [found] at ran
      cases ran
  | some there =>
      rw [found] at ran
      cases ran
      exact ⟨rfl, rfl⟩

section Slots

variable {α : Type} {result : α}

theorem exists_of_slot {next : Attribute → Reduction α}
    (ran : (slot action stack depth >>= next) translator = .ok result after) :
    ∃ held, stack[depth]? = some held ∧ next held translator = .ok result after := by
  obtain ⟨held, _, found, rest⟩ := exists_of_bind ran
  obtain ⟨there, rfl⟩ := slot_eq_ok found
  exact ⟨held, there, rest⟩

theorem exists_of_place {next : String → Reduction α}
    (ran : (placeAt action stack depth >>= next) translator = .ok result after) :
    ∃ held, stack[depth]? = some held ∧ next held.placeText translator = .ok result after := by
  obtain ⟨_, _, read, rest⟩ := exists_of_bind ran
  obtain ⟨held, there, reading⟩ := exists_of_slot read
  cases reading
  exact ⟨held, there, rest⟩

theorem exists_of_label {next : Label → Reduction α}
    (ran : (labelAt action stack depth >>= next) translator = .ok result after) :
    ∃ label, next label translator = .ok result after := by
  obtain ⟨_, _, read, rest⟩ := exists_of_bind ran
  obtain ⟨held, _, reading⟩ := exists_of_slot read
  cases held with
  | label _ =>
      cases reading
      exact ⟨_, rest⟩
  | _ => cases reading

theorem exists_of_loop {next : Label × Label → Reduction α}
    (ran : (loopAt action stack depth >>= next) translator = .ok result after) :
    ∃ both, next both translator = .ok result after := by
  obtain ⟨_, _, read, rest⟩ := exists_of_bind ran
  obtain ⟨held, _, reading⟩ := exists_of_slot read
  cases held with
  | loop _ _ =>
      cases reading
      exact ⟨_, rest⟩
  | _ => cases reading

end Slots

/-- An action that succeeds has done what is listed. -/
theorem leaves_of_run (ran : run action stack pos translator = .ok head after) :
    Leaves stack pos translator action head after := by
  cases action with
  | nothing =>
      cases ran
      exact .nothing
  | pass =>
      obtain ⟨found, rfl⟩ := slot_eq_ok ran
      exact .pass head found
  | paren =>
      obtain ⟨found, rfl⟩ := slot_eq_ok ran
      exact .paren head found
  | basicType =>
      obtain ⟨name, found, setting⟩ := exists_of_place ran
      cases setting
      exact .basicType name found
  | typeArray =>
      obtain ⟨_, _, sizing⟩ := exists_of_place ran
      obtain ⟨size, setting⟩ := exists_of_sizing sizing
      cases setting
      exact .typeArray size
  | decl =>
      obtain ⟨name, found, declaring⟩ := exists_of_slot ran
      cases declaring
      exact .decl name found
  | declArray =>
      obtain ⟨name, found, reading⟩ := exists_of_slot ran
      obtain ⟨_, _, sizing⟩ := exists_of_place reading
      obtain ⟨size, declaring⟩ := exists_of_sizing sizing
      cases declaring
      exact .declArray name size found
  | locId =>
      obtain ⟨name, _, setting⟩ := exists_of_place ran
      cases setting
      exact .locId name.placeText
  | locIndex =>
      obtain ⟨_, _, reading⟩ := exists_of_place ran
      obtain ⟨_, _, joining⟩ := exists_of_place reading
      cases joining
      exact .locIndex _
  | assign =>
      obtain ⟨_, _, reading⟩ := exists_of_place ran
      obtain ⟨_, _, emitting⟩ := exists_of_place reading
      cases emitting
      exact .assign _ _
  | binary op =>
      obtain ⟨_, _, reading⟩ := exists_of_place ran
      obtain ⟨_, _, emitting⟩ := exists_of_place reading
      cases emitting
      exact .binary op _ _
  | unary op =>
      obtain ⟨_, _, emitting⟩ := exists_of_place ran
      cases emitting
      exact .unary op _
  | ifTest =>
      obtain ⟨_, _, emitting⟩ := exists_of_place ran
      cases emitting
      exact .ifTest _
  | ifElseMark =>
      obtain ⟨_, emitting⟩ := exists_of_label ran
      cases emitting
      exact .ifElseMark _
  | ifThen =>
      obtain ⟨_, emitting⟩ := exists_of_label ran
      cases emitting
      exact .ifThen _
  | ifElse =>
      obtain ⟨_, emitting⟩ := exists_of_label ran
      cases emitting
      exact .ifElse _
  | loopEnter =>
      cases ran
      exact .loopEnter
  | loopTest =>
      obtain ⟨_, reading⟩ := exists_of_loop ran
      obtain ⟨_, _, emitting⟩ := exists_of_place reading
      cases emitting
      exact .loopTest _ _
  | whileLoop =>
      obtain ⟨_, emitting⟩ := exists_of_loop ran
      cases emitting
      exact .whileLoop _ _
  | doWhile =>
      obtain ⟨_, reading⟩ := exists_of_loop ran
      obtain ⟨_, _, emitting⟩ := exists_of_place reading
      cases emitting
      exact .doWhile _ _ _
  | breakLoop =>
      obtain ⟨exit, _, found, emitting⟩ := exists_of_bind ran
      obtain ⟨rfl, outer, inside⟩ := innermostExit_eq_ok found
      cases emitting
      exact .breakLoop exit outer inside
  | scopeEnter =>
      cases ran
      exact .scopeEnter
  | nestedBlock =>
      cases ran
      exact .nestedBlock

section Failures

variable {α β : Type} {allowed : Failure → Prop}

/-- The computation fails in allowed ways only. -/
def Throws (allowed : Failure → Prop) (reduction : Reduction α) : Prop :=
  ∀ translator failure after, reduction translator = .error failure after → allowed failure

theorem throws_pure (value : α) : Throws allowed (pure value) := by
  intro translator failure after ran
  cases ran

theorem throws_throw {failure : Failure} (known : allowed failure) :
    Throws allowed (throw failure : Reduction α) := by
  intro translator other after ran
  cases ran
  exact known

theorem throws_modifyGet (change : Translator → α × Translator) :
    Throws allowed (modifyGet change : Reduction α) := by
  intro translator failure after ran
  cases ran

theorem throws_get : Throws allowed (get : Reduction Translator) := by
  intro translator failure after ran
  cases ran

theorem Throws.bind {first : Reduction α} {second : α → Reduction β} (throws : Throws allowed first)
    (later : ∀ value, Throws allowed (second value)) : Throws allowed (first >>= second) := by
  intro translator failure after ran
  rcases failed_of_bind ran with failed | ⟨value, middle, _, failed⟩
  · exact throws translator failure after failed
  · exact later value middle failure after failed

/-- Why an action fails: one of its slots is not filled, the sizes of an array are at fault, or it
leaves a loop and there is none. -/
inductive Cause (action : Semantic) (stack : List Attribute) : Failure → Prop where
  | unfilled (slot : Slot) (own : slot ∈ action.reads) (unfilled : ¬ slot.Filled stack) :
      Cause action stack (.error (.missingAttribute action))
  | badSize (text : String) : Cause action stack (.error (.badArraySize text))
  | sizeOverflow : Cause action stack .sizeOverflow
  | outsideLoop (leaves : action = .breakLoop) : Cause action stack (.error .breakOutsideLoop)

theorem throws_slot {use : Use} (own : ⟨depth, use⟩ ∈ action.reads) :
    Throws (Cause action stack) (slot action stack depth) := by
  unfold slot
  cases found : stack[depth]? with
  | some held => exact throws_pure held
  | none =>
      refine throws_throw (.unfilled ⟨depth, use⟩ own fun filled => ?_)
      obtain ⟨held, there, _⟩ := filled
      cases found.symm.trans there

/-- What is read in a slot that cannot be read as is asked is as good as missing. -/
theorem Cause.of_refused {use : Use} {held : Attribute} (own : ⟨depth, use⟩ ∈ action.reads)
    (found : stack[depth]? = some held) (refused : use.accepts held = false) :
    Cause action stack (.error (.missingAttribute action)) := by
  refine .unfilled ⟨depth, use⟩ own fun filled => ?_
  obtain ⟨other, there, accepted⟩ := filled
  obtain rfl := Option.some.inj (found.symm.trans there)
  rw [refused] at accepted
  cases accepted

theorem throws_slot_bind {use : Use} (own : ⟨depth, use⟩ ∈ action.reads)
    {next : Attribute → Reduction α}
    (later : ∀ held, stack[depth]? = some held → Throws (Cause action stack) (next held)) :
    Throws (Cause action stack) (slot action stack depth >>= next) := by
  intro translator failure after ran
  rcases failed_of_bind ran with failed | ⟨held, middle, done, failed⟩
  · exact throws_slot own translator failure after failed
  · exact later held (slot_eq_ok done).1 middle failure after failed

theorem throws_arraySize (text : String) : Throws (Cause action stack) (arraySize text) := by
  unfold arraySize
  split
  · exact throws_pure _
  · exact throws_throw (.badSize text)

theorem throws_growSize (size : Nat) : Throws (Cause action stack) (growSize size) := by
  refine throws_get.bind fun translator => ?_
  dsimp only
  split
  · exact throws_pure _
  · split
    · exact throws_pure _
    · exact throws_throw .sizeOverflow

theorem Looks.throws {reduction : Reduction α} (looks : Looks action stack reduction) :
    Throws (Cause action stack) reduction := by
  cases looks with
  | slot depth use own => exact throws_slot own
  | place depth own => exact (throws_slot own).bind fun _ => throws_pure _
  | label depth own =>
      refine throws_slot_bind own fun held found => ?_
      cases held with
      | label _ => exact throws_pure _
      | _ => exact throws_throw (.of_refused own found rfl)
  | loop depth own =>
      refine throws_slot_bind own fun held found => ?_
      cases held with
      | loop _ _ => exact throws_pure _
      | _ => exact throws_throw (.of_refused own found rfl)
  | arraySize text => exact throws_arraySize text
  | growSize size => exact throws_growSize size
  | pendingSize => exact throws_get.bind fun _ => throws_pure _
  | innermostExit leaves =>
      refine throws_get.bind fun translator => ?_
      split
      · exact throws_pure _
      · exact throws_throw (.outsideLoop leaves)

theorem Acts.throws {reduction : Reduction α} (acts : Acts reduction) :
    Throws allowed reduction := by
  induction acts with
  | done value => exact throws_pure value
  | next changes _ ih =>
      obtain ⟨change, rfl⟩ := changes.eq_modifyGet
      exact (throws_modifyGet change).bind ih

theorem Staged.throws {reduction : Reduction α} (staged : Staged action stack reduction) :
    Throws (Cause action stack) reduction := by
  induction staged with
  | looks looks => exact looks.throws
  | acts acts => exact acts.throws
  | next looks _ ih => exact looks.throws.bind ih

theorem cause_of_run {failure : Failure}
    (ran : run action stack pos translator = .error failure after) : Cause action stack failure :=
  (staged_run pos).throws translator failure after ran

/-- The failures that have nothing to do with loops. -/
def Common (failure : Failure) : Prop :=
  failure.OfSize ∨ ∃ action, failure = .error (.missingAttribute action)

end Failures

theorem failure_of_breakLoop {failure : Failure}
    (ran : run .breakLoop stack pos translator = .error failure after) :
    translator.breaks = [] ∧ failure = .error .breakOutsideLoop := by
  obtain ⟨symbols, code, labels, breaks, type, size, name, diagnostics, log⟩ := translator
  cases breaks with
  | nil =>
      cases ran
      exact ⟨rfl, rfl⟩
  | cons exit outer => cases ran

/-- Besides the failures that have nothing to do with loops, there is that of a break which stands in
no open loop. -/
theorem failure_of_run {failure : Failure}
    (ran : run action stack pos translator = .error failure after) :
    Common failure ∨
      action = .breakLoop ∧ translator.breaks = [] ∧ failure = .error .breakOutsideLoop := by
  cases cause_of_run ran with
  | unfilled _ _ _ => exact .inl (.inr ⟨action, rfl⟩)
  | badSize _ => exact .inl (.inl trivial)
  | sizeOverflow => exact .inl (.inl trivial)
  | outsideLoop leaves =>
      subst leaves
      exact .inr ⟨rfl, failure_of_breakLoop ran⟩

end Reduction

end ThreeAddress

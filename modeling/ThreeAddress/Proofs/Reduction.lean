import ThreeAddress.Translator.Basic

/-!
How semantic actions are put together. An action first looks: it reads its slots of the stack and asks
the translator, and each of these can fail. Then it acts: it changes the translator, which cannot
fail. What holds of every look and every change, and of sequences of such, holds of every action.
-/

set_option autoImplicit false

namespace ThreeAddress

/-- What an attribute is read as. An operand can also be a name or a size. -/
inductive Use where
  | operand
  | label
  | loop
deriving Repr, DecidableEq

/-- The attribute can be read as is asked. Only tokens and places have a text to be an operand. -/
def Use.accepts : Use → Attribute → Bool
  | .operand, .token _ _ => true
  | .operand, .place _ => true
  | .label, .label _ => true
  | .loop, .loop _ _ => true
  | _, _ => false

/-- A place of the stack, counted from the top, and what it is read as. -/
structure Slot where
  depth : Nat
  use : Use
deriving Repr, DecidableEq

/-- The slot is there and can be read. -/
def Slot.Filled (stack : List Attribute) (slot : Slot) : Prop :=
  ∃ held, stack[slot.depth]? = some held ∧ slot.use.accepts held = true

/-- The slots that an action reads. -/
def Semantic.reads : Semantic → List Slot
  | .pass => [⟨0, .operand⟩]
  | .paren => [⟨1, .operand⟩]
  | .basicType => [⟨0, .operand⟩]
  | .typeArray => [⟨1, .operand⟩]
  | .decl => [⟨1, .operand⟩]
  | .declArray => [⟨4, .operand⟩, ⟨2, .operand⟩]
  | .locId => [⟨0, .operand⟩]
  | .locIndex => [⟨3, .operand⟩, ⟨1, .operand⟩]
  | .assign => [⟨3, .operand⟩, ⟨1, .operand⟩]
  | .binary _ => [⟨2, .operand⟩, ⟨0, .operand⟩]
  | .unary _ => [⟨0, .operand⟩]
  | .ifTest => [⟨1, .operand⟩]
  | .ifElseMark => [⟨2, .label⟩]
  | .ifThen => [⟨1, .label⟩]
  | .ifElse => [⟨1, .label⟩]
  | .loopTest => [⟨3, .loop⟩, ⟨1, .operand⟩]
  | .whileLoop => [⟨5, .loop⟩]
  | .doWhile => [⟨6, .loop⟩, ⟨2, .operand⟩]
  | .nothing | .breakLoop | .nestedBlock | .loopEnter | .scopeEnter => []

namespace Reduction

variable {α β : Type} {action : Semantic} {stack : List Attribute}

section Sequences

variable {first : Reduction α} {translator middle after : Translator}

theorem bind_of_ok {value : α} (second : α → Reduction β)
    (ran : first translator = .ok value middle) :
    (first >>= second) translator = second value middle := by
  change EStateM.bind first second translator = _
  rw [EStateM.bind, ran]

theorem bind_of_error {failure : Failure} (second : α → Reduction β)
    (failed : first translator = .error failure middle) :
    (first >>= second) translator = .error failure middle := by
  change EStateM.bind first second translator = _
  rw [EStateM.bind, failed]

/-- Where a sequence succeeds, so do its parts. -/
theorem exists_of_bind {second : α → Reduction β} {result : β}
    (ran : (first >>= second) translator = .ok result after) :
    ∃ value middle, first translator = .ok value middle ∧
      second value middle = .ok result after := by
  cases began : first translator with
  | ok value middle => exact ⟨value, middle, rfl, bind_of_ok second began ▸ ran⟩
  | error failure middle =>
      rw [bind_of_error second began] at ran
      cases ran

/-- A sequence fails where its first part does, or its second. -/
theorem failed_of_bind {second : α → Reduction β} {failure : Failure}
    (ran : (first >>= second) translator = .error failure after) :
    first translator = .error failure after ∨
      ∃ value middle, first translator = .ok value middle ∧
        second value middle = .error failure after := by
  cases began : first translator with
  | ok value middle => exact .inr ⟨value, middle, rfl, bind_of_ok second began ▸ ran⟩
  | error thrown middle =>
      rw [bind_of_error second began] at ran
      cases ran
      exact .inl rfl

end Sequences

/-- What an action looks at: its slots, the sizes of an array, and the innermost loop if it leaves
one. -/
inductive Looks (action : Semantic) (stack : List Attribute) : {α : Type} → Reduction α → Prop where
  | slot (depth : Nat) (use : Use) (own : ⟨depth, use⟩ ∈ action.reads) :
      Looks action stack (slot action stack depth)
  | place (depth : Nat) (own : ⟨depth, .operand⟩ ∈ action.reads) :
      Looks action stack (placeAt action stack depth)
  | label (depth : Nat) (own : ⟨depth, .label⟩ ∈ action.reads) :
      Looks action stack (labelAt action stack depth)
  | loop (depth : Nat) (own : ⟨depth, .loop⟩ ∈ action.reads) :
      Looks action stack (loopAt action stack depth)
  | arraySize (text : String) : Looks action stack (arraySize text)
  | growSize (size : Nat) : Looks action stack (growSize size)
  | pendingSize : Looks action stack (do return (← get).pendingSize)
  | innermostExit (leaves : action = .breakLoop) : Looks action stack innermostExit

/-- The single changes that actions make. -/
inductive Changes : {α : Type} → Reduction α → Prop where
  | emit (instruction : Instruction) : Changes (emit instruction)
  | newLabel : Changes newLabel
  | newTemporary : Changes newTemporary
  | declare (name : String) (size pos : Nat) : Changes (declare name size pos)
  | pushBreak (exit : Label) : Changes (pushBreak exit)
  | popBreak : Changes popBreak
  | enterScope : Changes enterScope
  | exitScope : Changes exitScope
  | setPendingType (type : String) : Changes (setPendingType type)
  | setPendingSize (size : Nat) : Changes (setPendingSize size)
  | setLastName (name : String) : Changes (setLastName name)

/-- Changes one after the other, with a value at the end. -/
inductive Acts : {α : Type} → Reduction α → Prop where
  | done {α : Type} (value : α) : Acts (pure value)
  | next {α β : Type} {first : Reduction α} {second : α → Reduction β} (changes : Changes first)
      (later : ∀ value, Acts (second value)) : Acts (first >>= second)

/-- Looks come first and changes last. -/
inductive Staged (action : Semantic) (stack : List Attribute) :
    {α : Type} → Reduction α → Prop where
  | looks {α : Type} {reduction : Reduction α} (looks : Looks action stack reduction) :
      Staged action stack reduction
  | acts {α : Type} {reduction : Reduction α} (acts : Acts reduction) :
      Staged action stack reduction
  | next {α β : Type} {first : Reduction α} {second : α → Reduction β}
      (looks : Looks action stack first) (later : ∀ value, Staged action stack (second value)) :
      Staged action stack (first >>= second)

theorem Changes.eq_modifyGet {reduction : Reduction α} (changes : Changes reduction) :
    ∃ change, reduction = modifyGet change := by
  cases changes <;> exact ⟨_, rfl⟩

/-- Each action looks before it acts, and reads no slots but its own. -/
theorem staged_run (pos : Nat) : Staged action stack (run action stack pos) := by
  cases action with
  | nothing => exact .acts (.done _)
  | pass => exact .looks (.slot 0 .operand List.mem_cons_self)
  | paren => exact .looks (.slot 1 .operand List.mem_cons_self)
  | basicType =>
      exact .next (.place 0 List.mem_cons_self) fun name =>
        .acts (.next (.setPendingType name) fun _ => .done _)
  | typeArray =>
      refine .next (.place 1 List.mem_cons_self) fun text => ?_
      refine .next (.arraySize text) fun size => .next (.growSize size) fun grown => ?_
      exact .acts (.next (.setPendingSize grown) fun _ => .done _)
  | decl =>
      refine .next (.slot 1 .operand List.mem_cons_self) fun name => ?_
      -- Of the translator that the action asks for, it reads no more than the pending size.
      change Staged .decl stack ((do return (← get).pendingSize) >>= fun size => do
        declare name.placeText size (name.start?.getD pos)
        return Attribute.none)
      exact .next .pendingSize fun size => .acts (.next (.declare _ _ _) fun _ => .done _)
  | declArray =>
      refine .next (.slot 4 .operand List.mem_cons_self) fun name => ?_
      refine .next (.place 2 (List.mem_cons_of_mem _ List.mem_cons_self)) fun text => ?_
      refine .next (.arraySize text) fun size => .next (.growSize size) fun grown => ?_
      exact .acts (.next (.declare _ _ _) fun _ => .done _)
  | locId =>
      exact .next (.place 0 List.mem_cons_self) fun name =>
        .acts (.next (.setLastName name) fun _ => .done _)
  | locIndex =>
      refine .next (.place 3 List.mem_cons_self) fun base => ?_
      exact .next (.place 1 (List.mem_cons_of_mem _ List.mem_cons_self)) fun index => .acts (.done _)
  | assign =>
      refine .next (.place 3 List.mem_cons_self) fun dst => ?_
      refine .next (.place 1 (List.mem_cons_of_mem _ List.mem_cons_self)) fun src => ?_
      exact .acts (.next (.emit _) fun _ => .done _)
  | binary op =>
      refine .next (.place 2 List.mem_cons_self) fun lhs => ?_
      refine .next (.place 0 (List.mem_cons_of_mem _ List.mem_cons_self)) fun rhs => ?_
      exact .acts (.next .newTemporary fun dst => .next (.emit _) fun _ => .done _)
  | unary op =>
      refine .next (.place 0 List.mem_cons_self) fun src => ?_
      exact .acts (.next .newTemporary fun dst => .next (.emit _) fun _ => .done _)
  | ifTest =>
      refine .next (.place 1 List.mem_cons_self) fun cond => ?_
      exact .acts (.next .newLabel fun otherwise => .next (.emit _) fun _ => .done _)
  | ifElseMark =>
      refine .next (.label 2 List.mem_cons_self) fun otherwise => ?_
      refine .acts (.next .newLabel fun finish => ?_)
      exact .next (.emit _) fun _ => .next (.emit _) fun _ => .done _
  | ifThen =>
      refine .next (.label 1 List.mem_cons_self) fun label => ?_
      exact .acts (.next (.emit _) fun _ => .done _)
  | ifElse =>
      refine .next (.label 1 List.mem_cons_self) fun label => ?_
      exact .acts (.next (.emit _) fun _ => .done _)
  | loopEnter =>
      refine .acts (.next .newLabel fun start => .next .newLabel fun exit => ?_)
      exact .next (.emit _) fun _ => .next (.pushBreak exit) fun _ => .done _
  | loopTest =>
      refine .next (.loop 3 List.mem_cons_self) fun both => ?_
      refine .next (.place 1 (List.mem_cons_of_mem _ List.mem_cons_self)) fun cond => ?_
      exact .acts (.next (.emit _) fun _ => .done _)
  | whileLoop =>
      refine .next (.loop 5 List.mem_cons_self) fun both => ?_
      refine .acts (.next (.emit _) fun _ => .next (.emit _) fun _ => ?_)
      exact .next .popBreak fun _ => .done _
  | doWhile =>
      refine .next (.loop 6 List.mem_cons_self) fun both => ?_
      refine .next (.place 2 (List.mem_cons_of_mem _ List.mem_cons_self)) fun cond => ?_
      refine .acts (.next (.emit _) fun _ => .next (.emit _) fun _ => ?_)
      exact .next .popBreak fun _ => .done _
  | breakLoop => exact .next (.innermostExit rfl) fun _ => .acts (.next (.emit _) fun _ => .done _)
  | scopeEnter => exact .acts (.next .enterScope fun _ => .done _)
  | nestedBlock => exact .acts (.next .exitScope fun _ => .done _)

end Reduction

end ThreeAddress

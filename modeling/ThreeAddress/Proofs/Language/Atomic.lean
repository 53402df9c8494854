import ThreeAddress.Proofs.Language.Inversion
import ThreeAddress.Proofs.Run.Step
import ThreeAddress.Proofs.SymbolTable

/-!
Semantic actions do all they can fail at before they change anything: a failed action leaves the
translator as it was, on every stack of attributes. One that succeeds only adds to the code and to the
diagnostics, and never takes a label or a temporary back.
-/

set_option autoImplicit false

namespace ThreeAddress

/-- What only grows from one translator to a later one. -/
structure Translator.Grows (before after : Translator) : Prop where
  code : before.code.toList <+: after.code.toList
  diagnostics : before.diagnostics.toList <+: after.diagnostics.toList
  labels : before.labels ≤ after.labels
  temporaries : before.symbols.temporaries ≤ after.symbols.temporaries

namespace Translator.Grows

variable {before middle after : Translator}

theorem refl (translator : Translator) : translator.Grows translator :=
  ⟨List.prefix_rfl, List.prefix_rfl, Nat.le_refl _, Nat.le_refl _⟩

theorem trans (first : before.Grows middle) (second : middle.Grows after) : before.Grows after :=
  ⟨first.code.trans second.code, first.diagnostics.trans second.diagnostics,
    Nat.le_trans first.labels second.labels, Nat.le_trans first.temporaries second.temporaries⟩

theorem append (grows : before.Grows after) (instruction : Instruction) :
    before.Grows (after.append instruction) := by
  refine ⟨grows.code.trans ?_, grows.diagnostics, grows.labels, grows.temporaries⟩
  exact ⟨[instruction], Array.toList_push.symm⟩

theorem addLabel (grows : before.Grows after) : before.Grows after.addLabel.2 :=
  ⟨grows.code, grows.diagnostics, Nat.le_succ_of_le grows.labels, grows.temporaries⟩

theorem fresh (grows : before.Grows after) :
    before.Grows { after with symbols := after.symbols.fresh.2 } :=
  ⟨grows.code, grows.diagnostics, grows.labels, Nat.le_succ_of_le grows.temporaries⟩

theorem setBreaks (grows : before.Grows after) (breaks : List Label) :
    before.Grows { after with breaks } :=
  ⟨grows.code, grows.diagnostics, grows.labels, grows.temporaries⟩

theorem exit (grows : before.Grows after) :
    before.Grows { after with symbols := after.symbols.exit } :=
  ⟨grows.code, grows.diagnostics, grows.labels,
    Nat.le_trans grows.temporaries (Nat.le_of_eq after.symbols.exit_temporaries.symm)⟩

/-- A new name takes a temporary, and a repeated one adds a diagnostic. -/
theorem declare (grows : before.Grows after) (name : String) (size pos : Nat) :
    before.Grows (after.declare name size pos) := by
  unfold Translator.declare SymbolTable.defineData SymbolTable.insert
  cases after.symbols.lookup name with
  | none =>
      exact ⟨grows.code, grows.diagnostics, grows.labels, Nat.le_succ_of_le grows.temporaries⟩
  | some holder =>
      refine ⟨grows.code, grows.diagnostics.trans ?_, grows.labels, grows.temporaries⟩
      exact ⟨[⟨⟨name, holder.scope⟩, pos⟩], Array.toList_push.symm⟩

end Translator.Grows

namespace Reduction

variable {action : Semantic} {stack : List Attribute} {pos : Nat} {translator after : Translator}
  {head : Attribute}

theorem Leaves.grows (leaves : Leaves stack pos translator action head after) :
    translator.Grows after := by
  have same := Translator.Grows.refl translator
  cases leaves with
  | decl _ _ => exact same.declare _ _ _
  | declArray _ _ _ => exact same.declare _ _ _
  | assign _ _ => exact same.append _
  | binary _ _ _ => exact same.fresh.append _
  | unary _ _ => exact same.fresh.append _
  | ifTest _ => exact same.addLabel.append _
  | ifElseMark _ => exact (same.addLabel.append _).append _
  | ifThen _ => exact same.append _
  | ifElse _ => exact same.append _
  | loopEnter => exact (same.addLabel.addLabel.append _).setBreaks _
  | loopTest _ _ => exact same.append _
  | whileLoop _ _ => exact ((same.append _).append _).setBreaks _
  | doWhile _ _ _ => exact ((same.append _).append _).setBreaks _
  | breakLoop _ _ _ => exact same.append _
  | nestedBlock => exact same.exit
  | _ => exact ⟨same.code, same.diagnostics, same.labels, same.temporaries⟩

section Atomic

variable {α β : Type}

/-- Where the computation fails, the translator is as it was. -/
def Atomic (reduction : Reduction α) : Prop :=
  ∀ translator failure after, reduction translator = .error failure after → after = translator

/-- The computation only looks at the translator, whether it succeeds or not. -/
structure Observes (reduction : Reduction α) : Prop where
  atomic : Atomic reduction
  unchanged : ∀ translator value after, reduction translator = .ok value after → after = translator

theorem Atomic.of_throws {reduction : Reduction α} (never : Throws (fun _ => False) reduction) :
    Atomic reduction :=
  fun translator failure after ran => (never translator failure after ran).elim

/-- What fails can stand behind what only looks, but not behind a change. -/
theorem Observes.atomic_bind {first : Reduction α} {second : α → Reduction β}
    (observes : Observes first) (later : ∀ value, Atomic (second value)) :
    Atomic (first >>= second) := by
  intro translator failure after ran
  rcases failed_of_bind ran with failed | ⟨value, middle, done, failed⟩
  · exact observes.atomic translator failure after failed
  · obtain rfl := observes.unchanged translator value middle done
    exact later value middle failure after failed

theorem Observes.bind {first : Reduction α} {second : α → Reduction β} (observes : Observes first)
    (later : ∀ value, Observes (second value)) : Observes (first >>= second) where
  atomic := observes.atomic_bind fun value => (later value).atomic
  unchanged := by
    intro translator value after ran
    obtain ⟨found, middle, done, rest⟩ := exists_of_bind ran
    obtain rfl := observes.unchanged translator found middle done
    exact (later found).unchanged middle value after rest

theorem observes_pure (value : α) : Observes (pure value) where
  atomic := .of_throws (throws_pure value)
  unchanged := by
    intro translator found after ran
    cases ran
    rfl

theorem observes_throw (failure : Failure) : Observes (throw failure : Reduction α) where
  atomic := by
    intro translator thrown after ran
    cases ran
    rfl
  unchanged := by
    intro translator value after ran
    cases ran

theorem observes_get : Observes (get : Reduction Translator) where
  atomic := .of_throws throws_get
  unchanged := by
    intro translator value after ran
    cases ran
    rfl

theorem observes_slot (action : Semantic) (stack : List Attribute) (depth : Nat) :
    Observes (slot action stack depth) := by
  unfold slot
  split
  · exact observes_pure _
  · exact observes_throw _

theorem observes_placeAt (action : Semantic) (stack : List Attribute) (depth : Nat) :
    Observes (placeAt action stack depth) :=
  (observes_slot action stack depth).bind fun _ => observes_pure _

theorem observes_labelAt (action : Semantic) (stack : List Attribute) (depth : Nat) :
    Observes (labelAt action stack depth) := by
  refine (observes_slot action stack depth).bind fun held => ?_
  split
  · exact observes_pure _
  · exact observes_throw _

theorem observes_loopAt (action : Semantic) (stack : List Attribute) (depth : Nat) :
    Observes (loopAt action stack depth) := by
  refine (observes_slot action stack depth).bind fun held => ?_
  split
  · exact observes_pure _
  · exact observes_throw _

theorem observes_arraySize (text : String) : Observes (arraySize text) := by
  unfold arraySize
  split
  · exact observes_pure _
  · exact observes_throw _

theorem observes_growSize (size : Nat) : Observes (growSize size) := by
  refine observes_get.bind fun translator => ?_
  dsimp only
  split
  · exact observes_pure _
  · split
    · exact observes_pure _
    · exact observes_throw _

theorem observes_innermostExit : Observes innermostExit := by
  refine observes_get.bind fun translator => ?_
  split
  · exact observes_pure _
  · exact observes_throw _

theorem Looks.observes {reduction : Reduction α} (looks : Looks action stack reduction) :
    Observes reduction := by
  cases looks with
  | slot depth _ _ => exact observes_slot action stack depth
  | place depth _ => exact observes_placeAt action stack depth
  | label depth _ => exact observes_labelAt action stack depth
  | loop depth _ => exact observes_loopAt action stack depth
  | arraySize text => exact observes_arraySize text
  | growSize size => exact observes_growSize size
  | pendingSize => exact observes_get.bind fun _ => observes_pure _
  | innermostExit _ => exact observes_innermostExit

theorem Staged.atomic {reduction : Reduction α} (staged : Staged action stack reduction) :
    Atomic reduction := by
  induction staged with
  | looks looks => exact looks.observes.atomic
  | acts acts => exact .of_throws acts.throws
  | next looks _ ih => exact looks.observes.atomic_bind ih

end Atomic

/-- An action fails without a trace, or it adds to what was there. -/
theorem run_unchanged_or_grows (action : Semantic) (stack : List Attribute) (pos : Nat)
    (translator : Translator) :
    match run action stack pos translator with
    | .error _ after => after = translator
    | .ok _ after => translator.Grows after := by
  cases ran : run action stack pos translator with
  | error failure after => exact (staged_run pos).atomic translator failure after ran
  | ok head after => exact (leaves_of_run ran).grows

end Reduction

namespace Config

variable {table : ParseTable} {actions : Array Semantic} {config : Config}

theorem Moves.grows {next : Config} (moves : Moves table actions config next) :
    config.translator.Grows next.translator := by
  have same := Translator.Grows.refl config.translator
  cases moves with
  | shift state lookahead input asked fetched =>
      exact ⟨same.code, same.diagnostics, same.labels, same.temporaries⟩
  | reduce index production head translator target asked found ran enters =>
      obtain ⟨code, diagnostics, labels, temporaries⟩ := (Reduction.leaves_of_run ran).grows
      exact ⟨code, diagnostics, labels, temporaries⟩

/-- Nothing that a run has emitted or reported is taken back. -/
theorem Reaches.grows {last : Config} (reaches : Reaches table actions config last) :
    config.translator.Grows last.translator := by
  induction reaches with
  | refl config => exact .refl config.translator
  | step config next _ moves _ ih => exact moves.grows.trans ih

end Config

end ThreeAddress

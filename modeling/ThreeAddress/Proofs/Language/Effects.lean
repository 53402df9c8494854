import ThreeAddress.Proofs.Meaning.Emit
import ThreeAddress.Proofs.Trace

/-!
What semantic actions do to the translator: the code they append, the labels and temporaries they
take, and the loops they open and close.
-/

set_option autoImplicit false

namespace ThreeAddress

/-- What the translator hands out next. -/
def Translator.supply (translator : Translator) : Supply where
  labels := translator.labels
  temporaries := translator.symbols.temporaries
  depth := translator.symbols.depth
  names := translator.symbols.entries.map fun entry => (entry.name, entry.scope)

/-- The code that the translator has emitted so far, what it hands out next, and the exits of the
open loops. -/
structure Translator.Holds (translator : Translator) (code : List Instruction) (supply : Supply)
    (breaks : List Label) : Prop where
  code_eq : translator.code.toList = code
  supply_eq : translator.supply = supply
  breaks_eq : translator.breaks = breaks

namespace Translator.Holds

variable {translator : Translator} {code : List Instruction} {supply : Supply}
  {breaks : List Label}

theorem relogged (holds : translator.Holds code supply breaks) (log : Array Event) :
    { translator with log }.Holds code supply breaks :=
  ⟨holds.code_eq, holds.supply_eq, holds.breaks_eq⟩

theorem append (holds : translator.Holds code supply breaks) (instruction : Instruction) :
    (translator.append instruction).Holds (code ++ [instruction]) supply breaks := by
  refine ⟨?_, holds.supply_eq, holds.breaks_eq⟩
  rw [← holds.code_eq]
  exact Array.toList_push

theorem fresh (holds : translator.Holds code supply breaks) :
    { translator with symbols := translator.symbols.fresh.2 }.Holds code (supply.spend 1) breaks :=
  ⟨holds.code_eq, congrArg (Supply.spend 1) holds.supply_eq, holds.breaks_eq⟩

theorem addLabel (holds : translator.Holds code supply breaks) :
    translator.addLabel.2.Holds code (supply.mark 1) breaks :=
  ⟨holds.code_eq, congrArg (Supply.mark 1) holds.supply_eq, holds.breaks_eq⟩

theorem enter (holds : translator.Holds code supply breaks) :
    { translator with symbols := translator.symbols.enter }.Holds code supply.enter breaks :=
  ⟨holds.code_eq, congrArg Supply.enter holds.supply_eq, holds.breaks_eq⟩

theorem exit (holds : translator.Holds code supply breaks) :
    { translator with symbols := translator.symbols.exit }.Holds code supply.exit breaks := by
  refine ⟨holds.code_eq, ?_, holds.breaks_eq⟩
  rw [← holds.supply_eq]
  unfold Translator.supply SymbolTable.exit Supply.exit
  dsimp only
  split
  · rfl
  · rw [List.filter_map]
    rfl

theorem setBreaks (holds : translator.Holds code supply breaks) (inner : List Label) :
    { translator with breaks := inner }.Holds code supply inner :=
  ⟨holds.code_eq, holds.supply_eq, rfl⟩

/-- A declaration takes a temporary if its name is new. -/
theorem declare (holds : translator.Holds code supply breaks) (name : String) (size pos : Nat) :
    (translator.declare name size pos).Holds code (supply.declare name) breaks := by
  have known : (supply.names.any fun known => known.1 == name) =
      (translator.symbols.lookup name).isSome := by
    rw [← holds.supply_eq, Translator.supply, List.any_map, SymbolTable.lookup, List.isSome_find?]
    rfl
  unfold Translator.declare Supply.declare SymbolTable.defineData SymbolTable.insert
  rw [known]
  cases found : translator.symbols.lookup name with
  | some holder => exact ⟨holds.code_eq, holds.supply_eq, holds.breaks_eq⟩
  | none =>
      refine ⟨holds.code_eq, ?_, holds.breaks_eq⟩
      simp [← holds.supply_eq, Translator.supply, SymbolTable.fresh]

end Translator.Holds

namespace Reduction

variable {α : Type} {translator after : Translator} {head : Attribute} {pos : Nat}
  {stack : List Attribute} {code : List Instruction} {supply : Supply} {breaks : List Label}

theorem arraySize_eq_ok {text : String} {size : Nat}
    (ran : arraySize text translator = .ok size after) : after = translator := by
  unfold arraySize at ran
  cases known : Text.readWord text with
  | none =>
      rw [known] at ran
      cases ran
  | some value =>
      rw [known] at ran
      cases ran
      rfl

theorem growSize_eq_ok {size grown : Nat} (ran : growSize size translator = .ok grown after) :
    after = translator := by
  obtain ⟨_, _, got, growing⟩ := exists_of_bind ran
  cases got
  dsimp only at growing
  split at growing
  · cases growing
    rfl
  · split at growing
    · cases growing
      rfl
    · cases growing

/-- To read a dimension and to multiply it changes nothing yet. -/
theorem exists_of_sizing {text : String} {next : Nat → Reduction α} {result : α}
    (ran : (arraySize text >>= fun size => growSize size >>= next) translator = .ok result after) :
    ∃ size, next size translator = .ok result after := by
  obtain ⟨_, _, sized, growing⟩ := exists_of_bind ran
  obtain rfl := arraySize_eq_ok sized
  obtain ⟨size, _, grown, rest⟩ := exists_of_bind growing
  obtain rfl := growSize_eq_ok grown
  exact ⟨size, rest⟩

theorem innermostExit_eq_ok {exit : Label} (ran : innermostExit translator = .ok exit after) :
    after = translator ∧ ∃ rest, translator.breaks = exit :: rest := by
  obtain ⟨_, _, got, leaving⟩ := exists_of_bind ran
  cases got
  cases found : translator.breaks with
  | nil =>
      rw [found] at leaving
      cases leaving
  | cons innermost rest =>
      rw [found] at leaving
      cases leaving
      exact ⟨rfl, rest, rfl⟩

theorem run_nothing (holds : translator.Holds code supply breaks)
    (ran : run .nothing stack pos translator = .ok head after) : after.Holds code supply breaks := by
  cases ran
  exact holds

theorem run_pass {child : Attribute} (holds : translator.Holds code supply breaks)
    (ran : run .pass (child :: stack) pos translator = .ok head after) :
    head = child ∧ after.Holds code supply breaks := by
  cases ran
  exact ⟨rfl, holds⟩

theorem run_paren {last child : Attribute} (holds : translator.Holds code supply breaks)
    (ran : run .paren (last :: child :: stack) pos translator = .ok head after) :
    head = child ∧ after.Holds code supply breaks := by
  cases ran
  exact ⟨rfl, holds⟩

theorem run_locId {name : Attribute} (holds : translator.Holds code supply breaks)
    (ran : run .locId (name :: stack) pos translator = .ok head after) :
    head = .place name.placeText ∧ after.Holds code supply breaks := by
  cases ran
  exact ⟨rfl, holds.code_eq, holds.supply_eq, holds.breaks_eq⟩

theorem run_locIndex {last size mid base : Attribute} (holds : translator.Holds code supply breaks)
    (ran : run .locIndex (last :: size :: mid :: base :: stack) pos translator = .ok head after) :
    head = .place (base.placeText ++ "[" ++ size.placeText ++ "]") ∧
      after.Holds code supply breaks := by
  cases ran
  exact ⟨rfl, holds⟩

theorem run_basicType {name : Attribute} (holds : translator.Holds code supply breaks)
    (ran : run .basicType (name :: stack) pos translator = .ok head after) :
    after.Holds code supply breaks := by
  cases ran
  exact ⟨holds.code_eq, holds.supply_eq, holds.breaks_eq⟩

theorem run_typeArray {last size : Attribute} (holds : translator.Holds code supply breaks)
    (ran : run .typeArray (last :: size :: stack) pos translator = .ok head after) :
    after.Holds code supply breaks := by
  obtain ⟨_, _, read, sizing⟩ := exists_of_bind ran
  cases read
  obtain ⟨_, setting⟩ := exists_of_sizing sizing
  cases setting
  exact ⟨holds.code_eq, holds.supply_eq, holds.breaks_eq⟩

theorem run_decl {last name : Attribute} (holds : translator.Holds code supply breaks)
    (ran : run .decl (last :: name :: stack) pos translator = .ok head after) :
    after.Holds code (supply.declare name.placeText) breaks := by
  cases ran
  exact holds.declare _ _ _

theorem run_declArray {a b size d name : Attribute} (holds : translator.Holds code supply breaks)
    (ran : run .declArray (a :: b :: size :: d :: name :: stack) pos translator = .ok head after) :
    after.Holds code (supply.declare name.placeText) breaks := by
  obtain ⟨_, _, found, reading⟩ := exists_of_bind ran
  cases found
  obtain ⟨_, _, read, sizing⟩ := exists_of_bind reading
  cases read
  obtain ⟨_, declaring⟩ := exists_of_sizing sizing
  cases declaring
  exact holds.declare _ _ _

theorem run_scopeEnter (holds : translator.Holds code supply breaks)
    (ran : run .scopeEnter stack pos translator = .ok head after) :
    after.Holds code supply.enter breaks := by
  cases ran
  exact holds.enter

theorem run_nestedBlock (holds : translator.Holds code supply breaks)
    (ran : run .nestedBlock stack pos translator = .ok head after) :
    after.Holds code supply.exit breaks := by
  cases ran
  exact holds.exit

theorem run_binary {op : BinaryOp} {right mid left : Attribute}
    (holds : translator.Holds code supply breaks)
    (ran : run (.binary op) (right :: mid :: left :: stack) pos translator = .ok head after) :
    head = .place (temporary supply.temporaries) ∧
      after.Holds
        (code ++ [.binary (temporary supply.temporaries) op left.placeText right.placeText])
        (supply.spend 1) breaks := by
  obtain rfl := holds.supply_eq
  cases ran
  exact ⟨rfl, holds.fresh.append _⟩

theorem run_unary {op : UnaryOp} {operand : Attribute} (holds : translator.Holds code supply breaks)
    (ran : run (.unary op) (operand :: stack) pos translator = .ok head after) :
    head = .place (temporary supply.temporaries) ∧
      after.Holds (code ++ [.unary (temporary supply.temporaries) op operand.placeText])
        (supply.spend 1) breaks := by
  obtain rfl := holds.supply_eq
  cases ran
  exact ⟨rfl, holds.fresh.append _⟩

theorem run_assign {last value mid place : Attribute} (holds : translator.Holds code supply breaks)
    (ran : run .assign (last :: value :: mid :: place :: stack) pos translator = .ok head after) :
    after.Holds (code ++ [.copy place.placeText value.placeText]) supply breaks := by
  cases ran
  exact holds.append _

theorem run_ifTest {last cond : Attribute} (holds : translator.Holds code supply breaks)
    (ran : run .ifTest (last :: cond :: stack) pos translator = .ok head after) :
    head = .label ⟨supply.labels⟩ ∧
      after.Holds (code ++ [.ifFalse cond.placeText ⟨supply.labels⟩]) (supply.mark 1) breaks := by
  obtain rfl := holds.supply_eq
  cases ran
  exact ⟨rfl, holds.addLabel.append _⟩

theorem run_ifElseMark {last mid : Attribute} {otherwise : Label}
    (holds : translator.Holds code supply breaks)
    (ran : run .ifElseMark (last :: mid :: .label otherwise :: stack) pos translator =
      .ok head after) :
    head = .label ⟨supply.labels⟩ ∧
      after.Holds (code ++ [.goto ⟨supply.labels⟩] ++ [.label otherwise]) (supply.mark 1) breaks := by
  obtain rfl := holds.supply_eq
  cases ran
  exact ⟨rfl, (holds.addLabel.append _).append _⟩

theorem run_ifThen {last : Attribute} {label : Label} (holds : translator.Holds code supply breaks)
    (ran : run .ifThen (last :: .label label :: stack) pos translator = .ok head after) :
    after.Holds (code ++ [.label label]) supply breaks := by
  cases ran
  exact holds.append _

theorem run_ifElse {last : Attribute} {label : Label} (holds : translator.Holds code supply breaks)
    (ran : run .ifElse (last :: .label label :: stack) pos translator = .ok head after) :
    after.Holds (code ++ [.label label]) supply breaks := by
  cases ran
  exact holds.append _

theorem run_loopEnter (holds : translator.Holds code supply breaks)
    (ran : run .loopEnter stack pos translator = .ok head after) :
    head = .loop ⟨supply.labels⟩ ⟨supply.labels + 1⟩ ∧
      after.Holds (code ++ [.label ⟨supply.labels⟩]) (supply.mark 2)
        (⟨supply.labels + 1⟩ :: breaks) := by
  obtain rfl := holds.supply_eq
  obtain rfl := holds.breaks_eq
  cases ran
  exact ⟨rfl, (holds.addLabel.addLabel.append _).setBreaks _⟩

theorem run_loopTest {last cond mid : Attribute} {start exit : Label}
    (holds : translator.Holds code supply breaks)
    (ran : run .loopTest (last :: cond :: mid :: .loop start exit :: stack) pos translator =
      .ok head after) :
    after.Holds (code ++ [.ifFalse cond.placeText exit]) supply breaks := by
  cases ran
  exact holds.append _

theorem run_whileLoop {a b c d e : Attribute} {start exit inner : Label}
    (holds : translator.Holds code supply (inner :: breaks))
    (ran : run .whileLoop (a :: b :: c :: d :: e :: .loop start exit :: stack) pos translator =
      .ok head after) :
    after.Holds (code ++ [.goto start] ++ [.label exit]) supply breaks := by
  obtain rfl : translator.breaks.tail = breaks := by rw [holds.breaks_eq, List.tail_cons]
  cases ran
  exact ((holds.append _).append _).setBreaks _

theorem run_doWhile {a b cond d e f : Attribute} {start exit inner : Label}
    (holds : translator.Holds code supply (inner :: breaks))
    (ran : run .doWhile (a :: b :: cond :: d :: e :: f :: .loop start exit :: stack) pos translator =
      .ok head after) :
    after.Holds (code ++ [.ifTrue cond.placeText start] ++ [.label exit]) supply breaks := by
  obtain rfl : translator.breaks.tail = breaks := by rw [holds.breaks_eq, List.tail_cons]
  cases ran
  exact ((holds.append _).append _).setBreaks _

/-- A break is translated inside a loop only. -/
theorem run_breakLoop (holds : translator.Holds code supply breaks)
    (ran : run .breakLoop stack pos translator = .ok head after) :
    ∃ exit rest, breaks = exit :: rest ∧ after.Holds (code ++ [.goto exit]) supply breaks := by
  obtain ⟨exit, _, found, emitting⟩ := exists_of_bind ran
  obtain ⟨rfl, rest, innermost⟩ := innermostExit_eq_ok found
  cases emitting
  exact ⟨exit, rest, holds.breaks_eq ▸ innermost, holds.append _⟩

end Reduction

end ThreeAddress

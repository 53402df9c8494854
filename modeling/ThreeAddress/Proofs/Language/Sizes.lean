import Mathlib.Algebra.BigOperators.Ring.List
import Mathlib.Algebra.GroupWithZero.Nat
import Mathlib.Data.List.Infix
import ThreeAddress.Proofs.Reduction

/-!
The size of a declared array, from its dimensions. A pending size of zero stands for no dimension
yet, so a zero is forgotten as soon as another dimension follows it: the size is the product of the
dimensions after the last such zero.
-/

set_option autoImplicit false

namespace ThreeAddress

namespace Dimensions

/-- The dimensions that count: all from the end back to a zero with a dimension after it. -/
def counted : List Nat → List Nat
  | [] => []
  | first :: rest => if 0 ∈ (first :: rest).dropLast then counted rest else first :: rest

/-- The size fits in a word, and so did every pending size before it. -/
def Fits (sizes : List Nat) : Prop :=
  ∀ before, before <+: sizes → (counted before).prod < Text.wordLimit

instance (sizes : List Nat) : Decidable (Fits sizes) :=
  decidable_of_iff (∀ before ∈ sizes.inits, (counted before).prod < Text.wordLimit) <| by
    simp [Fits]

/-- All texts are numerals of words, with these values. -/
def Reads (texts : List String) (sizes : List Nat) : Prop :=
  texts.map Text.readWord = sizes.map some

section Counted

theorem counted_eq_self {sizes : List Nat} (nonzero : 0 ∉ sizes.dropLast) :
    counted sizes = sizes := by
  cases sizes with
  | nil => rfl
  | cons first rest => rw [counted, if_neg nonzero]

theorem counted_cons_cons (first second : Nat) (rest : List Nat) :
    counted (first :: second :: rest) =
      if first = 0 ∨ 0 ∈ (second :: rest).dropLast then counted (second :: rest)
      else first :: second :: rest := by
  rw [counted]
  simp only [List.dropLast_cons_cons, List.mem_cons, eq_comm]

theorem zero_notMem_dropLast_counted (sizes : List Nat) : 0 ∉ (counted sizes).dropLast := by
  induction sizes with
  | nil => simp [counted]
  | cons first rest ih =>
      rw [counted]
      split
      · exact ih
      · assumption

theorem getLast?_counted (sizes : List Nat) : (counted sizes).getLast? = sizes.getLast? := by
  induction sizes with
  | nil => rfl
  | cons first rest ih =>
      rw [counted]
      split
      · rename_i zero
        cases rest with
        | nil => simp at zero
        | cons second others => rw [ih, List.getLast?_cons_cons]
      · rfl

/-- What counts has a zero only at its end. -/
theorem counted_prod_eq_zero_iff (sizes : List Nat) :
    (counted sizes).prod = 0 ↔ sizes.getLast? = some 0 := by
  rw [List.prod_eq_zero_iff, ← getLast?_counted]
  constructor
  · intro zero
    cases last : (counted sizes).getLast? with
    | none =>
        rw [List.getLast?_eq_none_iff.mp last] at zero
        cases zero
    | some size =>
        rw [← List.dropLast_append_getLast? size last, List.mem_append] at zero
        rcases zero with before | here
        · exact absurd before (zero_notMem_dropLast_counted sizes)
        · rw [List.mem_singleton.mp here]
  · exact List.mem_of_getLast?

/-- A zero takes the whole product with it only if it stands last. -/
theorem counted_prod_eq_iff (sizes : List Nat) :
    (counted sizes).prod = sizes.prod ↔ (0 ∈ sizes → sizes.getLast? = some 0) := by
  by_cases zero : 0 ∈ sizes
  · rw [List.prod_eq_zero_iff.mpr zero, counted_prod_eq_zero_iff]
    simp [zero]
  · rw [counted_eq_self fun inside => zero (List.mem_of_mem_dropLast inside)]
    simp [zero]

/-- Without zeros the products only grow, so it is enough that the last one fits. -/
theorem fits_iff_of_nonzero {sizes : List Nat} (nonzero : 0 ∉ sizes) :
    Fits sizes ↔ sizes.prod < Text.wordLimit := by
  have whole : ∀ {part : List Nat}, 0 ∉ part → counted part = part := fun absent =>
    counted_eq_self fun inside => absent (List.mem_of_mem_dropLast inside)
  constructor
  · intro fits
    have last := fits sizes List.prefix_rfl
    rwa [whole nonzero] at last
  · rintro bound before ⟨after, rfl⟩
    rw [List.mem_append, not_or] at nonzero
    rw [whole nonzero.1]
    rw [List.prod_append] at bound
    have positive : 0 < after.prod := Nat.pos_of_ne_zero (List.prod_ne_zero nonzero.2)
    exact Nat.lt_of_le_of_lt (Nat.le_mul_of_pos_right _ positive) bound

end Counted

section Measure

/-- One more dimension. -/
def grow (pending size : Nat) : Nat :=
  if pending = 0 then size else pending * size

theorem foldl_grow (pending : Nat) {sizes : List Nat} (nonempty : sizes ≠ []) :
    sizes.foldl grow pending =
      if pending = 0 ∨ 0 ∈ sizes.dropLast then (counted sizes).prod else pending * sizes.prod := by
  induction sizes generalizing pending with
  | nil => exact absurd rfl nonempty
  | cons first rest ih =>
      cases rest with
      | nil => simp [grow, counted]
      | cons second others =>
          have inside : 0 ∈ (first :: second :: others).dropLast ↔
              first = 0 ∨ 0 ∈ (second :: others).dropLast := by
            rw [List.dropLast_cons_cons, List.mem_cons, eq_comm]
          -- A zero sets the pending size back to none, and what was pending before it is lost.
          rw [List.foldl_cons, ih _ (List.cons_ne_nil second others)]
          simp only [counted_cons_cons, inside]
          by_cases unset : pending = 0
          · by_cases zero : first = 0
            · simp [grow, unset, zero]
            · simp only [grow, unset, zero, ↓reduceIte, false_or, true_or]
              split
              · rfl
              · rw [List.prod_cons (a := first)]
          · by_cases zero : first = 0
            · simp [grow, unset, zero]
            · simp only [grow, unset, zero, ↓reduceIte, Nat.mul_eq_zero, or_self, false_or]
              split
              · rfl
              · rw [List.prod_cons (a := first), Nat.mul_assoc]

/-- All pending sizes on the way fit. -/
def Bounded (pending : Nat) (sizes : List Nat) : Prop :=
  ∀ before, before <+: sizes → before.foldl grow pending < Text.wordLimit

theorem bounded_cons {pending first : Nat} {rest : List Nat} :
    Bounded pending (first :: rest) ↔
      pending < Text.wordLimit ∧ Bounded (grow pending first) rest := by
  constructor
  · intro bounded
    refine ⟨bounded [] List.nil_prefix, ?_⟩
    intro before isPrefix
    exact bounded (first :: before) (List.cons_prefix_cons.mpr ⟨rfl, isPrefix⟩)
  · rintro ⟨here, later⟩ before isPrefix
    rcases List.prefix_cons_iff.mp isPrefix with rfl | ⟨others, rfl, shorter⟩
    · exact here
    · exact later others shorter

theorem fits_iff_bounded (sizes : List Nat) : Fits sizes ↔ Bounded 0 sizes := by
  have each : ∀ before : List Nat,
      (counted before).prod < Text.wordLimit ↔ before.foldl grow 0 < Text.wordLimit := by
    intro before
    -- Before the first dimension the pending size is zero and the empty product is one: both fit.
    by_cases empty : before = []
    · simp [empty, counted, Text.wordLimit]
    · rw [foldl_grow 0 empty, if_pos (Or.inl rfl)]
  simp only [Fits, Bounded, each]

/-- Reads one more dimension, given the pending size. -/
def measure (pending : Nat) (text : String) : Except Failure Nat :=
  match Text.readWord text with
  | none => .error (.error (.badArraySize text))
  | some size =>
    if grow pending size < Text.wordLimit then .ok (grow pending size) else .error .sizeOverflow

theorem measure_of_readWord {text : String} {size : Nat} (pending : Nat)
    (read : Text.readWord text = some size) :
    measure pending text =
      if grow pending size < Text.wordLimit then .ok (grow pending size)
      else .error .sizeOverflow := by
  rw [measure, read]

theorem measure_of_unreadable {text : String} (pending : Nat)
    (unreadable : Text.readWord text = none) :
    measure pending text = .error (.error (.badArraySize text)) := by
  rw [measure, unreadable]

theorem exists_of_reads_cons {text : String} {texts : List String} {sizes : List Nat}
    (reads : Reads (text :: texts) sizes) :
    ∃ size rest, sizes = size :: rest ∧ Text.readWord text = some size ∧ Reads texts rest := by
  cases sizes with
  | nil => cases reads
  | cons size rest =>
      have both := List.cons_eq_cons.mp reads
      exact ⟨size, rest, rfl, both.1, both.2⟩

theorem foldlM_measure_of_bounded {pending : Nat} {texts : List String} {sizes : List Nat}
    (reads : Reads texts sizes) (bounded : Bounded pending sizes) :
    texts.foldlM measure pending = .ok (sizes.foldl grow pending) := by
  induction texts generalizing pending sizes with
  | nil =>
      cases sizes with
      | nil => rfl
      | cons size rest => cases reads
  | cons text texts ih =>
      obtain ⟨size, rest, rfl, read, reads⟩ := exists_of_reads_cons reads
      have later := (bounded_cons.mp bounded).2
      have here : grow pending size < Text.wordLimit := later [] List.nil_prefix
      rw [List.foldlM_cons, measure_of_readWord pending read, if_pos here]
      exact ih reads later

theorem foldlM_measure_of_unbounded {pending : Nat} {texts : List String} {sizes : List Nat}
    (small : pending < Text.wordLimit) (reads : Reads texts sizes)
    (unbounded : ¬ Bounded pending sizes) :
    texts.foldlM measure pending = .error .sizeOverflow := by
  induction texts generalizing pending sizes with
  | nil =>
      cases sizes with
      | nil =>
          refine absurd ?_ unbounded
          intro before isPrefix
          rwa [List.prefix_nil.mp isPrefix]
      | cons size rest => cases reads
  | cons text texts ih =>
      obtain ⟨size, rest, rfl, read, reads⟩ := exists_of_reads_cons reads
      rw [List.foldlM_cons, measure_of_readWord pending read]
      by_cases here : grow pending size < Text.wordLimit
      · rw [if_pos here]
        exact ih here reads fun later => unbounded (bounded_cons.mpr ⟨small, later⟩)
      · rw [if_neg here]
        rfl

end Measure

end Dimensions

open Dimensions

/-- A dimension in brackets after a type, and the stack and offset of its reduction. -/
structure Bracket where
  text : String
  stack : List Attribute
  pos : Nat
  held : stack[1]?.map Attribute.placeText = some text

/-- The end of a declaration: a name alone, or a name and one more dimension. -/
inductive Declarator where
  | plain (name : Attribute) (stack : List Attribute) (pos : Nat) (named : stack[1]? = some name)
  | sized (name : Attribute) (text : String) (stack : List Attribute) (pos : Nat)
      (named : stack[4]? = some name) (held : stack[2]?.map Attribute.placeText = some text)

namespace Declarator

def name : Declarator → Attribute
  | .plain name .. => name
  | .sized name .. => name

def texts : Declarator → List String
  | .plain .. => []
  | .sized _ text .. => [text]

/-- The offset that the declared name is recorded with. -/
def pos : Declarator → Nat
  | .plain name _ pos _ => name.start?.getD pos
  | .sized name _ _ pos _ _ => name.start?.getD pos

def reduce : Declarator → Reduction Attribute
  | .plain _ stack pos _ => Reduction.run .decl stack pos
  | .sized _ _ stack pos _ _ => Reduction.run .declArray stack pos

end Declarator

/-- The reductions of a declaration after that of its basic type. -/
def Declarator.reduceAfter (declarator : Declarator) : List Bracket → Reduction Attribute
  | [] => declarator.reduce
  | bracket :: rest => do
    let _ ← Reduction.run .typeArray bracket.stack bracket.pos
    declarator.reduceAfter rest

/-- A declaration with at least one dimension. -/
structure ArrayDeclaration where
  brackets : List Bracket
  declarator : Declarator
  sized : brackets.map Bracket.text ++ declarator.texts ≠ []

namespace ArrayDeclaration

/-- The texts of all dimensions, in order. -/
def texts (declaration : ArrayDeclaration) : List String :=
  declaration.brackets.map Bracket.text ++ declaration.declarator.texts

def name (declaration : ArrayDeclaration) : String :=
  declaration.declarator.name.placeText

def reduce (declaration : ArrayDeclaration) : Reduction Attribute :=
  declaration.declarator.reduceAfter declaration.brackets

end ArrayDeclaration

theorem Text.readWord_lt {text : String} {size : Nat} (read : readWord text = some size) :
    size < wordLimit := by
  unfold readWord at read
  extract_lets digits at read
  split at read
  · cases read
  · split at read
    · rename_i small
      rwa [← Option.some.inj read]
    · cases read

namespace Reduction

variable {β : Type}

theorem growSize_eq {size : Nat} (small : size < Text.wordLimit) (translator : Translator) :
    growSize size translator =
      if grow translator.pendingSize size < Text.wordLimit then
        .ok (grow translator.pendingSize size) translator
      else .error .sizeOverflow translator := by
  have body : growSize size translator =
      (if translator.pendingSize = 0 then pure size
        else if translator.pendingSize * size < Text.wordLimit then
          pure (translator.pendingSize * size)
        else throw .sizeOverflow : Reduction Nat) translator := rfl
  rw [body, grow]
  by_cases unset : translator.pendingSize = 0
  · rw [if_pos unset, if_pos unset, if_pos small]
    rfl
  · rw [if_neg unset, if_neg unset]
    split
    · rfl
    · rfl

/-- Reading a dimension leaves the translator as it is. -/
theorem arraySize_growSize (text : String) (translator : Translator) :
    (arraySize text >>= growSize) translator =
      match measure translator.pendingSize text with
      | .ok size => .ok size translator
      | .error failure => .error failure translator := by
  cases read : Text.readWord text with
  | none =>
      rw [measure_of_unreadable _ read, arraySize, read]
      rfl
  | some size =>
      rw [measure_of_readWord _ read, arraySize, read]
      change growSize size translator = _
      rw [growSize_eq (Text.readWord_lt read)]
      split
      · rfl
      · rfl

/-- A computation that reads a dimension and goes on with the size. -/
theorem measured_bind (text : String) (translator : Translator) (next : Nat → Reduction β) :
    (arraySize text >>= growSize >>= next) translator =
      match measure translator.pendingSize text with
      | .ok size => next size translator
      | .error failure => .error failure translator := by
  have read := arraySize_growSize text translator
  cases measured : measure translator.pendingSize text with
  | ok size =>
      rw [measured] at read
      exact bind_of_ok next read
  | error failure =>
      rw [measured] at read
      exact bind_of_error next read

theorem run_typeArray_eq (bracket : Bracket) (translator : Translator) :
    run .typeArray bracket.stack bracket.pos translator =
      match measure translator.pendingSize bracket.text with
      | .ok size => .ok .none { translator with pendingSize := size }
      | .error failure => .error failure translator := by
  obtain ⟨held, found, same⟩ := Option.map_eq_some_iff.mp bracket.held
  have read : placeAt .typeArray bracket.stack 1 = pure bracket.text := by
    simp [placeAt, slot, found, same]
  have body : run .typeArray bracket.stack bracket.pos =
      arraySize bracket.text >>= growSize >>= fun size => do
        setPendingSize size
        return .none := by
    simp only [run, read, pure_bind, bind_assoc]
  rw [body, measured_bind]
  rfl

end Reduction

namespace Declarator

theorem reduce_eq (declarator : Declarator) (translator : Translator) :
    declarator.reduce translator =
      match declarator.texts.foldlM measure translator.pendingSize with
      | .ok size =>
        .ok .none (translator.declare declarator.name.placeText size declarator.pos)
      | .error failure => .error failure translator := by
  cases declarator with
  | plain name stack pos named =>
      have read : Reduction.slot .decl stack 1 = pure name := by
        simp [Reduction.slot, named]
      simp only [reduce, Reduction.run, read, pure_bind]
      rfl
  | sized name text stack pos named held =>
      obtain ⟨size, found, same⟩ := Option.map_eq_some_iff.mp held
      have readName : Reduction.slot .declArray stack 4 = pure name := by
        simp [Reduction.slot, named]
      have readSize : Reduction.placeAt .declArray stack 2 = pure text := by
        simp [Reduction.placeAt, Reduction.slot, found, same]
      have body : Reduction.run .declArray stack pos =
          Reduction.arraySize text >>= Reduction.growSize >>= fun size => do
            Reduction.declare name.placeText size (name.start?.getD pos)
            return .none := by
        simp only [Reduction.run, readName, readSize, pure_bind, bind_assoc]
      simp only [reduce, body, Reduction.measured_bind, texts]
      cases measured : measure translator.pendingSize text with
      | ok size =>
          rw [List.foldlM_cons, measured]
          rfl
      | error failure =>
          rw [List.foldlM_cons, measured]
          rfl

/-- The sizes pending along the way are used up by the declaration, so nothing else of them is left
than its size. -/
theorem reduceAfter_eq (declarator : Declarator) (brackets : List Bracket)
    (translator : Translator) :
    match (brackets.map Bracket.text ++ declarator.texts).foldlM measure
      translator.pendingSize with
    | .ok size =>
      declarator.reduceAfter brackets translator =
        .ok .none (translator.declare declarator.name.placeText size declarator.pos)
    | .error failure =>
      ∃ after, declarator.reduceAfter brackets translator = .error failure after := by
  induction brackets generalizing translator with
  | nil =>
      rw [reduceAfter, reduce_eq, List.map_nil, List.nil_append]
      split
      · rfl
      · exact ⟨_, rfl⟩
  | cons bracket rest ih =>
      rw [List.map_cons, List.cons_append, List.foldlM_cons]
      have ran := Reduction.run_typeArray_eq bracket translator
      cases here : measure translator.pendingSize bracket.text with
      | error failure =>
          rw [here] at ran
          exact ⟨_, Reduction.bind_of_error _ ran⟩
      | ok pending =>
          rw [here] at ran
          rw [reduceAfter, Reduction.bind_of_ok _ ran]
          exact ih { translator with pendingSize := pending }

end Declarator

/-- A name that is new is found with the size that it is declared with. -/
theorem Translator.lookup_declare {translator : Translator} {name : String}
    (absent : translator.symbols.lookup name = none) (size pos : Nat) :
    ∃ entry, (translator.declare name size pos).symbols.lookup name = some entry ∧
      entry.size = size ∧ entry.kind = if size = 0 then .var else .array := by
  have before : translator.symbols.entries.find? (fun entry => entry.name == name) = none := absent
  simp [declare, SymbolTable.defineData, SymbolTable.insert, SymbolTable.fresh,
    SymbolTable.lookup, List.find?_append, before]

namespace ArrayDeclaration

variable {declaration : ArrayDeclaration} {translator : Translator}

theorem reduce_of_fits (unset : translator.pendingSize = 0) {sizes : List Nat}
    (reads : Reads declaration.texts sizes) (fits : Fits sizes) :
    declaration.reduce translator = .ok .none
      (translator.declare declaration.name (counted sizes).prod declaration.declarator.pos) := by
  have nonempty : sizes ≠ [] := by
    rintro rfl
    exact declaration.sized (List.map_eq_nil_iff.mp reads)
  have measured := foldlM_measure_of_bounded reads ((fits_iff_bounded sizes).mp fits)
  rw [foldl_grow 0 nonempty, if_pos (Or.inl rfl)] at measured
  have reduced := declaration.declarator.reduceAfter_eq declaration.brackets translator
  rw [unset, ← texts, measured] at reduced
  exact reduced

theorem reduce_of_error (unset : translator.pendingSize = 0) {failure : Failure}
    (measured : declaration.texts.foldlM measure 0 = .error failure) :
    ∃ after, declaration.reduce translator = .error failure after := by
  have reduced := declaration.declarator.reduceAfter_eq declaration.brackets translator
  rw [unset, ← texts, measured] at reduced
  exact reduced

theorem reduce_of_unfit (unset : translator.pendingSize = 0) {before later : List String}
    {sizes : List Nat} (split : declaration.texts = before ++ later) (reads : Reads before sizes)
    (unfit : ¬ Fits sizes) :
    ∃ after, declaration.reduce translator = .error .sizeOverflow after := by
  apply reduce_of_error unset
  rw [split, List.foldlM_append, foldlM_measure_of_unbounded (by decide) reads
    (fun bounded => unfit ((fits_iff_bounded sizes).mpr bounded))]
  rfl

theorem reduce_of_unreadable (unset : translator.pendingSize = 0) {before later : List String}
    {text : String} {sizes : List Nat} (split : declaration.texts = before ++ text :: later)
    (reads : Reads before sizes) (fits : Fits sizes) (unreadable : Text.readWord text = none) :
    ∃ after, declaration.reduce translator = .error (.error (.badArraySize text)) after := by
  apply reduce_of_error unset
  rw [split, List.foldlM_append,
    foldlM_measure_of_bounded reads ((fits_iff_bounded sizes).mp fits)]
  change (List.foldlM measure (sizes.foldl grow 0) (text :: later)) = _
  rw [List.foldlM_cons, measure_of_unreadable _ unreadable]
  rfl

/-- A declaration whose dimensions are all words gives its name the product of those that count if
all pending sizes fit, and breaks off otherwise. That is the product of all dimensions unless there
is a zero among them and none at the end. The first dimension that is no word is the error if the
pending sizes before it fit. -/
theorem size_exact (declaration : ArrayDeclaration) (translator : Translator)
    (unset : translator.pendingSize = 0) :
    (∀ sizes, Reads declaration.texts sizes →
      (Fits sizes → ∃ after, declaration.reduce translator = .ok .none after ∧
        (translator.symbols.lookup declaration.name = none →
          ∃ entry, after.symbols.lookup declaration.name = some entry ∧
            entry.size = (counted sizes).prod ∧
            entry.kind = if (counted sizes).prod = 0 then .var else .array)) ∧
      (¬ Fits sizes → ∃ after, declaration.reduce translator = .error .sizeOverflow after) ∧
      ((counted sizes).prod = sizes.prod ↔ (0 ∈ sizes → sizes.getLast? = some 0)) ∧
      (0 ∉ sizes → (Fits sizes ↔ sizes.prod < Text.wordLimit))) ∧
    ∀ before text later sizes, declaration.texts = before ++ text :: later →
      Reads before sizes → Text.readWord text = none →
      (Fits sizes → ∃ after,
        declaration.reduce translator = .error (.error (.badArraySize text)) after) ∧
      (¬ Fits sizes → ∃ after, declaration.reduce translator = .error .sizeOverflow after) := by
  constructor
  · intro sizes reads
    refine ⟨?_, ?_, counted_prod_eq_iff sizes, fits_iff_of_nonzero⟩
    · intro fits
      refine ⟨_, reduce_of_fits unset reads fits, ?_⟩
      intro absent
      exact Translator.lookup_declare absent _ _
    · exact reduce_of_unfit unset (List.append_nil _).symm reads
  · intro before text later sizes split reads unreadable
    constructor
    · intro fits
      exact reduce_of_unreadable unset split reads fits unreadable
    · exact reduce_of_unfit unset split reads

/-- The reductions of `int[0][5] a;` after the one of its type. -/
def leadingZero : ArrayDeclaration where
  brackets :=
    [⟨"0", [.token "]" 7, .token "0" 6, .token "[" 5, .none], 8, rfl⟩,
      ⟨"5", [.token "]" 10, .token "5" 9, .token "[" 8, .none], 12, rfl⟩]
  declarator := .plain (.token "a" 12) [.token ";" 13, .token "a" 12, .none] 15 rfl
  sized := by decide

/-- A zero before another dimension is forgotten. -/
theorem size_exact_leadingZero :
    Reads leadingZero.texts [0, 5] ∧ Fits [0, 5] ∧
      ∃ after, leadingZero.reduce {} = .ok .none after ∧
        ∃ entry, after.symbols.lookup "a" = some entry ∧ entry.size = 5 ∧ entry.kind = .array := by
  have reads : Reads leadingZero.texts [0, 5] := rfl
  have fits : Fits [0, 5] := by decide
  obtain ⟨after, reduced, found⟩ := ((size_exact leadingZero {} rfl).1 [0, 5] reads).1 fits
  exact ⟨reads, fits, after, reduced, found rfl⟩

end ArrayDeclaration

end ThreeAddress

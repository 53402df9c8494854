import Mathlib.Data.List.Induction
import ThreeAddress.Proofs.Grammar.Description
import ThreeAddress.Table.Basic

/-!
What the tables hold once they are filled: in each cell the first value written to it, and a conflict
for each other value, in the order in which they were turned away.
-/

set_option autoImplicit false

namespace ThreeAddress

namespace Write

variable {α : Type}

/-- The value that a cell keeps: the first one written to it. -/
def kept? (writes : List (Write α)) (cell : Nat) : Option α :=
  (writes.find? fun write => write.cell == cell).map Write.value

/-- The writes to the cells of a row of the given width. -/
def within (width : Nat) (writes : List (Write α)) : List (Write α) :=
  writes.filter fun write => decide (write.cell < width)

/-- The value of a write is turned away if its cell keeps another one. -/
def clash? [DecidableEq α] (writes : List (Write α)) (write : Write α) : Option (Write (α × α)) :=
  match kept? writes write.cell with
  | none => none
  | some kept => if kept = write.value then none else some ⟨write.cell, (kept, write.value)⟩

/-- The values turned away, each with the one kept in its place. -/
def clashes [DecidableEq α] (writes : List (Write α)) : List (Write (α × α)) :=
  writes.filterMap (clash? writes)

/-- The values turned away, those that are written to a cell more than once being listed once. -/
def rejected [DecidableEq α] (writes : List (Write α)) : List (Write (α × α)) :=
  (clashes writes).eraseDups

variable {writes : List (Write α)} {write : Write α} {cell : Nat} {kept value : α} {width : Nat}

theorem mem_of_kept? (kept : kept? writes cell = some value) : ⟨cell, value⟩ ∈ writes := by
  obtain ⟨write, found, rfl⟩ := Option.map_eq_some_iff.mp kept
  have same : write.cell = cell := by simpa using List.find?_some found
  rw [← same]
  exact List.mem_of_find?_eq_some found

theorem exists_kept? (member : ⟨cell, value⟩ ∈ writes) :
    ∃ kept, kept? writes cell = some kept := by
  have known : (writes.find? fun write => write.cell == cell).isSome :=
    List.find?_isSome.mpr ⟨_, member, beq_iff_eq.mpr rfl⟩
  obtain ⟨write, found⟩ := Option.isSome_iff_exists.mp known
  exact ⟨write.value, by rw [kept?, found, Option.map_some]⟩

theorem kept?_concat (writes : List (Write α)) (write : Write α) (cell : Nat) :
    kept? (writes ++ [write]) cell =
      (kept? writes cell).or (if write.cell = cell then some write.value else none) := by
  rw [kept?, kept?, List.find?_append]
  cases writes.find? fun write => write.cell == cell with
  | some first => rfl
  | none =>
      by_cases same : write.cell = cell
      · simp [same]
      · simp [same]

theorem kept?_within (inside : cell < width) :
    kept? (within width writes) cell = kept? writes cell := by
  rw [kept?, kept?, within, List.find?_filter]
  congr 2
  funext write
  by_cases same : write.cell = cell
  · simp [same, inside]
  · simp [same]

theorem within_eq_self (inside : ∀ write ∈ writes, write.cell < width) :
    within width writes = writes :=
  List.filter_eq_self.mpr fun write member => decide_eq_true (inside write member)

section Clashes

variable [DecidableEq α]

theorem clash?_eq_some_iff : clash? writes write = some ⟨cell, (kept, value)⟩ ↔
    write = ⟨cell, value⟩ ∧ kept? writes cell = some kept ∧ value ≠ kept := by
  obtain ⟨place, written⟩ := write
  rw [clash?]
  cases found : kept? writes place with
  | none =>
      simp only [reduceCtorEq, false_iff, Write.mk.injEq]
      rintro ⟨⟨rfl, _⟩, other, _⟩
      rw [found] at other
      cases other
  | some first =>
      simp only [ite_eq_iff, reduceCtorEq, and_false, false_or, Option.some.injEq, Write.mk.injEq,
        Prod.mk.injEq]
      constructor
      · rintro ⟨apart, rfl, rfl, rfl⟩
        exact ⟨⟨rfl, rfl⟩, found, Ne.symm apart⟩
      · rintro ⟨⟨rfl, rfl⟩, same, apart⟩
        rw [found] at same
        cases same
        exact ⟨Ne.symm apart, rfl, rfl, rfl⟩

theorem mem_clashes : ⟨cell, (kept, value)⟩ ∈ clashes writes ↔
    kept? writes cell = some kept ∧ ⟨cell, value⟩ ∈ writes ∧ value ≠ kept := by
  rw [clashes, List.mem_filterMap]
  constructor
  · rintro ⟨write, member, turned⟩
    obtain ⟨rfl, found, apart⟩ := clash?_eq_some_iff.mp turned
    exact ⟨found, member, apart⟩
  · rintro ⟨found, member, apart⟩
    exact ⟨_, member, clash?_eq_some_iff.mpr ⟨rfl, found, apart⟩⟩

/-- What is turned away was written to a cell that kept something else. -/
theorem mem_rejected : ⟨cell, (kept, value)⟩ ∈ rejected writes ↔
    kept? writes cell = some kept ∧ ⟨cell, value⟩ ∈ writes ∧ value ≠ kept := by
  rw [rejected, List.mem_eraseDups, mem_clashes]

/-- A cell and the value turned away there determine what is kept. -/
theorem eq_of_mem_clashes {first second : Write (α × α)} (one : first ∈ clashes writes)
    (other : second ∈ clashes writes) (cell : first.cell = second.cell)
    (value : first.value.2 = second.value.2) : first = second := by
  obtain ⟨place, kept, turned⟩ := first
  obtain ⟨_, also, _⟩ := second
  cases cell
  cases value
  have same := (mem_clashes.mp one).1.symm.trans (mem_clashes.mp other).1
  cases same
  rfl

/-- A value written last is turned away or not, and what was turned away before it stays. -/
theorem clashes_concat (writes : List (Write α)) (write : Write α) :
    clashes (writes ++ [write]) = clashes writes ++ (clash? writes write).toList := by
  have earlier : ∀ old ∈ writes, clash? (writes ++ [write]) old = clash? writes old := by
    intro old member
    obtain ⟨kept, found⟩ := exists_kept? member
    rw [clash?, clash?, kept?_concat, found, Option.some_or]
  have last : clash? (writes ++ [write]) write = clash? writes write := by
    rw [clash?, clash?, kept?_concat, if_pos rfl]
    cases kept? writes write.cell with
    | none => simp
    | some kept => rfl
  rw [clashes, List.filterMap_append, List.filterMap_congr earlier, ← clashes]
  congr 1
  cases turned : clash? writes write <;> simp [last, turned]

/-- Only a write to a cell of the row can be turned away. -/
theorem clashes_within_concat (width : Nat) (writes : List (Write α)) (write : Write α) :
    clashes (within width (writes ++ [write])) =
      clashes (within width writes) ++
        if write.cell < width then (clash? writes write).toList else [] := by
  have split : within width (writes ++ [write]) =
      within width writes ++ if write.cell < width then [write] else [] := by
    simp [within, List.filter_append, List.filter_cons]
  rw [split]
  by_cases inside : write.cell < width
  · rw [if_pos inside, if_pos inside, clashes_concat, clash?, clash?, kept?_within inside]
  · rw [if_neg inside, if_neg inside, List.append_nil, List.append_nil]

end Clashes

end Write

namespace Cells

variable {α κ : Type} {kind : Cells α κ} {writes : List (Write α)} {write : Write α}

/-- A cell that keeps a value, or is blank. -/
def holding (kind : Cells α κ) : Option α → κ
  | none => kind.blank
  | some kept => kind.full kept

theorem holding_target (kept : Option Nat) : target.holding kept = kept := by
  cases kept <;> rfl

theorem holding_action (kept : Option Action) : action.holding kept = kept.getD .error := by
  cases kept <;> rfl

/-- The row whose cells hold the values that are kept. -/
def row (kind : Cells α κ) (width : Nat) (writes : List (Write α)) : Array κ :=
  (Array.range width).map fun cell => kind.holding (Write.kept? writes cell)

/-- A blank cell holds nothing, and each value that is written can be told from that. -/
structure Holds (kind : Cells α κ) (writes : List (Write α)) : Prop where
  blank : kind.held? kind.blank = none
  full : ∀ write ∈ writes, kind.held? (kind.full write.value) = some write.value

theorem getElem?_row {width : Nat} (cell : Nat) :
    (kind.row width writes)[cell]? =
      if cell < width then some (kind.holding (Write.kept? writes cell)) else none := by
  rw [row, Array.getElem?_map, Array.getElem?_range]
  split <;> rfl

theorem row_nil (kind : Cells α κ) (width : Nat) :
    kind.row width [] = Array.replicate width kind.blank := by
  refine Array.ext_getElem? fun cell => ?_
  rw [getElem?_row, Array.getElem?_replicate]
  rfl

theorem Holds.held?_holding (holds : kind.Holds writes) (cell : Nat) :
    kind.held? (kind.holding (Write.kept? writes cell)) = Write.kept? writes cell := by
  cases found : Write.kept? writes cell with
  | none => exact holds.blank
  | some kept => exact holds.full _ (Write.mem_of_kept? found)

/-- A write to a cell that keeps a value, or to none of the row, leaves the row as it is. -/
theorem row_concat_of_kept {width : Nat}
    (kept : write.cell < width → (Write.kept? writes write.cell).isSome) :
    kind.row width (writes ++ [write]) = kind.row width writes := by
  refine Array.map_congr_left fun cell member => ?_
  have inside : cell < width := Array.mem_range.mp member
  rw [Write.kept?_concat]
  by_cases same : write.cell = cell
  · subst same
    obtain ⟨first, found⟩ := Option.isSome_iff_exists.mp (kept inside)
    rw [found, Option.some_or]
  · rw [if_neg same, Option.or_none]

theorem row_concat_of_blank {width : Nat} (blank : Write.kept? writes write.cell = none) :
    kind.row width (writes ++ [write]) =
      (kind.row width writes).setIfInBounds write.cell (kind.full write.value) := by
  refine Array.ext_getElem? fun cell => ?_
  rw [Array.getElem?_setIfInBounds, getElem?_row, getElem?_row, Write.kept?_concat]
  by_cases same : write.cell = cell
  · subst same
    rw [blank, if_pos rfl, if_pos rfl, row, Array.size_map, Array.size_range]
    rfl
  · rw [if_neg same, if_neg same, Option.or_none]

section Rows

variable [DecidableEq α] {σ : Type} {refuse : σ → Write (α × α) → σ} {width : Nat}

/-- One more value goes to a blank cell, or is turned away from a cell that keeps another one. -/
theorem Holds.write_row (holds : kind.Holds writes) (record : σ) (write : Write α) :
    Row.write kind refuse ⟨kind.row width writes, record⟩ write =
      ⟨kind.row width (writes ++ [write]),
        (if write.cell < width then (Write.clash? writes write).toList else []).foldl refuse
          record⟩ := by
  simp only [Row.write, getElem?_row]
  by_cases inside : write.cell < width
  · simp only [if_pos inside, holds.held?_holding, Write.clash?]
    cases found : Write.kept? writes write.cell with
    | none =>
        rw [row_concat_of_blank found]
        rfl
    | some kept =>
        rw [row_concat_of_kept fun _ => Option.isSome_of_eq_some found]
        by_cases same : kept = write.value
        · simp only [if_pos same]
          rfl
        · simp only [if_neg same]
          rfl
  · simp only [if_neg inside]
    rw [row_concat_of_kept fun within => absurd within inside]
    rfl

/-- A row that is filled keeps the first value written to each cell, and turns away the others. -/
theorem Holds.foldl_write (holds : kind.Holds writes) (record : σ) :
    writes.foldl (Row.write kind refuse) ⟨Array.replicate width kind.blank, record⟩ =
      ⟨kind.row width writes,
        (Write.clashes (Write.within width writes)).foldl refuse record⟩ := by
  induction writes using List.reverseRecOn with
  | nil =>
      rw [row_nil]
      rfl
  | append_singleton earlier write ih =>
      have before : kind.Holds earlier :=
        ⟨holds.blank, fun old member => holds.full old (List.mem_append_left _ member)⟩
      rw [List.foldl_append, ih before, List.foldl_cons, List.foldl_nil, before.write_row,
        Write.clashes_within_concat, List.foldl_append]

end Rows

section States

variable {writesOf : Nat → List (Write α)}

/-- The rows of a table of which those of the first states are filled, and the others still blank. -/
def rowsOf (kind : Cells α κ) (writesOf : Nat → List (Write α)) (states width filled : Nat) :
    Array (Array κ) :=
  (Array.range states).map fun state =>
    if state < filled then kind.row width (writesOf state) else Array.replicate width kind.blank

theorem getElem?_rowsOf {states width filled : Nat} (state : Nat) :
    (kind.rowsOf writesOf states width filled)[state]? =
      if state < states then
        some (if state < filled then kind.row width (writesOf state)
          else Array.replicate width kind.blank)
      else none := by
  rw [rowsOf, Array.getElem?_map, Array.getElem?_range]
  split <;> rfl

theorem rowsOf_zero (states width : Nat) :
    kind.rowsOf writesOf states width 0 =
      Array.replicate states (Array.replicate width kind.blank) := by
  refine Array.ext_getElem? fun state => ?_
  rw [getElem?_rowsOf, Array.getElem?_replicate, if_neg (Nat.not_lt_zero state)]

theorem rowsOf_succ {states width filled : Nat} (within : filled < states) :
    kind.rowsOf writesOf states width (filled + 1) =
      (kind.rowsOf writesOf states width filled).setIfInBounds filled
        (kind.row width (writesOf filled)) := by
  refine Array.ext_getElem? fun state => ?_
  rw [Array.getElem?_setIfInBounds, getElem?_rowsOf, getElem?_rowsOf]
  by_cases same : filled = state
  · subst same
    rw [if_pos within, if_pos rfl, if_pos (Nat.lt_succ_self filled), rowsOf, Array.size_map,
      Array.size_range, if_pos within]
  · have later : state < filled + 1 ↔ state < filled := by omega
    rw [if_neg same]
    simp only [later]

variable [DecidableEq α] {σ : Type} {refuse : Nat → σ → Write (α × α) → σ}

/-- What has been recorded of the values turned away from the rows of the first states. -/
def recordOf (refuse : Nat → σ → Write (α × α) → σ) (writesOf : Nat → List (Write α))
    (states width : Nat) (record : σ) : σ :=
  (List.range states).foldl
    (fun record state =>
      (Write.clashes (Write.within width (writesOf state))).foldl (refuse state) record)
    record

theorem foldl_fillRow (holds : ∀ state, kind.Holds (writesOf state)) {states filled : Nat}
    (width : Nat) (record : σ) (within : filled ≤ states) :
    (List.range filled).foldl (Draft.fillRow kind refuse writesOf)
        ⟨Array.replicate states (Array.replicate width kind.blank), record⟩ =
      ⟨kind.rowsOf writesOf states width filled,
        recordOf refuse writesOf filled width record⟩ := by
  induction filled with
  | zero =>
      rw [rowsOf_zero]
      rfl
  | succ filled ih =>
      have blank : (kind.rowsOf writesOf states width filled).getD filled #[] =
          Array.replicate width kind.blank := by
        rw [Array.getD_eq_getD_getElem?, getElem?_rowsOf, if_pos (Nat.lt_of_succ_le within),
          if_neg (Nat.lt_irrefl filled), Option.getD_some]
      rw [List.range_succ, List.foldl_append, ih (Nat.le_of_succ_le within), List.foldl_cons,
        List.foldl_nil, Draft.fillRow]
      simp only [blank, (holds filled).foldl_write, rowsOf_succ within, recordOf, List.range_succ,
        List.foldl_append, List.foldl_cons, List.foldl_nil]

/-- A table that is filled has the rows of all states. -/
theorem fill_eq (holds : ∀ state, kind.Holds (writesOf state)) (states width : Nat) (record : σ) :
    Draft.fill kind refuse writesOf states width record =
      ⟨(Array.range states).map fun state => kind.row width (writesOf state),
        recordOf refuse writesOf states width record⟩ := by
  rw [Draft.fill, foldl_fillRow holds width record (Nat.le_refl states)]
  congr 1
  refine Array.map_congr_left fun state member => ?_
  rw [if_pos (Array.mem_range.mp member)]

end States

end Cells

namespace Tables

variable (construction : Construction) (collection : Collection)

def gotoRow (state : Nat) : Array (Option Nat) :=
  Cells.target.row construction.grammar.nonterminals.length
    (gotoWrites construction collection state)

def actionRow (state : Nat) : Array Action :=
  Cells.action.row construction.grammar.tokens.length (actionWrites construction collection state)

/-- A state turned away from the goto table is recorded each time. -/
def gotoConflicts (state : Nat) : List Conflict :=
  (Write.clashes (Write.within construction.grammar.nonterminals.length
    (gotoWrites construction collection state))).map (construction.gotoConflict state)

/-- An action turned away from a cell is recorded once. -/
def actionConflicts (state : Nat) : List Conflict :=
  (Write.rejected (Write.within construction.grammar.tokens.length
    (actionWrites construction collection state))).map
      (construction.actionConflict state (collection.itemTexts construction.grammar state))

theorem target_holds (writes : List (Write Nat)) : Cells.target.Holds writes :=
  ⟨rfl, fun _ _ => rfl⟩

/-- No item asks for an error. -/
theorem actionWrite?_ne_error {transitions : Transitions} {item : Item} {write : Write Action}
    (asked : construction.actionWrite? transitions item = some write) : write.value ≠ .error := by
  unfold Construction.actionWrite? at asked
  split at asked
  · obtain ⟨target, _, rfl⟩ := Option.map_eq_some_iff.mp asked
    simp
  · cases asked
  · split at asked <;> cases asked <;> simp

theorem action_holds (state : Nat) :
    Cells.action.Holds (actionWrites construction collection state) := by
  refine ⟨rfl, fun write member => ?_⟩
  obtain ⟨item, _, asked⟩ := List.mem_filterMap.mp member
  exact if_neg (actionWrite?_ne_error construction asked)

theorem foldl_refuseTarget (state : Nat) (conflicts : List Conflict)
    (clashes : List (Write (Nat × Nat))) :
    clashes.foldl (refuseTarget construction state) conflicts =
      conflicts ++ clashes.map (construction.gotoConflict state) := by
  induction clashes generalizing conflicts with
  | nil => exact (List.append_nil conflicts).symm
  | cons clash rest ih =>
      rw [List.foldl_cons, ih, refuseTarget, List.append_assoc]
      rfl

theorem recordOf_refuseTarget (states : Nat) :
    Cells.recordOf (refuseTarget construction) (gotoWrites construction collection) states
        construction.grammar.nonterminals.length [] =
      (List.range states).flatMap (gotoConflicts construction collection) := by
  simp only [Cells.recordOf, foldl_refuseTarget, List.flatMap_eq_foldl]
  rfl

/-- In a state of which nothing is recorded yet, each action turned away is recorded once. -/
theorem foldl_refuseAction (state : Nat) (rejections : Rejections)
    (fresh : ∀ entry ∈ rejections.rejected, entry.1 ≠ state)
    (clashes : List (Write (Action × Action)))
    (apart : ∀ first ∈ clashes, ∀ second ∈ clashes, first.cell = second.cell →
      first.value.2 = second.value.2 → first = second) :
    clashes.foldl (refuseAction construction collection state) rejections =
      ⟨rejections.rejected ++ clashes.eraseDups.map (rejection state),
        rejections.conflicts ++ clashes.eraseDups.map (construction.actionConflict state
          (collection.itemTexts construction.grammar state))⟩ := by
  induction clashes using List.reverseRecOn with
  | nil =>
      rw [List.eraseDups_nil, List.map_nil, List.append_nil, List.map_nil, List.append_nil]
      rfl
  | append_singleton earlier clash ih =>
      rw [List.foldl_append, ih fun first inFirst second inSecond =>
          apart first (List.mem_append_left _ inFirst) second (List.mem_append_left _ inSecond),
        List.foldl_cons, List.foldl_nil, refuseAction, Description.eraseDups_concat]
      have known : rejection state clash ∈
          rejections.rejected ++ earlier.eraseDups.map (rejection state) ↔ clash ∈ earlier := by
        rw [List.mem_append, List.mem_map]
        constructor
        · rintro (old | ⟨other, listed, same⟩)
          · exact absurd rfl (fresh _ old)
          · have member := List.mem_eraseDups.mp listed
            simp only [rejection, Prod.mk.injEq, Write.mk.injEq, true_and] at same
            have equal := apart other (List.mem_append_left _ member) clash
              (List.mem_append_right _ List.mem_cons_self) same.1 same.2
            rwa [← equal]
        · intro member
          exact .inr ⟨clash, List.mem_eraseDups.mpr member, rfl⟩
      by_cases member : clash ∈ earlier
      · simp only [List.contains_iff_mem, if_pos member, if_pos (known.mpr member)]
      · simp only [List.contains_iff_mem, if_neg member,
          if_neg fun listed => member (known.mp listed), List.map_append, List.map_cons,
          List.map_nil, List.append_assoc]

theorem recordOf_refuseAction (states : Nat) (conflicts : List Conflict) :
    Cells.recordOf (refuseAction construction collection) (actionWrites construction collection)
        states construction.grammar.tokens.length { conflicts } =
      ⟨(List.range states).flatMap fun state =>
          (Write.rejected (Write.within construction.grammar.tokens.length
            (actionWrites construction collection state))).map (rejection state),
        conflicts ++ (List.range states).flatMap (actionConflicts construction collection)⟩ := by
  induction states with
  | zero => simp [Cells.recordOf]
  | succ states ih =>
      have fresh : ∀ entry ∈ (List.range states).flatMap fun state =>
          (Write.rejected (Write.within construction.grammar.tokens.length
            (actionWrites construction collection state))).map (rejection state),
          entry.1 ≠ states := by
        intro entry listed
        obtain ⟨state, inside, member⟩ := List.mem_flatMap.mp listed
        obtain ⟨clash, _, rfl⟩ := List.mem_map.mp member
        exact Nat.ne_of_lt (List.mem_range.mp inside)
      rw [Cells.recordOf, List.range_succ, List.foldl_append, ← Cells.recordOf, ih,
        List.foldl_cons, List.foldl_nil, foldl_refuseAction construction collection states _ fresh
          _ fun first inFirst second inSecond => Write.eq_of_mem_clashes inFirst inSecond]
      simp only [List.flatMap_append, List.flatMap_cons, List.flatMap_nil, List.append_nil,
        List.append_assoc]
      rfl

/-- The tables as they are once everything is written: in each cell the first value written to it.
Conflicts of the goto table come before those of the action table, and within a table they are in the
order of states and items. -/
theorem fill_eq :
    fill construction collection =
      { action := (Array.range collection.size).map (actionRow construction collection)
        goto := (Array.range collection.size).map (gotoRow construction collection)
        conflicts :=
          (List.range collection.size).flatMap (gotoConflicts construction collection) ++
            (List.range collection.size).flatMap (actionConflicts construction collection) } := by
  rw [fill, Cells.fill_eq fun state => target_holds _,
    Cells.fill_eq (action_holds construction collection), recordOf_refuseTarget,
    recordOf_refuseAction]
  rfl

end Tables

end ThreeAddress

import ThreeAddress.Proofs.Meaning.Emit
import ThreeAddress.SymbolTable

/-!
The symbol table as a stack of scopes. The table keeps the entries of all scopes in one list and
deletes by depth; whatever is done with it, it answers as a stack of scopes does that holds the
entries of each scope apart.
-/

set_option autoImplicit false

namespace ThreeAddress

/-- What can be done with a symbol table. -/
inductive Operation where
  | enter
  | exit
  | define (name : String) (kind : SymbolKind) (pos : Nat)
  | defineData (name type : String) (size pos : Nat)
  | fresh
deriving Repr, DecidableEq

/-- What it answers. -/
inductive Answer where
  | nothing
  | defined (entry : SymbolEntry)
  | refused (duplicate : Duplicate)
  | handed (name : String)
deriving Repr, DecidableEq

/-- The name handed out with an answer, as an address or as a temporary. -/
def Answer.name? : Answer → Option String
  | .defined entry => some entry.addr
  | .handed name => some name
  | _ => none

/-- Carries out operations in order, with the answers to each. -/
def performAll {σ : Type} (perform : Operation → σ → Answer × σ) :
    List Operation → σ → List Answer × σ
  | [], state => ([], state)
  | operation :: rest, state =>
    let (answer, next) := perform operation state
    let (answers, last) := performAll perform rest next
    (answer :: answers, last)

theorem performAll_cons {σ : Type} (perform : Operation → σ → Answer × σ)
    (operation : Operation) (rest : List Operation) (state : σ) :
    performAll perform (operation :: rest) state =
      ((perform operation state).1 :: (performAll perform rest (perform operation state).2).1,
        (performAll perform rest (perform operation state).2).2) := rfl

theorem performAll_append {σ : Type} (perform : Operation → σ → Answer × σ)
    (first second : List Operation) (state : σ) :
    (performAll perform (first ++ second) state).2 =
      (performAll perform second (performAll perform first state).2).2 := by
  induction first generalizing state with
  | nil => rfl
  | cons operation rest ih => exact ih (perform operation state).2

/-- The operations in a scope of their own. -/
def enclosed (inner : List Operation) : List Operation := .enter :: (inner ++ [.exit])

/-- Operations that close each scope they enter and no other. -/
inductive Balanced : List Operation → Prop where
  | nil : Balanced []
  | plain (operation : Operation) (stays : operation ≠ .enter ∧ operation ≠ .exit) :
      Balanced [operation]
  | append (first second : List Operation) (left : Balanced first) (right : Balanced second) :
      Balanced (first ++ second)
  | nested (inner : List Operation) (within : Balanced inner) :
      Balanced (enclosed inner)

namespace SymbolTable

/-- A definition that is refused leaves the table as it was. -/
def settle (table : SymbolTable) : Except Duplicate (SymbolEntry × SymbolTable) →
    Answer × SymbolTable
  | .ok (entry, after) => (.defined entry, after)
  | .error duplicate => (.refused duplicate, table)

def perform (operation : Operation) (table : SymbolTable) : Answer × SymbolTable :=
  match operation with
  | .enter => (.nothing, table.enter)
  | .exit => (.nothing, table.exit)
  | .define name kind pos => table.settle (table.define name kind pos)
  | .defineData name type size pos => table.settle (table.defineData name type size pos)
  | .fresh => (.handed table.fresh.1, table.fresh.2)

theorem exit_temporaries (table : SymbolTable) : table.exit.temporaries = table.temporaries := by
  unfold exit
  split <;> rfl

/-- Leaving a scope only deletes entries. -/
theorem exit_entries_sublist (table : SymbolTable) :
    table.exit.entries.Sublist table.entries := by
  unfold exit
  split
  · exact List.Sublist.refl _
  · exact List.filter_sublist

end SymbolTable

/-- The scopes that are open: the innermost one, and those around it from the inside out. -/
structure ScopeStack where
  top : List SymbolEntry := []
  outer : List (List SymbolEntry) := []
  temporaries : Nat := 0
deriving Repr, DecidableEq

namespace ScopeStack

/-- The scopes from the inside out. -/
def scopes (stack : ScopeStack) : List (List SymbolEntry) := stack.top :: stack.outer

/-- The number of scopes around the innermost one. -/
def depth (stack : ScopeStack) : Nat := stack.outer.length

/-- The entries from the outermost scope to the innermost one, in order of definition in each. -/
def entries (stack : ScopeStack) : List SymbolEntry := stack.scopes.reverse.flatten

def enter (stack : ScopeStack) : ScopeStack :=
  { stack with top := [], outer := stack.top :: stack.outer }

/-- Drops the innermost scope, unless it is the only one. -/
def exit (stack : ScopeStack) : ScopeStack :=
  match stack.outer with
  | [] => stack
  | top :: outer => { stack with top, outer }

/-- Looks a name up from the inside out. -/
def lookup (stack : ScopeStack) (name : String) : Option SymbolEntry :=
  stack.scopes.findSome? fun scope => scope.find? fun entry => entry.name == name

/-- The depth of the innermost scope that holds the name: how many scopes there are around it. -/
def holderIn (name : String) : List (List SymbolEntry) → Option Nat
  | [] => none
  | scope :: outer =>
    if scope.any fun entry => entry.name == name then some outer.length else holderIn name outer

/-- Appends to the innermost scope, unless some scope holds the name. -/
def insert (stack : ScopeStack) (name : String) (kind : SymbolKind) (type : String)
    (size pos : Nat) : Answer × ScopeStack :=
  match holderIn name stack.scopes with
  | some depth => (.refused ⟨name, depth⟩, stack)
  | none =>
    let entry := ⟨name, kind, stack.depth, temporary stack.temporaries, size, type, pos⟩
    (.defined entry,
      { stack with top := stack.top ++ [entry], temporaries := stack.temporaries + 1 })

def perform (operation : Operation) (stack : ScopeStack) : Answer × ScopeStack :=
  match operation with
  | .enter => (.nothing, stack.enter)
  | .exit => (.nothing, stack.exit)
  | .define name kind pos => stack.insert name kind "" 0 pos
  | .defineData name type size pos =>
    stack.insert name (if size = 0 then .var else .array) type size pos
  | .fresh =>
    (.handed (temporary stack.temporaries), { stack with temporaries := stack.temporaries + 1 })

/-- The entries of each scope carry its depth. -/
def Placed : List (List SymbolEntry) → Prop
  | [] => True
  | scope :: outer => (∀ entry ∈ scope, entry.scope = outer.length) ∧ Placed outer

theorem Placed.scope_lt {scopes : List (List SymbolEntry)} (placed : Placed scopes) :
    ∀ entry ∈ scopes.reverse.flatten, entry.scope < scopes.length := by
  induction scopes with
  | nil => simp
  | cons scope outer ih =>
      intro entry member
      obtain ⟨here, around⟩ := placed
      rw [List.reverse_cons, List.flatten_append, List.flatten_singleton] at member
      rcases List.mem_append.mp member with old | new
      · have small := ih around entry old
        rw [List.length_cons]
        omega
      · rw [here entry new, List.length_cons]
        omega

/-- With no name twice it does not matter from which side one looks, and the depth of the scope that
holds a name is the one its entry carries. -/
theorem find?_flatten {scopes : List (List SymbolEntry)} (placed : Placed scopes)
    (unique : (scopes.reverse.flatten.map SymbolEntry.name).Nodup) (name : String) :
    scopes.reverse.flatten.find? (fun entry => entry.name == name) =
        scopes.findSome? (fun scope => scope.find? fun entry => entry.name == name) ∧
      holderIn name scopes =
        (scopes.findSome? fun scope => scope.find? fun entry => entry.name == name).map
          SymbolEntry.scope := by
  induction scopes with
  | nil => exact ⟨rfl, rfl⟩
  | cons scope outer ih =>
      obtain ⟨here, around⟩ := placed
      rw [List.reverse_cons, List.flatten_append, List.flatten_singleton] at unique ⊢
      rw [List.map_append, List.nodup_append] at unique
      obtain ⟨outside, -, apart⟩ := unique
      obtain ⟨same, held⟩ := ih around outside
      rw [List.find?_append, List.findSome?_cons, holderIn]
      cases found : scope.find? fun entry => entry.name == name with
      | none =>
          have absent : scope.any (fun entry => entry.name == name) = false := by
            simpa using found
          rw [Option.or_none, absent]
          exact ⟨same, held⟩
      | some entry =>
          have member : entry ∈ scope := List.mem_of_find?_eq_some found
          have named : entry.name = name := by simpa using List.find?_some found
          have holds : scope.any (fun entry => entry.name == name) = true := by
            rw [List.any_eq_true]
            exact ⟨entry, member, by simpa using named⟩
          have elsewhere :
              outer.reverse.flatten.find? (fun entry => entry.name == name) = none := by
            rw [List.find?_eq_none]
            intro other listed
            have differs := apart other.name (List.mem_map_of_mem listed) entry.name
              (List.mem_map_of_mem member)
            simpa [named] using differs
          rw [elsewhere, holds]
          exact ⟨rfl, by simp [here entry member]⟩

/-- The table holds what the scopes hold, one after the other, each entry with the depth of its
scope and no name twice. -/
structure Represents (stack : ScopeStack) (table : SymbolTable) : Prop where
  depth_eq : table.depth = stack.depth
  entries_eq : table.entries = stack.entries
  temporaries_eq : table.temporaries = stack.temporaries
  placed : Placed stack.scopes
  unique : (stack.entries.map SymbolEntry.name).Nodup

namespace Represents

variable {stack : ScopeStack} {table : SymbolTable}

theorem first : Represents {} {} := ⟨rfl, rfl, rfl, ⟨by simp, trivial⟩, by simp [entries, scopes]⟩

theorem lookup_eq (represents : stack.Represents table) (name : String) :
    table.lookup name = stack.lookup name := by
  rw [SymbolTable.lookup, represents.entries_eq]
  exact (find?_flatten represents.placed represents.unique name).1

theorem holder_eq (represents : stack.Represents table) (name : String) :
    holderIn name stack.scopes = (table.lookup name).map SymbolEntry.scope := by
  rw [represents.lookup_eq]
  exact (find?_flatten represents.placed represents.unique name).2

theorem enter (represents : stack.Represents table) : stack.enter.Represents table.enter := by
  have same : stack.enter.entries = stack.entries := by
    simp [entries, scopes, ScopeStack.enter]
  refine ⟨congrArg (· + 1) represents.depth_eq, ?_, represents.temporaries_eq, ?_, ?_⟩
  · rw [same]
    exact represents.entries_eq
  · exact ⟨by simp [ScopeStack.enter], represents.placed⟩
  · rw [same]
    exact represents.unique

/-- The entries of the innermost scope are those with its depth. -/
theorem exit (represents : stack.Represents table) : stack.exit.Represents table.exit := by
  obtain ⟨top, outer, temporaries⟩ := stack
  have depth : table.depth = outer.length := represents.depth_eq
  cases outer with
  | nil =>
      have bottom : table.exit = table := by simp [SymbolTable.exit, depth]
      rw [bottom]
      exact represents
  | cons scope outer =>
      obtain ⟨here, around⟩ := represents.placed
      have whole : table.entries = (scope :: outer).reverse.flatten ++ top := by
        rw [represents.entries_eq]
        simp [entries, scopes]
      have unique : (((scope :: outer).reverse.flatten ++ top).map SymbolEntry.name).Nodup := by
        rw [← whole, represents.entries_eq]
        exact represents.unique
      have left : table.exit =
          { table with depth := outer.length, entries := (scope :: outer).reverse.flatten } := by
        have kept : ((scope :: outer).reverse.flatten.filter fun entry =>
            entry.scope != table.depth) = (scope :: outer).reverse.flatten := by
          rw [List.filter_eq_self]
          intro entry member
          have small : entry.scope < (scope :: outer).length := around.scope_lt entry member
          rw [depth, bne_iff_ne]
          omega
        have deleted : (top.filter fun entry => entry.scope != table.depth) = [] := by
          rw [List.filter_eq_nil_iff]
          intro entry member
          simp [here entry member, depth]
        simp only [SymbolTable.exit, whole, List.filter_append, kept, deleted, List.append_nil]
        simp [depth]
      rw [left]
      refine ⟨rfl, rfl, represents.temporaries_eq, around, ?_⟩
      rw [List.map_append, List.nodup_append] at unique
      exact unique.1

theorem fresh (represents : stack.Represents table) :
    { stack with temporaries := stack.temporaries + 1 }.Represents table.fresh.2 :=
  ⟨represents.depth_eq, represents.entries_eq, congrArg (· + 1) represents.temporaries_eq,
    represents.placed, represents.unique⟩

/-- A definition is refused by both, with the same depth, or made by both. -/
theorem insert (represents : stack.Represents table) (name : String) (kind : SymbolKind)
    (type : String) (size pos : Nat) :
    (table.settle (table.insert name kind type size pos)).1 =
        (stack.insert name kind type size pos).1 ∧
      (stack.insert name kind type size pos).2.Represents
        (table.settle (table.insert name kind type size pos)).2 := by
  have held := represents.holder_eq name
  cases found : table.lookup name with
  | some holder =>
      rw [found, Option.map_some] at held
      simp only [SymbolTable.insert, ScopeStack.insert, found, held, SymbolTable.settle]
      exact ⟨trivial, represents⟩
  | none =>
      rw [found, Option.map_none] at held
      simp only [SymbolTable.insert, ScopeStack.insert, found, held, SymbolTable.settle,
        SymbolTable.fresh, represents.depth_eq, represents.temporaries_eq]
      have grown : ∀ entry, entries { stack with
          top := stack.top ++ [entry], temporaries := stack.temporaries + 1 } =
            stack.entries ++ [entry] := by
        intro entry
        simp [entries, scopes]
      obtain ⟨here, around⟩ := represents.placed
      refine ⟨trivial, rfl, ?_, rfl, ⟨?_, around⟩, ?_⟩
      · rw [grown, represents.entries_eq]
      · intro entry member
        rcases List.mem_append.mp member with old | new
        · exact here entry old
        · rw [List.mem_singleton.mp new]
          rfl
      · rw [grown, List.map_append, List.nodup_append]
        refine ⟨represents.unique, List.pairwise_singleton _ _, ?_⟩
        intro other listed new single same
        obtain ⟨entry, member, rfl⟩ := List.mem_map.mp listed
        rw [SymbolTable.lookup, represents.entries_eq, List.find?_eq_none] at found
        have differs := found entry member
        rw [List.mem_singleton.mp single] at same
        simp [same] at differs

/-- Every operation has the same answer from both and leaves the table a picture of the scopes. -/
theorem perform (represents : stack.Represents table) (operation : Operation) :
    (table.perform operation).1 = (stack.perform operation).1 ∧
      (stack.perform operation).2.Represents (table.perform operation).2 := by
  cases operation with
  | enter => exact ⟨rfl, represents.enter⟩
  | exit => exact ⟨rfl, represents.exit⟩
  | define name kind pos => exact represents.insert name kind "" 0 pos
  | defineData name type size pos =>
      exact represents.insert name (if size = 0 then .var else .array) type size pos
  | fresh =>
      refine ⟨?_, represents.fresh⟩
      change Answer.handed (temporary table.temporaries) = .handed (temporary stack.temporaries)
      rw [represents.temporaries_eq]

theorem performAll (represents : stack.Represents table) (operations : List Operation) :
    (ThreeAddress.performAll SymbolTable.perform operations table).1 =
        (ThreeAddress.performAll ScopeStack.perform operations stack).1 ∧
      (ThreeAddress.performAll ScopeStack.perform operations stack).2.Represents
        (ThreeAddress.performAll SymbolTable.perform operations table).2 := by
  induction operations generalizing stack table with
  | nil => exact ⟨rfl, represents⟩
  | cons operation rest ih =>
      obtain ⟨same, next⟩ := represents.perform operation
      obtain ⟨later, last⟩ := ih next
      rw [performAll_cons, performAll_cons, same, later]
      exact ⟨rfl, last⟩

end Represents

end ScopeStack

namespace ScopeStack

theorem insert_outer (stack : ScopeStack) (name : String) (kind : SymbolKind) (type : String)
    (size pos : Nat) : (stack.insert name kind type size pos).2.outer = stack.outer := by
  unfold insert
  split <;> rfl

/-- To leave a scope is to be back where it was entered, if the scopes around it are the same. -/
theorem scopes_exit {stack after : ScopeStack} (same : after.outer = stack.enter.outer) :
    after.exit.scopes = stack.scopes := by
  rw [exit, same]
  rfl

theorem performAll_nested (inner : List Operation) (stack : ScopeStack) :
    (performAll perform (enclosed inner) stack).2 =
      (performAll perform inner stack.enter).2.exit := by
  rw [enclosed, performAll_cons, performAll_append]
  rfl

end ScopeStack

/-- Balanced operations touch no scope around the innermost one. -/
theorem Balanced.outer_eq {operations : List Operation} (balanced : Balanced operations)
    (stack : ScopeStack) :
    (performAll ScopeStack.perform operations stack).2.outer = stack.outer := by
  induction balanced generalizing stack with
  | nil => rfl
  | plain operation stays =>
      cases operation with
      | enter => exact absurd rfl stays.1
      | exit => exact absurd rfl stays.2
      | define name kind pos => exact stack.insert_outer name kind "" 0 pos
      | defineData name type size pos => exact stack.insert_outer name _ type size pos
      | fresh => rfl
  | append first second left right leftIh rightIh => rw [performAll_append, rightIh, leftIh]
  | nested inner within ih =>
      rw [ScopeStack.performAll_nested]
      exact (List.cons.inj (ScopeStack.scopes_exit (ih stack.enter))).2

/-- A scope that is entered and left again leaves the scopes as they were. -/
theorem Balanced.scopes_eq {inner : List Operation} (balanced : Balanced inner)
    (stack : ScopeStack) :
    (performAll ScopeStack.perform (enclosed inner) stack).2.scopes = stack.scopes := by
  rw [ScopeStack.performAll_nested]
  exact ScopeStack.scopes_exit (balanced.outer_eq stack.enter)

namespace SymbolTable

/-- An operation hands out the next temporary or none. -/
theorem handed_of_perform (operation : Operation) (table : SymbolTable) :
    (List.range table.temporaries).map temporary ++ (table.perform operation).1.name?.toList =
      (List.range (table.perform operation).2.temporaries).map temporary := by
  have next : (List.range table.temporaries).map temporary ++ [temporary table.temporaries] =
      (List.range (table.temporaries + 1)).map temporary := by
    rw [List.range_succ, List.map_append, List.map_singleton]
  have inserted : ∀ name kind type size pos,
      (List.range table.temporaries).map temporary ++
          (table.settle (table.insert name kind type size pos)).1.name?.toList =
        (List.range (table.settle (table.insert name kind type size pos)).2.temporaries).map
          temporary := by
    intro name kind type size pos
    unfold insert
    split
    · exact List.append_nil _
    · exact next
  cases operation with
  | enter => exact List.append_nil _
  | exit =>
      change _ ++ [] = (List.range table.exit.temporaries).map temporary
      rw [exit_temporaries, List.append_nil]
  | define name kind pos => exact inserted name kind "" 0 pos
  | defineData name type size pos =>
      exact inserted name (if size = 0 then .var else .array) type size pos
  | fresh => exact next

/-- The temporaries up to the number so far are those before and those handed out since, in
order. -/
theorem handed_of_performAll (operations : List Operation) (table : SymbolTable) :
    (List.range table.temporaries).map temporary ++
        (performAll perform operations table).1.filterMap Answer.name? =
      (List.range (performAll perform operations table).2.temporaries).map temporary := by
  induction operations generalizing table with
  | nil => exact List.append_nil _
  | cons operation rest ih =>
      have later := ih (table.perform operation).2
      rw [← handed_of_perform, List.append_assoc] at later
      have first : ∀ (answer : Answer) (answers : List Answer),
          (answer :: answers).filterMap Answer.name? =
            answer.name?.toList ++ answers.filterMap Answer.name? := by
        intro answer answers
        rw [List.filterMap_cons]
        cases answer.name? <;> rfl
      rw [performAll_cons, first]
      exact later

/-- Whatever is done with a new table, it answers as the stack of scopes does and shows the same
depth, entries and names. No name is handed out twice, and a scope that is entered and left again
leaves the entries as they were. -/
theorem performAll_refines (operations : List Operation) :
    (performAll perform operations {}).1 = (performAll ScopeStack.perform operations {}).1 ∧
      (performAll perform operations {}).2.depth =
        (performAll ScopeStack.perform operations {}).2.depth ∧
      (performAll perform operations {}).2.entries =
        (performAll ScopeStack.perform operations {}).2.entries ∧
      (∀ name, (performAll perform operations {}).2.lookup name =
        (performAll ScopeStack.perform operations {}).2.lookup name) ∧
      ((performAll perform operations {}).1.filterMap Answer.name?).Nodup ∧
      ∀ inner, Balanced inner →
        (performAll perform (operations ++ enclosed inner) {}).2.entries =
          (performAll perform operations {}).2.entries := by
  obtain ⟨answers, represents⟩ := ScopeStack.Represents.first.performAll operations
  refine ⟨answers, represents.depth_eq, represents.entries_eq, represents.lookup_eq, ?_, ?_⟩
  · have handed := handed_of_performAll operations {}
    rw [List.range_zero, List.map_nil, List.nil_append] at handed
    rw [handed]
    apply List.Pairwise.map _ _ List.nodup_range
    intro first second differ same
    exact differ (temporary_injective same)
  · intro inner balanced
    obtain ⟨-, after⟩ := ScopeStack.Represents.first.performAll
      (operations ++ enclosed inner)
    have scopes := balanced.scopes_eq (performAll ScopeStack.perform operations {}).2
    rw [← performAll_append] at scopes
    rw [after.entries_eq, represents.entries_eq, ScopeStack.entries, scopes]
    rfl

/-- There is nothing to leave at first, and a name is defined in the outermost scope and in
another. -/
def declaring : List Operation :=
  [.exit, .define "f" .func 0, .enter, .defineData "a" "int" 6 9, .fresh]

/-- A name of a scope further out is refused, and one of a scope that was left is not. -/
def redeclaring : List Operation :=
  [.define "f" .basic 14] ++ enclosed [.defineData "b" "int" 0 21] ++ [.defineData "b" "bool" 0 30]

theorem performAll_refines_redeclaring :
    Balanced redeclaring ∧
      (performAll perform declaring {}).1 = (performAll ScopeStack.perform declaring {}).1 ∧
      (performAll perform (declaring ++ enclosed redeclaring) {}).1 =
        (performAll ScopeStack.perform (declaring ++ enclosed redeclaring) {}).1 ∧
      (performAll perform (declaring ++ enclosed redeclaring) {}).2.entries =
        (performAll perform declaring {}).2.entries ∧
      (performAll perform declaring {}).2.entries.map SymbolEntry.name = ["f", "a"] := by
  have balanced : Balanced redeclaring := by
    refine .append _ _ (.append _ _ (.plain _ (by decide)) ?_) (.plain _ (by decide))
    exact .nested _ (.plain _ (by decide))
  obtain ⟨same, -, -, -, -, restored⟩ := performAll_refines declaring
  obtain ⟨further, -⟩ := performAll_refines (declaring ++ enclosed redeclaring)
  exact ⟨balanced, same, further, restored redeclaring balanced, by decide +kernel⟩

end SymbolTable

end ThreeAddress

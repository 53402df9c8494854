/-!
Finite sets as strictly ascending lists. Two ascending lists with the same members are equal, so
equality of sets is equality of lists.
-/

set_option autoImplicit false

namespace ThreeAddress.Ascending

variable {α : Type} [Ord α]

def insert (x : α) : List α → List α
  | [] => [x]
  | y :: rest =>
    match compare x y with
    | .lt => x :: y :: rest
    | .eq => y :: rest
    | .gt => y :: insert x rest

/-- The set of the members of a list. -/
def ofList : List α → List α
  | [] => []
  | x :: rest => insert x (ofList rest)

/-- Merges `x :: front` into a list, given how `front` is merged into what remains of it. -/
def mergeHead (x : α) (front : List α) (merge : List α → List α) : List α → List α
  | [] => x :: front
  | y :: back =>
    match compare x y with
    | .lt => x :: merge (y :: back)
    | .eq => x :: merge back
    | .gt => y :: mergeHead x front merge back

def union : List α → List α → List α
  | [], back => back
  | x :: front, back => mergeHead x front (union front) back

/-- Each member comes before all later ones. -/
def Strict (members : List α) : Prop := members.Pairwise fun x y => compare x y = .lt

@[simp] theorem insert_nil (x : α) : insert x [] = [x] := rfl

@[simp] theorem ofList_nil : ofList ([] : List α) = [] := rfl

@[simp] theorem ofList_cons (x : α) (rest : List α) :
    ofList (x :: rest) = insert x (ofList rest) := rfl

@[simp] theorem nil_union (back : List α) : union [] back = back := rfl

@[simp] theorem union_nil (front : List α) : union front [] = front := by
  cases front <;> rfl

@[simp] theorem strict_nil : Strict ([] : List α) := List.Pairwise.nil

theorem strict_cons (x : α) (rest : List α) :
    Strict (x :: rest) ↔ (∀ y ∈ rest, compare x y = .lt) ∧ Strict rest := List.pairwise_cons

theorem mem_insert [Std.LawfulEqOrd α] (z x : α) (members : List α) :
    z ∈ insert x members ↔ z = x ∨ z ∈ members := by
  induction members with
  | nil => simp
  | cons y rest ih =>
      unfold insert
      split
      · simp
      · rename_i same
        have equal := Std.compare_eq_iff_eq.mp same
        simp [equal]
      · simp only [List.mem_cons, ih]
        constructor
        · rintro (first | new | old)
          · exact Or.inr (Or.inl first)
          · exact Or.inl new
          · exact Or.inr (Or.inr old)
        · rintro (new | first | old)
          · exact Or.inr (Or.inl new)
          · exact Or.inl first
          · exact Or.inr (Or.inr old)

theorem mem_ofList [Std.LawfulEqOrd α] (z : α) (members : List α) :
    z ∈ ofList members ↔ z ∈ members := by
  induction members with
  | nil => simp
  | cons x rest ih => simp only [ofList_cons, mem_insert, ih, List.mem_cons]

theorem mem_mergeHead [Std.LawfulEqOrd α] (z x : α) (front : List α) (merge : List α → List α)
    (merged : ∀ back, z ∈ merge back ↔ z ∈ front ∨ z ∈ back) (back : List α) :
    z ∈ mergeHead x front merge back ↔ z ∈ x :: front ∨ z ∈ back := by
  induction back with
  | nil => simp [mergeHead]
  | cons y rest ih =>
      unfold mergeHead
      split
      · simp only [List.mem_cons, merged, or_assoc]
      · rename_i same
        have equal := Std.compare_eq_iff_eq.mp same
        simp only [List.mem_cons, merged, equal]
        constructor
        · rintro (first | front | back)
          · exact Or.inl (Or.inl first)
          · exact Or.inl (Or.inr front)
          · exact Or.inr (Or.inr back)
        · rintro ((first | front) | first | back)
          · exact Or.inl first
          · exact Or.inr (Or.inl front)
          · exact Or.inl first
          · exact Or.inr (Or.inr back)
      · simp only [List.mem_cons, ih]
        constructor
        · rintro (second | (first | front) | back)
          · exact Or.inr (Or.inl second)
          · exact Or.inl (Or.inl first)
          · exact Or.inl (Or.inr front)
          · exact Or.inr (Or.inr back)
        · rintro ((first | front) | second | back)
          · exact Or.inr (Or.inl (Or.inl first))
          · exact Or.inr (Or.inl (Or.inr front))
          · exact Or.inl second
          · exact Or.inr (Or.inr back)

theorem mem_union [Std.LawfulEqOrd α] (z : α) (front back : List α) :
    z ∈ union front back ↔ z ∈ front ∨ z ∈ back := by
  induction front generalizing back with
  | nil => simp
  | cons x rest ih => exact mem_mergeHead z x rest (union rest) ih back

theorem strict_insert [Std.LawfulEqOrd α] [Std.TransOrd α] (x : α) (members : List α)
    (ascending : Strict members) : Strict (insert x members) := by
  induction members with
  | nil => exact List.pairwise_singleton _ _
  | cons y rest ih =>
      have parts := (strict_cons y rest).mp ascending
      unfold insert
      split
      · rename_i below
        refine (strict_cons _ _).mpr ⟨?_, ascending⟩
        intro z member
        rcases List.mem_cons.mp member with same | later
        · rw [same]
          exact below
        · exact Std.TransCmp.lt_trans below (parts.1 z later)
      · exact ascending
      · rename_i above
        refine (strict_cons _ _).mpr ⟨?_, ih parts.2⟩
        intro z member
        rcases (mem_insert z x rest).mp member with same | later
        · rw [same]
          exact Std.OrientedCmp.gt_iff_lt.mp above
        · exact parts.1 z later

theorem strict_ofList [Std.LawfulEqOrd α] [Std.TransOrd α] (members : List α) :
    Strict (ofList members) := by
  induction members with
  | nil => exact strict_nil
  | cons x rest ih => exact strict_insert x (ofList rest) ih

theorem strict_mergeHead [Std.LawfulEqOrd α] [Std.TransOrd α] (x : α) (front : List α)
    (merge : List α → List α) (merged : ∀ z back, z ∈ merge back ↔ z ∈ front ∨ z ∈ back)
    (keeps : ∀ back, Strict back → Strict (merge back)) (ascending : Strict (x :: front))
    (back : List α) (backAscending : Strict back) : Strict (mergeHead x front merge back) := by
  have parts := (strict_cons x front).mp ascending
  induction back with
  | nil => exact ascending
  | cons y rest ih =>
      have backParts := (strict_cons y rest).mp backAscending
      unfold mergeHead
      split
      · rename_i below
        refine (strict_cons _ _).mpr ⟨?_, keeps _ backAscending⟩
        intro z member
        rcases (merged z _).mp member with inFront | inBack
        · exact parts.1 z inFront
        · rcases List.mem_cons.mp inBack with same | later
          · rw [same]
            exact below
          · exact Std.TransCmp.lt_trans below (backParts.1 z later)
      · rename_i same
        have equal := Std.compare_eq_iff_eq.mp same
        refine (strict_cons _ _).mpr ⟨?_, keeps _ backParts.2⟩
        intro z member
        rcases (merged z _).mp member with inFront | inBack
        · exact parts.1 z inFront
        · rw [equal]
          exact backParts.1 z inBack
      · rename_i above
        have below := Std.OrientedCmp.gt_iff_lt.mp above
        refine (strict_cons _ _).mpr ⟨?_, ih backParts.2⟩
        intro z member
        rcases (mem_mergeHead z x front merge (merged z) rest).mp member with inFront | inBack
        · rcases List.mem_cons.mp inFront with same | later
          · rw [same]
            exact below
          · exact Std.TransCmp.lt_trans below (parts.1 z later)
        · exact backParts.1 z inBack

theorem strict_union [Std.LawfulEqOrd α] [Std.TransOrd α] (front back : List α)
    (frontAscending : Strict front) (backAscending : Strict back) :
    Strict (union front back) := by
  induction front generalizing back with
  | nil => exact backAscending
  | cons x rest ih =>
      have parts := (strict_cons x rest).mp frontAscending
      exact strict_mergeHead x rest (union rest) (fun z other => mem_union z rest other)
        (fun other ascending => ih other parts.2 ascending) frontAscending back backAscending

/-- Ascending lists with the same members are equal. -/
theorem Strict.ext [Std.LawfulEqOrd α] [Std.TransOrd α] {left right : List α}
    (leftAscending : Strict left) (rightAscending : Strict right)
    (same : ∀ z, z ∈ left ↔ z ∈ right) : left = right := by
  induction left generalizing right with
  | nil =>
      cases right with
      | nil => rfl
      | cons y rest => exact absurd ((same y).mpr (by simp)) (by simp)
  | cons x front ih =>
      cases right with
      | nil => exact absurd ((same x).mp (by simp)) (by simp)
      | cons y back =>
          have leftParts := (strict_cons x front).mp leftAscending
          have rightParts := (strict_cons y back).mp rightAscending
          have irreflexive : ∀ z : α, compare z z ≠ .lt := by
            intro z below
            rw [Std.compare_eq_iff_eq.mpr rfl] at below
            cases below
          have heads : x = y := by
            rcases List.mem_cons.mp ((same x).mp (by simp)) with equal | later
            · exact equal
            · rcases List.mem_cons.mp ((same y).mpr (by simp)) with equal | earlier
              · exact equal.symm
              · exact absurd (Std.TransCmp.lt_trans (leftParts.1 y earlier)
                  (rightParts.1 x later)) (irreflexive x)
          subst heads
          have tails : front = back := by
            apply ih leftParts.2 rightParts.2
            intro z
            constructor
            · intro member
              rcases List.mem_cons.mp ((same z).mp (List.mem_cons_of_mem _ member)) with equal | found
              · rw [equal] at member
                exact absurd (leftParts.1 x member) (irreflexive x)
              · exact found
            · intro member
              rcases List.mem_cons.mp ((same z).mpr (List.mem_cons_of_mem _ member)) with equal | found
              · rw [equal] at member
                exact absurd (rightParts.1 x member) (irreflexive x)
              · exact found
          rw [tails]

end ThreeAddress.Ascending

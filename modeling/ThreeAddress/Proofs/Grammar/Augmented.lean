import ThreeAddress.Grammar.Augmented

/-!
The names that augmentation chooses. Each attempt is longer than the one before it, so that after as
many attempts as there are names one of them is free, and the first free one is chosen.
-/

set_option autoImplicit false

namespace ThreeAddress

/-- The names of at least the given length. -/
def longNames (names : List String) (least : Nat) : List String :=
  names.filter fun name => decide (least ≤ name.length)

theorem mem_longNames {names : List String} {least : Nat} {name : String} :
    name ∈ longNames names least ↔ name ∈ names ∧ least ≤ name.length := by
  rw [longNames, List.mem_filter, decide_eq_true_eq]

/-- A name is not among those that are longer. -/
theorem length_longNames_lt {names : List String} {least : Nat} {name : String}
    (member : name ∈ names) (more : name.length < least) :
    (longNames names least).length < (longNames names name.length).length := by
  have longer : longNames names least = longNames (longNames names name.length) least := by
    unfold longNames
    rw [List.filter_filter]
    refine List.filter_congr fun other _ => ?_
    rw [Bool.eq_iff_iff, Bool.and_eq_true, decide_eq_true_eq, decide_eq_true_eq]
    omega
  rw [longer]
  refine List.length_filter_lt_length_iff_exists.mpr ⟨name, ?_, ?_⟩
  · exact mem_longNames.mpr ⟨member, Nat.le_refl _⟩
  · rw [decide_eq_true_eq]
    omega

/-- If no attempt is free, more of the names taken are as long as the first attempt than there were
attempts after it. -/
theorem lt_length_of_freshName_mem {taken : List String} {mark : String} (marks : 0 < mark.length)
    (tries : Nat) (name : String) (occupied : freshName taken mark tries name ∈ taken) :
    tries < (longNames taken name.length).length := by
  induction tries generalizing name with
  | zero => exact List.length_pos_of_mem (mem_longNames.mpr ⟨occupied, Nat.le_refl _⟩)
  | succ tries ih =>
      rw [freshName] at occupied
      split at occupied
      · rename_i contained
        have later := ih (name ++ mark) occupied
        have more : name.length < (name ++ mark).length := by
          rw [String.length_append]
          omega
        have fewer := length_longNames_lt (List.contains_iff_mem.mp contained) more
        omega
      · rename_i free
        exact absurd (List.contains_iff_mem.mpr occupied) free

/-- With as many attempts as names the chosen one is not taken. -/
theorem freshName_not_mem {mark : String} (marks : 0 < mark.length) (taken : List String)
    (name : String) : freshName taken mark taken.length name ∉ taken := by
  intro occupied
  have many := lt_length_of_freshName_mem marks taken.length name occupied
  have few : (longNames taken name.length).length ≤ taken.length := List.length_filter_le _ _
  omega

/-- The name with some marks appended. -/
def marked (mark : String) : (count : Nat) → String → String
  | 0, name => name
  | count + 1, name => marked mark count (name ++ mark)

/-- Of a name with ever more marks, the chosen one is the first that is not taken. -/
def FirstFree (taken : List String) (mark name chosen : String) : Prop :=
  ∃ count, chosen = marked mark count name ∧ chosen ∉ taken ∧
    ∀ fewer < count, marked mark fewer name ∈ taken

/-- The attempts append one mark after another, and all but the last of them are taken. -/
theorem exists_marked_of_freshName (taken : List String) (mark : String) (tries : Nat)
    (name : String) :
    ∃ count, freshName taken mark tries name = marked mark count name ∧
      ∀ fewer < count, marked mark fewer name ∈ taken := by
  induction tries generalizing name with
  | zero => exact ⟨0, rfl, fun fewer less => absurd less (Nat.not_lt_zero fewer)⟩
  | succ tries ih =>
      rw [freshName]
      split
      · rename_i contained
        obtain ⟨count, reached, earlier⟩ := ih (name ++ mark)
        refine ⟨count + 1, reached, fun fewer less => ?_⟩
        cases fewer with
        | zero => exact List.contains_iff_mem.mp contained
        | succ fewer => exact earlier fewer (Nat.lt_of_succ_lt_succ less)
      · exact ⟨0, rfl, fun fewer less => absurd less (Nat.not_lt_zero fewer)⟩

/-- With as many attempts as names the search gets to a name that is free. -/
theorem firstFree_freshName {mark : String} (marks : 0 < mark.length) (taken : List String)
    (name : String) : FirstFree taken mark name (freshName taken mark taken.length name) := by
  obtain ⟨count, reached, earlier⟩ := exists_marked_of_freshName taken mark taken.length name
  exact ⟨count, reached, freshName_not_mem marks taken name, earlier⟩

theorem FirstFree.unique {taken : List String} {mark name first second : String}
    (one : FirstFree taken mark name first) (other : FirstFree taken mark name second) :
    first = second := by
  obtain ⟨left, rfl, leftFree, beforeLeft⟩ := one
  obtain ⟨right, rfl, rightFree, beforeRight⟩ := other
  rcases Nat.lt_trichotomy left right with less | rfl | more
  · exact absurd (beforeRight left less) leftFree
  · rfl
  · exact absurd (beforeLeft right more) rightFree

/-- What ends in a mark still does when marks are appended. -/
theorem exists_marked_concat (mark : String) (count : Nat) (front : String) :
    ∃ longer, marked mark count (front ++ mark) = longer ++ mark := by
  induction count generalizing front with
  | zero => exact ⟨front, rfl⟩
  | succ count ih => exact ih (front ++ mark)

theorem nodup_concat_freshName {mark : String} (marks : 0 < mark.length) {taken : List String}
    (nodup : taken.Nodup) (name : String) :
    (taken ++ [freshName taken mark taken.length name]).Nodup := by
  refine List.nodup_append.mpr ⟨nodup, List.pairwise_singleton _ _, ?_⟩
  intro old member other added
  rw [List.mem_singleton.mp added]
  rintro rfl
  exact freshName_not_mem marks taken name member

theorem Grammar.nodup_augment_tokens {grammar : Grammar} (nodup : grammar.tokens.Nodup) :
    grammar.augment.grammar.tokens.Nodup :=
  nodup_concat_freshName (by decide) nodup "$"

end ThreeAddress

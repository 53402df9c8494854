import Mathlib.Data.List.Perm.Subperm
import ThreeAddress.Grammar.First

/-!
Passes that only add to finite sets. Repeated often enough such a pass comes to rest, and a state at
rest is one that no single step of the pass changes.
-/

set_option autoImplicit false

namespace ThreeAddress

namespace Ascending

variable {α : Type} [Ord α] [Std.LawfulEqOrd α]

theorem Strict.nodup {members : List α} (ascending : Strict members) : members.Nodup := by
  refine List.Pairwise.imp ?_ ascending
  intro x y below same
  rw [Std.compare_eq_iff_eq.mpr same] at below
  cases below

theorem Strict.length_le {members whole : List α} (ascending : Strict members)
    (inside : ∀ x ∈ members, x ∈ whole) : members.length ≤ whole.length :=
  (ascending.nodup.subperm inside).length_le

/-- A larger set has more members. -/
theorem Strict.length_lt [Std.TransOrd α] {small large : List α} (smallAscending : Strict small)
    (largeAscending : Strict large) (inside : ∀ x ∈ small, x ∈ large) (different : large ≠ small) :
    small.length < large.length := by
  refine Nat.lt_of_not_le fun few => different ?_
  have same := (smallAscending.nodup.subperm inside).perm_of_length_le few
  exact largeAscending.ext smallAscending fun z => same.mem_iff.symm

omit [Std.LawfulEqOrd α] in
theorem strict_singleton (x : α) : Strict [x] := List.pairwise_singleton _ _

end Ascending

/-- What every pass keeps, all rounds keep. -/
theorem settle_induction {α : Type} [DecidableEq α] {motive : α → Prop} {pass : α → α}
    (keeps : ∀ state, motive state → motive (pass state)) (rounds : Nat) (state : α)
    (initial : motive state) : motive (settle pass rounds state) := by
  induction rounds generalizing state with
  | zero => exact initial
  | succ rounds ih =>
      simp only [settle]
      split
      · exact initial
      · exact ih (pass state) (keeps state initial)

/-- A step that keeps an invariant and makes every state that it changes larger. -/
structure Growing {α : Type} (invariant : α → Prop) (size : α → Nat) (step : α → α) : Prop where
  keeps : ∀ state, invariant state → invariant (step state)
  grows : ∀ state, invariant state → step state ≠ state → size state < size (step state)

namespace Growing

variable {α β : Type} {invariant : α → Prop} {size : α → Nat}

theorem size_le {step : α → α} (growing : Growing invariant size step) (state : α)
    (valid : invariant state) (equal : Decidable (step state = state)) :
    size state ≤ size (step state) := by
  rcases equal with different | same
  · exact Nat.le_of_lt (growing.grows state valid different)
  · exact Nat.le_of_eq (congrArg size same.symm)

variable [DecidableEq α]

theorem foldl {step : α → β → α} {inputs : List β}
    (growing : ∀ input ∈ inputs, Growing invariant size (step · input)) :
    Growing invariant size (fun state => inputs.foldl step state) := by
  induction inputs with
  | nil => exact ⟨fun _ valid => valid, fun _ _ different => absurd rfl different⟩
  | cons input rest ih =>
      have first := growing input List.mem_cons_self
      have later := ih fun other member => growing other (List.mem_cons_of_mem _ member)
      refine ⟨fun state valid => later.keeps _ (first.keeps state valid), ?_⟩
      intro state valid different
      have kept := first.keeps state valid
      have more := later.size_le _ kept inferInstance
      by_cases same : step state input = state
      · simp only [List.foldl_cons, same] at different ⊢
        exact later.grows state valid different
      · exact Nat.lt_of_lt_of_le (first.grows state valid same) more

/-- If a pass changes nothing in the end, none of its steps does. -/
theorem foldl_fixed {step : α → β → α} {inputs : List β}
    (growing : ∀ input ∈ inputs, Growing invariant size (step · input)) (state : α)
    (valid : invariant state) (fixed : inputs.foldl step state = state) :
    ∀ input ∈ inputs, step state input = state := by
  induction inputs with
  | nil =>
      intro input member
      cases member
  | cons input rest ih =>
      have first := growing input List.mem_cons_self
      have later := Growing.foldl fun other member => growing other (List.mem_cons_of_mem _ member)
      have more := later.size_le _ (first.keeps state valid) inferInstance
      have same : step state input = state := by
        refine Decidable.byContradiction fun different => ?_
        have less := first.grows state valid different
        simp only [List.foldl_cons] at fixed
        rw [fixed] at more
        omega
      rw [List.foldl_cons, same] at fixed
      intro other member
      rcases List.mem_cons.mp member with rfl | member
      · exact same
      · exact ih (fun other member => growing other (List.mem_cons_of_mem _ member)) fixed other
          member

/-- With more rounds than there is room to grow, a growing pass comes to rest. -/
theorem settle_fixed {pass : α → α} (growing : Growing invariant size pass) {bound : Nat}
    (bounded : ∀ state, invariant state → size state ≤ bound) (rounds : Nat) (state : α)
    (valid : invariant state) (enough : bound < size state + rounds) :
    pass (settle pass rounds state) = settle pass rounds state := by
  induction rounds generalizing state with
  | zero =>
      have full := bounded state valid
      omega
  | succ rounds ih =>
      simp only [settle]
      split
      · assumption
      · rename_i different
        have more := growing.grows state valid different
        exact ih (pass state) (growing.keeps state valid) (by omega)

end Growing

namespace TokenSets

/-- One ascending set for each of the nonterminals, with tokens of the alphabet only. -/
structure Within (count : Nat) (alphabet : List Nat) (sets : TokenSets) : Prop where
  length_eq : sets.rows.length = count
  strict : ∀ row ∈ sets.rows, Ascending.Strict row
  inside : ∀ row ∈ sets.rows, ∀ token ∈ row, token ∈ alphabet

/-- The number of tokens in all sets together. -/
def size (sets : TokenSets) : Nat := sets.rows.flatten.length

variable {count : Nat} {alphabet : List Nat} {sets : TokenSets}

theorem within_empty : Within count alphabet (empty count) := by
  refine ⟨List.length_replicate, ?_, ?_⟩
  · intro row member
    rw [List.eq_of_mem_replicate member]
    exact Ascending.strict_nil
  · intro row member token inRow
    rw [List.eq_of_mem_replicate member] at inRow
    cases inRow

theorem get_mem_rows (sets : TokenSets) (nonterminal : Nat) :
    sets.get nonterminal = [] ∨ sets.get nonterminal ∈ sets.rows := by
  unfold get
  rw [List.getD_eq_getElem?_getD]
  cases found : sets.rows[nonterminal]? with
  | none => exact .inl rfl
  | some row => exact .inr (List.mem_of_getElem? found)

namespace Within

theorem strict_get (within : Within count alphabet sets) (nonterminal : Nat) :
    Ascending.Strict (sets.get nonterminal) := by
  rcases sets.get_mem_rows nonterminal with empty | member
  · rw [empty]
    exact Ascending.strict_nil
  · exact within.strict _ member

theorem mem_get (within : Within count alphabet sets) {nonterminal token : Nat}
    (member : token ∈ sets.get nonterminal) : token ∈ alphabet := by
  rcases sets.get_mem_rows nonterminal with empty | row
  · rw [empty] at member
    cases member
  · exact within.inside _ row token member

theorem size_le (within : Within count alphabet sets) : sets.size ≤ count * alphabet.length := by
  have rows : ∀ rows : List (List Nat), (∀ row ∈ rows, row.length ≤ alphabet.length) →
      rows.flatten.length ≤ rows.length * alphabet.length := by
    intro rows
    induction rows with
    | nil => simp
    | cons row rest ih =>
        intro short
        have first := short row List.mem_cons_self
        have later := ih fun other member => short other (List.mem_cons_of_mem _ member)
        simp only [List.flatten_cons, List.length_append, List.length_cons, Nat.add_mul, Nat.one_mul]
        omega
  rw [← within.length_eq]
  exact rows sets.rows fun row member =>
    (within.strict row member).length_le (within.inside row member)

end Within

theorem add_of_le (nonterminal : Nat) (tokens : List Nat)
    (outside : sets.rows.length ≤ nonterminal) : sets.add nonterminal tokens = sets := by
  unfold add
  rw [List.modify_eq_self outside]

theorem mem_rows_add {nonterminal : Nat} {tokens row : List Nat}
    (member : row ∈ (sets.add nonterminal tokens).rows) :
    row ∈ sets.rows ∨ ∃ old ∈ sets.rows, row = Ascending.union tokens old := by
  obtain ⟨index, found⟩ := List.getElem?_of_mem member
  simp only [add, List.getElem?_modify] at found
  obtain ⟨old, oldFound, same⟩ := Option.map_eq_some_iff.mp found
  split at same
  · exact .inr ⟨old, List.mem_of_getElem? oldFound, same.symm⟩
  · exact .inl (same ▸ List.mem_of_getElem? oldFound)

/-- Adding tokens of the alphabet to a set is a growing step. -/
theorem growing_add (nonterminal : Nat) (tokens : TokenSets → List Nat)
    (strict : ∀ sets, Within count alphabet sets → Ascending.Strict (tokens sets))
    (inside : ∀ sets, Within count alphabet sets → ∀ token ∈ tokens sets, token ∈ alphabet) :
    Growing (Within count alphabet) size (fun sets => sets.add nonterminal (tokens sets)) := by
  constructor
  · intro sets within
    refine ⟨by rw [add_length, within.length_eq], ?_, ?_⟩
    · intro row member
      rcases mem_rows_add member with old | ⟨old, listed, rfl⟩
      · exact within.strict row old
      · exact Ascending.strict_union _ _ (strict sets within) (within.strict old listed)
    · intro row member token inRow
      rcases mem_rows_add member with old | ⟨old, listed, rfl⟩
      · exact within.inside row old token inRow
      · rcases (Ascending.mem_union token _ _).mp inRow with new | kept
        · exact inside sets within token new
        · exact within.inside old listed token kept
  · intro sets within different
    have known : nonterminal < sets.rows.length := by
      refine Nat.lt_of_not_le fun outside => different ?_
      exact add_of_le nonterminal _ outside
    have listed := List.getElem_mem known
    have split := List.modify_eq_take_cons_drop known (f := Ascending.union (tokens sets))
    have whole : sets.rows = sets.rows.take nonterminal ++
        sets.rows[nonterminal] :: sets.rows.drop (nonterminal + 1) := by simp
    have larger : sets.rows[nonterminal].length <
        (Ascending.union (tokens sets) sets.rows[nonterminal]).length := by
      refine (within.strict _ listed).length_lt ?_ ?_ ?_
      · exact Ascending.strict_union _ _ (strict sets within) (within.strict _ listed)
      · intro token member
        exact (Ascending.mem_union token _ _).mpr (.inr member)
      · intro same
        apply different
        unfold add
        rw [split, same, ← whole]
    have before : sets.size = (sets.rows.take nonterminal).flatten.length +
        (sets.rows[nonterminal].length + (sets.rows.drop (nonterminal + 1)).flatten.length) := by
      unfold size
      conv_lhs => rw [whole]
      simp only [List.flatten_append, List.flatten_cons, List.length_append]
    have after : (sets.add nonterminal (tokens sets)).size =
        (sets.rows.take nonterminal).flatten.length +
        ((Ascending.union (tokens sets) sets.rows[nonterminal]).length +
          (sets.rows.drop (nonterminal + 1)).flatten.length) := by
      unfold size add
      rw [split]
      simp only [List.flatten_append, List.flatten_cons, List.length_append]
    omega

/-- Tokens whose addition changes nothing are there already. -/
theorem mem_get_of_add_eq {nonterminal : Nat} {tokens : List Nat}
    (known : nonterminal < sets.rows.length) (same : sets.add nonterminal tokens = sets)
    {token : Nat} (member : token ∈ tokens) : token ∈ sets.get nonterminal := by
  rw [← same, get_add_same sets nonterminal tokens known]
  exact (Ascending.mem_union token _ _).mpr (.inl member)

/-- Every token of the first family is in the same set of the second. -/
def Le (small large : TokenSets) : Prop :=
  ∀ nonterminal token, token ∈ small.get nonterminal → token ∈ large.get nonterminal

theorem Le.refl (sets : TokenSets) : Le sets sets := fun _ _ member => member

theorem Le.trans {small middle large : TokenSets} (first : Le small middle)
    (second : Le middle large) : Le small large :=
  fun nonterminal token member => second nonterminal token (first nonterminal token member)

theorem mem_get_add {nonterminal other : Nat} {tokens : List Nat} {token : Nat}
    (member : token ∈ (sets.add nonterminal tokens).get other) :
    token ∈ sets.get other ∨ (nonterminal = other ∧ token ∈ tokens) := by
  by_cases known : nonterminal < sets.rows.length
  · by_cases same : nonterminal = other
    · subst same
      rw [get_add_same sets nonterminal tokens known] at member
      rcases (Ascending.mem_union token _ _).mp member with new | old
      · exact .inr ⟨rfl, new⟩
      · exact .inl old
    · rw [get_add_other sets nonterminal other tokens same] at member
      exact .inl member
  · rw [add_of_le nonterminal tokens (by omega)] at member
    exact .inl member

theorem le_add (sets : TokenSets) (nonterminal : Nat) (tokens : List Nat) :
    Le sets (sets.add nonterminal tokens) := by
  intro other token member
  by_cases known : nonterminal < sets.rows.length
  · by_cases same : nonterminal = other
    · subst same
      rw [get_add_same sets nonterminal tokens known]
      exact (Ascending.mem_union token _ _).mpr (.inr member)
    · rw [get_add_other sets nonterminal other tokens same]
      exact member
  · rw [add_of_le nonterminal tokens (by omega)]
    exact member

@[simp] theorem add_nil (sets : TokenSets) (nonterminal : Nat) :
    sets.add nonterminal [] = sets := by
  have same : Ascending.union ([] : List Nat) = id := rfl
  rw [add, same, List.modify_id]

theorem empty_le : Le (empty count) sets := by
  intro nonterminal token member
  rw [get_empty] at member
  cases member

theorem Within.ext {other : TokenSets} (within : Within count alphabet sets)
    (otherWithin : Within count alphabet other) (below : Le sets other)
    (above : Le other sets) : sets = other := by
  have rows : sets.rows = other.rows := by
    refine List.ext_getElem (within.length_eq.trans otherWithin.length_eq.symm) ?_
    intro index bound otherBound
    have same : sets.get index = other.get index :=
      (within.strict_get index).ext (otherWithin.strict_get index) fun token =>
        ⟨below index token, above index token⟩
    simpa [get, bound, otherBound] using same
  cases sets
  cases other
  exact congrArg TokenSets.mk rows

end TokenSets

end ThreeAddress

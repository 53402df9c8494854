import Mathlib.Order.Bounds.Defs
import ThreeAddress.Proofs.Grammar.Description
import ThreeAddress.Proofs.Grammar.Rounds
import ThreeAddress.Proofs.Item.Goto

/-!
Closing a set of items with a list of those still to expand. An item is put on the list when it
comes into the set and taken off when it is expanded, so each is expanded once. In whatever order the
items are taken, the list runs out, and the set is then the least closed one around the items given.
-/

set_option autoImplicit false

namespace ThreeAddress

theorem Ascending.length_insert {α : Type} [Ord α] [Std.LawfulEqOrd α] {x : α} {members : List α}
    (absent : x ∉ members) : (Ascending.insert x members).length = members.length + 1 := by
  induction members with
  | nil => rfl
  | cons y rest ih =>
      have later : x ∉ rest := fun member => absent (List.mem_cons_of_mem y member)
      unfold Ascending.insert
      split
      · rfl
      · rename_i same
        exact absurd (Std.compare_eq_iff_eq.mp same ▸ List.mem_cons_self) absent
      · rw [List.length_cons, ih later, List.length_cons]

/-- A set of items under construction and those of its members that are still to be expanded, the
next one first. -/
@[ext]
structure Worklist where
  items : ItemSet
  pending : List Item
deriving Repr, DecidableEq

namespace Worklist

/-- At first all items are to be expanded, the last one first. -/
def start (items : ItemSet) : Worklist := ⟨items, items.reverse⟩

/-- An item that is new to the set is to be expanded. -/
def insert (worklist : Worklist) (item : Item) : Worklist :=
  if item ∈ worklist.items then worklist
  else ⟨Ascending.insert item worklist.items, item :: worklist.pending⟩

/-- Inserts all that an item calls for. -/
def expand (construction : Construction) (worklist : Worklist) (item : Item) : Worklist :=
  (construction.closureStep item).foldl insert worklist

/-- Takes the next item off the list and expands it. -/
def pop (construction : Construction) (worklist : Worklist) : Worklist :=
  match worklist.pending with
  | [] => worklist
  | item :: pending => expand construction ⟨worklist.items, pending⟩ item

/-- Expands as many items as given, or until none is left. -/
def run (construction : Construction) : (steps : Nat) → Worklist → Worklist
  | 0, worklist => worklist
  | steps + 1, worklist => run construction steps (worklist.pop construction)

/-- As many items are taken off as given, any one of those pending each time, and expanded. -/
inductive Takes (construction : Construction) : Nat → Worklist → Worklist → Prop where
  | none (worklist : Worklist) : Takes construction 0 worklist worklist
  | more (steps : Nat) (items : ItemSet) (front back : List Item) (item : Item) (after : Worklist)
      (rest : Takes construction steps (expand construction ⟨items, front ++ back⟩ item) after) :
      Takes construction (steps + 1) ⟨items, front ++ item :: back⟩ after

/-- What insertions do to a set and its list: the items called for are in the set, and exactly those
that are new are on the list. -/
structure Adds (called : List Item) (before after : Worklist) : Prop where
  strict : Ascending.Strict before.items → Ascending.Strict after.items
  mem_iff : ∀ item, item ∈ after.items ↔ item ∈ before.items ∨ item ∈ called
  pending : ∀ item, item ∈ after.pending ↔
    item ∈ before.pending ∨ (item ∈ called ∧ item ∉ before.items)
  length_eq : after.items.length + before.pending.length =
    after.pending.length + before.items.length

theorem adds_insert (worklist : Worklist) (item : Item) :
    Adds [item] worklist (worklist.insert item) := by
  unfold insert
  split
  · rename_i old
    refine ⟨fun strict => strict, ?_, ?_, Nat.add_comm _ _⟩
    · intro other
      simp only [List.mem_singleton]
      exact ⟨.inl, fun either => either.elim id fun same => same ▸ old⟩
    · intro other
      simp only [List.mem_singleton]
      exact ⟨.inl, fun either => either.elim id fun ⟨same, new⟩ => absurd (same ▸ old) new⟩
  · rename_i new
    refine ⟨fun strict => Ascending.strict_insert _ _ strict, ?_, ?_, ?_⟩
    · intro other
      simp only [Ascending.mem_insert, List.mem_singleton, or_comm]
    · intro other
      simp only [List.mem_cons, List.not_mem_nil, or_false]
      exact ⟨fun either => either.elim (fun same => .inr ⟨same, same ▸ new⟩) .inl,
        fun either => either.elim .inr fun ⟨same, _⟩ => .inl same⟩
    · simp only [Ascending.length_insert new, List.length_cons]
      omega

theorem Adds.trans {first second : List Item} {before middle after : Worklist}
    (one : Adds first before middle) (two : Adds second middle after) :
    Adds (first ++ second) before after := by
  have lengths := one.length_eq
  have further := two.length_eq
  refine ⟨fun strict => two.strict (one.strict strict), ?_, ?_, by omega⟩
  · intro item
    rw [two.mem_iff, one.mem_iff, List.mem_append, or_assoc]
  · intro item
    rw [two.pending, one.pending, one.mem_iff, List.mem_append]
    by_cases old : item ∈ before.items
    · simp [old]
    · by_cases called : item ∈ first
      · simp [old, called]
      · simp [old, called]

theorem adds_foldl (called : List Item) (worklist : Worklist) :
    Adds called worklist (called.foldl insert worklist) := by
  induction called generalizing worklist with
  | nil => exact ⟨fun strict => strict, by simp, by simp, Nat.add_comm _ _⟩
  | cons item rest ih => exact (adds_insert worklist item).trans (ih _)

variable {construction : Construction} {given : ItemSet} {before after : Worklist} {steps : Nat}

/-- What holds while the closure of the given items is under way: the set lies between the items and
their closure, and all that its members call for is there already unless they are pending. -/
structure Closing (construction : Construction) (given : ItemSet) (worklist : Worklist) : Prop where
  strict : Ascending.Strict worklist.items
  given_mem : ∀ item ∈ given, item ∈ worklist.items
  inside : ∀ item ∈ worklist.items, item ∈ construction.closure given
  pending_mem : ∀ item ∈ worklist.pending, item ∈ worklist.items
  expanded : ∀ item ∈ worklist.items, item ∈ worklist.pending ∨
    ∀ next ∈ construction.closureStep item, next ∈ worklist.items

namespace Closing

theorem start (strict : Ascending.Strict given) : Closing construction given (start given) := by
  refine ⟨strict, fun _ member => member, fun _ => Construction.subset_closure, ?_, ?_⟩
  · intro item member
    exact List.mem_reverse.mp member
  · intro item member
    exact .inl (List.mem_reverse.mpr member)

/-- To expand any of the pending items keeps the invariant. -/
theorem expand (proper : construction.Proper) {items : ItemSet} {front back : List Item}
    {item : Item} (closing : Closing construction given ⟨items, front ++ item :: back⟩) :
    Closing construction given (expand construction ⟨items, front ++ back⟩ item) := by
  have adds := adds_foldl (construction.closureStep item) ⟨items, front ++ back⟩
  have member : item ∈ items := closing.pending_mem item (by simp)
  refine ⟨adds.strict closing.strict, ?_, ?_, ?_, ?_⟩
  · intro other inGiven
    exact (adds.mem_iff other).mpr (.inl (closing.given_mem other inGiven))
  · intro other inside
    rcases (adds.mem_iff other).mp inside with old | called
    · exact closing.inside other old
    · exact proper.closure_closed (closing.inside item member) called
  · intro other isPending
    rcases (adds.pending other).mp isPending with old | ⟨called, _⟩
    · refine (adds.mem_iff other).mpr (.inl (closing.pending_mem other ?_))
      simp only [List.mem_append, List.mem_cons] at old ⊢
      exact old.elim .inl fun later => .inr (.inr later)
    · exact (adds.mem_iff other).mpr (.inr called)
  · intro other inside
    by_cases same : other = item
    · -- This one has just been expanded.
      subst same
      exact .inr fun next called => (adds.mem_iff next).mpr (.inr called)
    · by_cases old : other ∈ items
      · rcases closing.expanded other old with isPending | done
        · left
          refine (adds.pending other).mpr (.inl ?_)
          simpa [same] using isPending
        · exact .inr fun next called => (adds.mem_iff next).mpr (.inl (done next called))
      · have called := ((adds.mem_iff other).mp inside).resolve_left old
        exact .inl ((adds.pending other).mpr (.inr ⟨called, old⟩))

/-- Once nothing is pending, the set is the closure. -/
theorem items_eq (proper : construction.Proper) (strict : Ascending.Strict given)
    (closing : Closing construction given after) (finished : after.pending = []) :
    after.items = construction.closure given := by
  apply closing.strict.ext (proper.strict_closure strict)
  intro item
  constructor
  · exact closing.inside item
  · have closed : ∀ other ∈ after.items, ∀ next ∈ construction.closureStep other,
        next ∈ after.items := by
      intro other member
      refine (closing.expanded other member).resolve_left ?_
      rw [finished]
      exact List.not_mem_nil
    exact Construction.closure_least proper.inRange closed closing.given_mem item

end Closing

namespace Takes

/-- The invariant is kept in any order, and every step takes one member off the list for good. -/
theorem closing (proper : construction.Proper) (takes : Takes construction steps before after)
    (closing : Closing construction given before) :
    Closing construction given after ∧
      after.items.length + before.pending.length =
        after.pending.length + before.items.length + steps := by
  induction takes with
  | none worklist => exact ⟨closing, Nat.add_comm _ _⟩
  | more steps items front back item after _ ih =>
      obtain ⟨kept, lengths⟩ := ih (closing.expand proper)
      have balance : (Worklist.expand construction ⟨items, front ++ back⟩ item).items.length +
          (front ++ back).length =
          (Worklist.expand construction ⟨items, front ++ back⟩ item).pending.length +
            items.length := (adds_foldl _ _).length_eq
      refine ⟨kept, ?_⟩
      simp only [List.length_append, List.length_cons] at balance ⊢
      omega

variable (proper : construction.Proper) (strict : Ascending.Strict given)
  (takes : Takes construction steps (start given) after)

include proper strict takes

/-- From the start, the members of the set are those expanded and those pending. -/
theorem length_eq : after.items.length = after.pending.length + steps := by
  have lengths := (takes.closing proper (.start strict)).2
  simp only [start, List.length_reverse] at lengths
  omega

theorem steps_le : steps ≤ (construction.closure given).length := by
  have closing := (takes.closing proper (.start strict)).1
  have few := closing.strict.length_le closing.inside
  have lengths := takes.length_eq proper strict
  omega

theorem items_eq (finished : after.pending = []) :
    after.items = construction.closure given :=
  (takes.closing proper (.start strict)).1.items_eq proper strict finished

end Takes

theorem run_of_finished {worklist : Worklist} (finished : worklist.pending = []) (steps : Nat) :
    worklist.run construction steps = worklist := by
  induction steps with
  | zero => rfl
  | succ steps ih =>
      rw [run, pop, finished]
      exact ih

/-- To take the next item off the list each time is one of the orders. -/
theorem exists_takes (construction : Construction) (steps : Nat) (worklist : Worklist) :
    ∃ taken, Takes construction taken worklist (worklist.run construction steps) ∧
      (taken = steps ∨ (worklist.run construction steps).pending = []) := by
  induction steps generalizing worklist with
  | zero => exact ⟨0, .none worklist, .inl rfl⟩
  | succ steps ih =>
      obtain ⟨items, pending⟩ := worklist
      cases pending with
      | nil =>
          rw [run_of_finished rfl]
          exact ⟨0, .none _, .inr rfl⟩
      | cons item rest =>
          obtain ⟨taken, takes, ends⟩ := ih (expand construction ⟨items, rest⟩ item)
          refine ⟨taken + 1, .more taken items [] rest item _ takes, ?_⟩
          exact ends.imp (congrArg (· + 1)) id

/-- There is one step for each member of the closure. -/
theorem run_start (proper : construction.Proper) (strict : Ascending.Strict given) :
    (start given).run construction (construction.closure given).length =
      ⟨construction.closure given, []⟩ := by
  obtain ⟨taken, takes, ends⟩ := exists_takes construction (construction.closure given).length
    (start given)
  have finished : ((start given).run construction
      (construction.closure given).length).pending = [] := by
    rcases ends with all | finished
    · have closing := (takes.closing proper (.start strict)).1
      have few := closing.strict.length_le closing.inside
      have lengths := takes.length_eq proper strict
      exact List.eq_nil_of_length_eq_zero (by omega)
    · exact finished
  exact Worklist.ext (takes.items_eq proper strict finished) finished

end Worklist

namespace Construction

variable {construction : Construction} {items more : ItemSet}

/-- The set holds whatever its members call for. -/
def Closed (construction : Construction) (items : Set Item) : Prop :=
  ∀ item ∈ items, ∀ next ∈ construction.closureStep item, next ∈ items

theorem Proper.isLeast_closure (proper : construction.Proper) (items : ItemSet) :
    IsLeast {closed : Set Item | (∀ item ∈ items, item ∈ closed) ∧ construction.Closed closed}
      {item | item ∈ construction.closure items} := by
  refine ⟨⟨fun _ => subset_closure, ?_⟩, ?_⟩
  · intro item member next called
    exact proper.closure_closed member called
  · rintro closed ⟨holds, calls⟩ item member
    exact closure_least proper.inRange calls holds item member

theorem Proper.closure_mono (proper : construction.Proper) (below : ∀ item ∈ items, item ∈ more) :
    ∀ item ∈ construction.closure items, item ∈ construction.closure more :=
  closure_least proper.inRange (fun _ inside _ called => proper.closure_closed inside called)
    fun item member => subset_closure (below item member)

theorem Proper.closure_closure (proper : construction.Proper) (strict : Ascending.Strict items) :
    construction.closure (construction.closure items) = construction.closure items := by
  have closed := proper.strict_closure strict
  apply (proper.strict_closure closed).ext closed
  intro item
  constructor
  · exact closure_least proper.inRange (fun _ inside _ called => proper.closure_closed inside called)
      (fun _ member => member) item
  · exact subset_closure

theorem Proper.closure_union (proper : construction.Proper) (strict : Ascending.Strict items)
    (moreStrict : Ascending.Strict more) :
    construction.closure (Ascending.union items more) =
      Ascending.union (construction.closure items) (construction.closure more) := by
  apply (proper.strict_closure (Ascending.strict_union _ _ strict moreStrict)).ext
    (Ascending.strict_union _ _ (proper.strict_closure strict) (proper.strict_closure moreStrict))
  intro item
  rw [Ascending.mem_union]
  constructor
  · have given : ∀ other ∈ Ascending.union items more,
        other ∈ construction.closure items ∨ other ∈ construction.closure more := by
      intro other member
      exact ((Ascending.mem_union other _ _).mp member).imp subset_closure subset_closure
    refine closure_least proper.inRange ?_ given item
    rintro caller (left | right) next called
    · exact .inl (proper.closure_closed left called)
    · exact .inr (proper.closure_closed right called)
  · rintro (left | right)
    · exact proper.closure_mono (fun other member =>
        (Ascending.mem_union other _ _).mpr (.inl member)) item left
    · exact proper.closure_mono (fun other member =>
        (Ascending.mem_union other _ _).mpr (.inr member)) item right

/-- Items of productions of the grammar call only for such items. -/
theorem closure_lt (inRange : construction.grammar.InRange) (known : ∀ item ∈ items,
      item.production < construction.grammar.productions.length) :
    ∀ item ∈ construction.closure items,
      item.production < construction.grammar.productions.length := by
  refine closure_least inRange ?_ known
  intro item _ next called
  obtain ⟨target, rest, index, token, _, headed, _, rfl⟩ := mem_closureStep.mp called
  obtain ⟨production, found, _⟩ := Option.map_eq_some_iff.mp
    (inRange.mem_productionsOf.mp headed)
  exact (List.getElem?_eq_some_iff.mp found).1

/-- Over a grammar with productions, and with any token for the end of input, item sets can be
built. -/
theorem proper_ofGrammar {grammar : Grammar} (inRange : grammar.InRange)
    (nonempty : grammar.productions ≠ []) (eof : Nat) : (ofGrammar grammar eof).Proper := by
  refine ⟨inRange, rfl, ?_⟩
  change (grammar.productionsOf grammar.start).headD 0 < grammar.productions.length
  cases listed : grammar.productionsOf grammar.start with
  | nil => exact List.length_pos_iff.mpr nonempty
  | cons first rest =>
      have member : first ∈ grammar.productionsOf grammar.start := listed ▸ List.mem_cons_self
      obtain ⟨production, found, _⟩ := Option.map_eq_some_iff.mp
        (inRange.mem_productionsOf.mp member)
      exact (List.getElem?_eq_some_iff.mp found).1

end Construction

theorem Description.productions_ne_nil {description : Description} {grammar : Grammar}
    (built : description.build = .ok grammar) : grammar.productions ≠ [] := by
  intro empty
  obtain ⟨_, _, resolved, _⟩ := build_ok built
  rw [resolveRules_eq, empty] at resolved
  split at resolved
  · cases resolved
  · have none : description.rules = [] :=
      List.map_eq_nil_iff.mp (congrArg Prod.fst (Except.ok.inj resolved))
    rw [build, none] at built
    cases built

/-- For a grammar that was built, augmented or not, and any set of items of its productions, the
worklist ends with the closure after one step for each of its members, and in any other order of
expansion with the same set. The closure is the least set that holds the items and whatever its
members call for; so it is idempotent, and keeps inclusion and union. -/
theorem Worklist.run_closure {description : Description} {grammar : Grammar}
    {construction : Construction} (built : description.build = .ok grammar) (eof : Nat)
    (kind : construction = .ofGrammar grammar eof ∨
      construction = .ofGrammar grammar.augment.grammar eof)
    (items : ItemSet) (strict : Ascending.Strict items)
    (known : ∀ item ∈ items, item.production < construction.grammar.productions.length) :
    (start items).run construction (construction.closure items).length =
      ⟨construction.closure items, []⟩ ∧
    (∀ steps after, Takes construction steps (start items) after →
      steps ≤ (construction.closure items).length ∧
        (after.pending = [] → after.items = construction.closure items)) ∧
    (∀ item ∈ construction.closure items,
      item.production < construction.grammar.productions.length) ∧
    IsLeast {closed : Set Item | (∀ item ∈ items, item ∈ closed) ∧ construction.Closed closed}
      {item | item ∈ construction.closure items} ∧
    construction.closure (construction.closure items) = construction.closure items ∧
    ∀ more : ItemSet, Ascending.Strict more →
      ((∀ item ∈ items, item ∈ more) →
        ∀ item ∈ construction.closure items, item ∈ construction.closure more) ∧
      construction.closure (Ascending.union items more) =
        Ascending.union (construction.closure items) (construction.closure more) := by
  have wellFormed := Description.wellFormed_of_build built
  have nonempty := Description.productions_ne_nil built
  have proper : construction.Proper := by
    rcases kind with rfl | rfl
    · exact Construction.proper_ofGrammar wellFormed.toInRange nonempty eof
    · apply Construction.proper_ofGrammar wellFormed.construction_inRange
      exact List.append_ne_nil_of_left_ne_nil nonempty _
  refine ⟨run_start proper strict, ?_, Construction.closure_lt proper.inRange known,
    proper.isLeast_closure items, proper.closure_closure strict, ?_⟩
  · intro steps after takes
    exact ⟨takes.steps_le proper strict, takes.items_eq proper strict⟩
  · intro more moreStrict
    exact ⟨proper.closure_mono, proper.closure_union strict moreStrict⟩

/-- The dot of one item is far past its body, and the lookahead of the other is no token. -/
theorem Worklist.run_closure_paired :
    Description.paired.build = .ok .paired ∧
    (start [⟨0, 0, 4294967295⟩, ⟨3, 5, 0⟩]).run (.ofGrammar Grammar.paired.augment.grammar 2) 4 =
      ⟨[⟨0, 0, 0⟩, ⟨0, 0, 4294967295⟩, ⟨1, 0, 0⟩, ⟨3, 5, 0⟩], []⟩ ∧
    ∀ steps after, Takes (.ofGrammar Grammar.paired.augment.grammar 2) steps
      (start [⟨0, 0, 4294967295⟩, ⟨3, 5, 0⟩]) after → steps ≤ 4 ∧
        (after.pending = [] →
          after.items = [⟨0, 0, 0⟩, ⟨0, 0, 4294967295⟩, ⟨1, 0, 0⟩, ⟨3, 5, 0⟩]) := by
  have built : Description.paired.build = .ok .paired := by decide +kernel
  have closed : (Construction.ofGrammar Grammar.paired.augment.grammar 2).closure
      [⟨0, 0, 4294967295⟩, ⟨3, 5, 0⟩] =
      [⟨0, 0, 0⟩, ⟨0, 0, 4294967295⟩, ⟨1, 0, 0⟩, ⟨3, 5, 0⟩] := by decide +kernel
  have strict : Ascending.Strict [(⟨0, 0, 4294967295⟩ : Item), ⟨3, 5, 0⟩] := by
    unfold Ascending.Strict
    decide
  obtain ⟨ends, orders, _⟩ := Worklist.run_closure built 2 (.inr rfl) _ strict (by decide)
  rw [closed] at ends orders
  exact ⟨built, ends, orders⟩

end ThreeAddress

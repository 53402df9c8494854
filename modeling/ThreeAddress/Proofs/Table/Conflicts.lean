import ThreeAddress.Proofs.Grammar.Augmented
import ThreeAddress.Proofs.Grammar.Description
import ThreeAddress.Proofs.Stack

/-!
The tables answer the demands of the items. On each token the least of the items that demand an
action gets it, and every other action that is demanded there is reported once, with the action that
was kept in its place.
-/

set_option autoImplicit false

namespace ThreeAddress

theorem nodup_eraseDups {α : Type} [DecidableEq α] (values : List α) : values.eraseDups.Nodup := by
  induction values using List.reverseRecOn with
  | nil => exact List.nodup_nil
  | append_singleton earlier value ih =>
      rw [Description.eraseDups_concat]
      by_cases old : value ∈ earlier
      · rwa [if_pos old]
      · rw [if_neg old]
        refine List.nodup_append.mpr ⟨ih, List.pairwise_singleton _ _, ?_⟩
        rintro first member second last rfl
        exact old (List.mem_singleton.mp last ▸ List.mem_eraseDups.mp member)

namespace Write

variable {α : Type} {writes : List (Write α)} {cell : Nat} {kept value : α}

/-- Of the values that items write, a cell keeps that of the first one to write there. -/
theorem exists_first {items : List Item} {write? : Item → Option (Write α)}
    (found : kept? (items.filterMap write?) cell = some value) :
    ∃ before item after, items = before ++ item :: after ∧ write? item = some ⟨cell, value⟩ ∧
      ∀ other ∈ before, ∀ different, write? other ≠ some ⟨cell, different⟩ := by
  obtain ⟨write, first, rfl⟩ := Option.map_eq_some_iff.mp found
  have same : write.cell = cell := by simpa using List.find?_some first
  rw [List.find?_filterMap] at first
  obtain ⟨item, chosen, written⟩ := Option.bind_eq_some_iff.mp first
  obtain ⟨_, before, after, split, passed⟩ := List.find?_eq_some_iff_append.mp chosen
  refine ⟨before, item, after, split, by rw [written, ← same], ?_⟩
  intro other member different also
  have missed := passed other member
  rw [also] at missed
  simp at missed

end Write

theorem Collection.lt_size_of_mem_itemsAt {collection : Collection} {state : Nat} {item : Item}
    (member : item ∈ collection.itemsAt state) : state < collection.size := by
  by_contra outside
  have none : collection.sets[state]? = none := Array.getElem?_eq_none (Nat.le_of_not_lt outside)
  rw [itemsAt, Array.getD_eq_getD_getElem?, none] at member
  cases member

namespace Construction

variable {construction : Construction} {collection : Collection} {state token : Nat}
  {item other : Item} {action different : Action}

namespace Demands

variable (demands : construction.Demands collection state item token action)

include demands

/-- An item demands to shift over the transition of its state, or it is complete there and demands
to reduce by its production. -/
theorem shift_or_ends :
    (∃ target, action = .shift target ∧
      (collection.transitionsAt state).lookup (.token token) = some target) ∨
    (construction.Ends collection state token item ∧ (∀ target, action ≠ .shift target) ∧
      construction.reducedProduction action = item.production) := by
  cases demands with
  | shift _ target _ _ enters => exact .inl ⟨target, rfl, enters⟩
  | accept ends outermost => exact .inr ⟨ends, by simp, outermost.symm⟩
  | reduce _ ends _ => exact .inr ⟨ends, by simp, rfl⟩

/-- Complete items of one production do not compete. -/
theorem eq_of_production (ends : construction.Ends collection state token item)
    (otherEnds : construction.Ends collection state token other)
    (same : item.production = other.production)
    (also : construction.Demands collection state other token different) : different = action := by
  have first := (demands_iff.mp demands).2
  have second := (demands_iff.mp also).2
  rw [actionWrite?, ends.2.1] at first
  rw [actionWrite?, otherEnds.2.1] at second
  simp only [ends.2.2, otherEnds.2.2, same] at first second
  rw [second] at first
  cases first
  rfl

end Demands

/-- What the items of a state decide on for a token: the action that the least item demands, or an
error if none of them demands any. -/
inductive Decides (construction : Construction) (collection : Collection) (state token : Nat) :
    Action → Prop where
  | idle (none : ∀ item action, ¬construction.Demands collection state item token action) :
      Decides construction collection state token .error
  | least (item : Item) (action : Action)
      (demands : construction.Demands collection state item token action)
      (least : ∀ other different, construction.Demands collection state other token different →
        (compare item other).isLE) :
      Decides construction collection state token action

end Construction

/-- An action turned away in a cell of the action table, with the one kept in its place. -/
structure Refusal where
  state : Nat
  token : Nat
  kept : Action
  refused : Action
deriving Repr, DecidableEq

/-- The record of a refusal. Where one of the two actions is a shift, it has the target of that
shift and the production of the other, which is complete in the state; else it has the productions
of both, of which the first is the smaller. -/
inductive Construction.Reports (construction : Construction) (collection : Collection) :
    Refusal → Conflict → Prop where
  | shiftReduce (refusal : Refusal) (target : Nat) (item : Item)
      (enters : (collection.transitionsAt refusal.state).lookup (.token refusal.token) =
        some target)
      (ends : construction.Ends collection refusal.state refusal.token item)
      (either : (refusal.kept = .shift target ∧
          construction.Demands collection refusal.state item refusal.token refusal.refused) ∨
        (refusal.refused = .shift target ∧
          construction.Demands collection refusal.state item refusal.token refusal.kept)) :
      Reports construction collection refusal (.shiftReduce
        { state := refusal.state
          token := construction.grammar.tokenName refusal.token
          shift := target
          reduce := construction.grammar.productionTextAt item.production
          production := item.production
          kept := refusal.kept
          items := collection.itemTexts construction.grammar refusal.state })
  | reduceReduce (refusal : Refusal) (first second : Item)
      (firstEnds : construction.Ends collection refusal.state refusal.token first)
      (secondEnds : construction.Ends collection refusal.state refusal.token second)
      (keeps : construction.Demands collection refusal.state first refusal.token refusal.kept)
      (refuses : construction.Demands collection refusal.state second refusal.token refusal.refused)
      (smaller : first.production < second.production) :
      Reports construction collection refusal (.reduceReduce
        { state := refusal.state
          lookahead := construction.grammar.tokenName refusal.token
          reduce1 := construction.grammar.productionTextAt first.production
          reduce2 := construction.grammar.productionTextAt second.production
          production1 := first.production
          production2 := second.production
          kept := refusal.kept
          items := collection.itemTexts construction.grammar refusal.state })

namespace Construction

variable {construction : Construction} {state token target : Nat} {items : List String}
  {kept refused : Action}

theorem actionConflict_of_kept_shift (construction : Construction) (state token target : Nat)
    (items : List String) (refused : Action) :
    construction.actionConflict state items ⟨token, (.shift target, refused)⟩ =
      .shiftReduce
        ⟨state, construction.grammar.tokenName token, target,
          construction.grammar.productionTextAt (construction.reducedProduction refused),
          construction.reducedProduction refused, .shift target, items⟩ := by
  cases refused <;> rfl

theorem actionConflict_of_refused_shift (keeps : ∀ state, kept ≠ .shift state) :
    construction.actionConflict state items ⟨token, (kept, .shift target)⟩ =
      .shiftReduce
        ⟨state, construction.grammar.tokenName token, target,
          construction.grammar.productionTextAt (construction.reducedProduction kept),
          construction.reducedProduction kept, kept, items⟩ := by
  cases kept with
  | shift state => exact absurd rfl (keeps state)
  | error => rfl
  | reduce production => rfl
  | accept => rfl

theorem actionConflict_of_reductions (keeps : ∀ state, kept ≠ .shift state)
    (refuses : ∀ state, refused ≠ .shift state) :
    construction.actionConflict state items ⟨token, (kept, refused)⟩ =
      .reduceReduce
        ⟨state, construction.grammar.tokenName token,
          construction.grammar.productionTextAt (construction.reducedProduction kept),
          construction.grammar.productionTextAt (construction.reducedProduction refused),
          construction.reducedProduction kept, construction.reducedProduction refused, kept,
          items⟩ := by
  cases kept with
  | shift state => exact absurd rfl (keeps state)
  | error | reduce production | accept =>
      cases refused with
      | shift state => exact absurd rfl (refuses state)
      | error | reduce production | accept => rfl

/-- What is demanded beside the action decided on is reported. -/
theorem Decides.reports {collection : Collection} {refusal : Refusal} {second : Item}
    (decides : construction.Decides collection refusal.state refusal.token refusal.kept)
    (refuses : construction.Demands collection refusal.state second refusal.token refusal.refused)
    (apart : refusal.refused ≠ refusal.kept) :
    construction.Reports collection refusal
      (construction.actionConflict refusal.state
        (collection.itemTexts construction.grammar refusal.state)
        ⟨refusal.token, (refusal.kept, refusal.refused)⟩) := by
  obtain ⟨state, token, kept, refused⟩ := refusal
  cases decides with
  | idle none => exact absurd refuses (none second _)
  | least first _ keeps least =>
      rcases keeps.shift_or_ends with ⟨target, rfl, enters⟩ | ⟨firstEnds, firstReduces, firstBy⟩
      · rw [actionConflict_of_kept_shift]
        rcases refuses.shift_or_ends with ⟨other, rfl, also⟩ | ⟨secondEnds, _, secondBy⟩
        · rw [enters] at also
          cases also
          exact absurd rfl apart
        · rw [secondBy]
          exact .shiftReduce ⟨state, token, _, refused⟩ target second enters secondEnds
            (.inl ⟨rfl, refuses⟩)
      · rcases refuses.shift_or_ends with ⟨target, rfl, enters⟩ | ⟨secondEnds, reduces, secondBy⟩
        · rw [actionConflict_of_refused_shift firstReduces, firstBy]
          exact .shiftReduce ⟨state, token, kept, _⟩ target first enters firstEnds
            (.inr ⟨rfl, keeps⟩)
        · rw [actionConflict_of_reductions firstReduces reduces, firstBy, secondBy]
          refine .reduceReduce ⟨state, token, kept, refused⟩ first second firstEnds secondEnds keeps
            refuses ?_
          -- With one production the two items would demand the same.
          have differ : first.production ≠ second.production := fun same =>
            apart (keeps.eq_of_production firstEnds secondEnds same refuses)
          have below := Item.production_le_of_isLE (least second refused refuses)
          omega

end Construction

namespace Tables

variable {construction : Construction} {collection : Collection} {state token : Nat}

/-- The tables say what the items demand, and the conflicts what was turned away. -/
structure Exact (construction : Construction) (collection : Collection) (tables : Tables) :
    Prop where
  /-- Whatever comes after a dot, there is a transition over it. -/
  leads : ∀ state, ∀ item ∈ collection.itemsAt state, ∀ symbol,
    item.nextSymbol construction.grammar = some symbol →
      ∃ target < collection.size, (collection.transitionsAt state).lookup symbol = some target
  action : ∀ state < collection.size, ∀ token < construction.grammar.tokens.length,
    ∃ action, ParseTable.cell tables.action state token = .ok action ∧
      construction.Decides collection state token action
  /-- There is one record for each action demanded but not kept, and there is no other. -/
  conflicts : ∃ refusals : List Refusal, refusals.Nodup ∧
    (∀ refusal, refusal ∈ refusals ↔
      ParseTable.cell tables.action refusal.state refusal.token = .ok refusal.kept ∧
      refusal.refused ≠ refusal.kept ∧ ∃ item,
        construction.Demands collection refusal.state item refusal.token refusal.refused) ∧
    List.Forall₂ (construction.Reports collection) refusals tables.conflicts
  goto : ∀ state < collection.size, ∀ id < construction.grammar.nonterminals.length,
    ParseTable.cell tables.goto state id =
      .ok ((collection.transitionsAt state).lookup (.nonterminal id))
  no_goto : ∀ clash, .goto clash ∉ tables.conflicts

/-- The first item to write to a cell is the least one. -/
theorem decides_kept? (strict : Ascending.Strict (collection.itemsAt state)) :
    construction.Decides collection state token
      ((Write.kept? (actionWrites construction collection state) token).getD .error) := by
  cases found : Write.kept? (actionWrites construction collection state) token with
  | none =>
      refine .idle fun item action demands => ?_
      obtain ⟨kept, also⟩ := Write.exists_kept? (mem_actionWrites_iff_demands.mpr ⟨item, demands⟩)
      rw [found] at also
      cases also
  | some action =>
      obtain ⟨before, item, after, split, written, passed⟩ := Write.exists_first found
      have member : item ∈ collection.itemsAt state := by
        rw [split]
        simp
      refine .least item action (Construction.demands_iff.mpr ⟨member, written⟩) ?_
      intro other different demands
      obtain ⟨otherMember, otherWritten⟩ := Construction.demands_iff.mp demands
      rw [split] at otherMember strict
      rcases List.mem_append.mp otherMember with early | late
      · exact absurd otherWritten (passed other early different)
      · rcases List.mem_cons.mp late with rfl | later
        · rw [Std.compare_self]
          rfl
        · have ordered := (List.pairwise_append.mp strict).2.1
          rw [(List.pairwise_cons.mp ordered).1 other later]
          rfl

theorem goto_cell_eq_lookup (complete : Collection.Complete construction collection)
    {items : ItemSet} (holds : collection.sets[state]? = some items) {id : Nat}
    (inside : id < construction.grammar.nonterminals.length) :
    ParseTable.cell (fill construction collection).goto state id =
      .ok ((collection.transitionsAt state).lookup (.nonterminal id)) := by
  refine (goto_cell holds).mpr ⟨inside, Option.ext fun target => ?_⟩
  have entry : ParseTable.cell (fill construction collection).goto state id = .ok (some target) ↔
      _ := goto_cell_iff complete holds
  rw [goto_cell holds, and_congr_right_iff] at entry
  rw [entry inside, complete.lookup_iff holds]

/-- No two items disagree where a nonterminal leads. -/
theorem gotoConflicts_eq_nil (complete : Collection.Complete construction collection)
    {items : ItemSet} (holds : collection.sets[state]? = some items) :
    gotoConflicts construction collection state = [] := by
  refine List.map_eq_nil_iff.mpr (List.eq_nil_iff_forall_not_mem.mpr ?_)
  rintro ⟨id, kept, value⟩ turned
  obtain ⟨found, listed, apart⟩ := Write.mem_clashes.mp turned
  have member := List.mem_of_mem_filter listed
  have kept := List.mem_of_mem_filter (Write.mem_of_kept? found)
  have first := (complete.lookup_iff holds).mpr
    ((mem_gotoWrites complete holds).mp kept)
  have second := (complete.lookup_iff holds).mpr ((mem_gotoWrites complete holds).mp member)
  exact apart (Option.some.inj (second.symm.trans first))

theorem fillChecked_eq_ok (inside : ∀ state token action,
      ⟨token, action⟩ ∈ actionWrites construction collection state →
        token < construction.grammar.tokens.length) :
    fillChecked construction collection = .ok (fill construction collection) := by
  have none : strayWrite? construction collection = none := by
    refine List.find?_eq_none.mpr ?_
    rintro ⟨token, action⟩ written
    obtain ⟨state, _, member⟩ := List.mem_flatMap.mp written
    rw [decide_eq_true_eq]
    exact Nat.not_le_of_lt (inside state token action member)
  rw [fillChecked, none]

/-- The refusals of all states in order. -/
def refusals (construction : Construction) (collection : Collection) : List Refusal :=
  (List.range collection.size).flatMap fun state =>
    (Write.rejected (actionWrites construction collection state)).map fun clash =>
      ⟨state, clash.cell, clash.value.1, clash.value.2⟩

theorem mem_refusals {refusal : Refusal} : refusal ∈ refusals construction collection ↔
    refusal.state < collection.size ∧
      Write.kept? (actionWrites construction collection refusal.state) refusal.token =
        some refusal.kept ∧
      ⟨refusal.token, refusal.refused⟩ ∈ actionWrites construction collection refusal.state ∧
      refusal.refused ≠ refusal.kept := by
  rw [refusals, List.mem_flatMap]
  constructor
  · rintro ⟨state, inside, listed⟩
    obtain ⟨⟨token, kept, refused⟩, turned, rfl⟩ := List.mem_map.mp listed
    exact ⟨List.mem_range.mp inside, Write.mem_rejected.mp turned⟩
  · rintro ⟨inside, turned⟩
    exact ⟨refusal.state, List.mem_range.mpr inside,
      List.mem_map.mpr ⟨_, Write.mem_rejected.mpr turned, rfl⟩⟩

theorem nodup_refusals (construction : Construction) (collection : Collection) :
    (refusals construction collection).Nodup := by
  refine List.nodup_flatMap.mpr ⟨?_, ?_⟩
  · intro state _
    refine List.Nodup.map ?_ (nodup_eraseDups _)
    rintro ⟨token, kept, refused⟩ ⟨other, value, different⟩ same
    cases same
    rfl
  · refine List.Pairwise.imp ?_ List.nodup_range
    intro first second apart refusal inFirst inSecond
    obtain ⟨_, _, rfl⟩ := List.mem_map.mp inFirst
    obtain ⟨_, _, same⟩ := List.mem_map.mp inSecond
    exact apart (congrArg Refusal.state same).symm

/-- The conflicts are the records of the refusals. -/
theorem conflicts_eq (complete : Collection.Complete construction collection)
    (inside : ∀ state token action, ⟨token, action⟩ ∈ actionWrites construction collection state →
      token < construction.grammar.tokens.length) :
    (fill construction collection).conflicts =
      (refusals construction collection).map fun refusal =>
        construction.actionConflict refusal.state
          (collection.itemTexts construction.grammar refusal.state)
          ⟨refusal.token, (refusal.kept, refusal.refused)⟩ := by
  have none :
      (List.range collection.size).flatMap (gotoConflicts construction collection) = [] := by
    refine List.flatMap_eq_nil_iff.mpr fun state inside => ?_
    exact gotoConflicts_eq_nil complete (Array.getElem?_eq_getElem (List.mem_range.mp inside))
  simp only [fill_eq, none, List.nil_append, refusals, List.map_flatMap, List.map_map]
  refine List.flatMap_congr fun state _ => ?_
  rw [actionConflicts, Write.within_eq_self fun write => inside state write.cell write.value]
  rfl

theorem lt_size_of_cell {action : Action}
    (entry : ParseTable.cell (fill construction collection).action state token = .ok action) :
    state < collection.size := by
  obtain ⟨_, row, _⟩ := ParseTable.cell_eq_ok.mp entry
  simpa [fill_eq] using (Array.getElem?_eq_some_iff.mp row).1

theorem lt_size_of_goto_cell {id : Nat} {target : Option Nat}
    (entry : ParseTable.cell (fill construction collection).goto state id = .ok target) :
    state < collection.size := by
  obtain ⟨_, row, _⟩ := ParseTable.cell_eq_ok.mp entry
  simpa [fill_eq] using (Array.getElem?_eq_some_iff.mp row).1

section Complete

variable (complete : Collection.Complete construction collection)
  (strict : ∀ state, Ascending.Strict (collection.itemsAt state))
  (inside : ∀ state token action, ⟨token, action⟩ ∈ actionWrites construction collection state →
    token < construction.grammar.tokens.length)

include strict in
theorem decides_of_cell {action : Action}
    (entry : ParseTable.cell (fill construction collection).action state token = .ok action) :
    construction.Decides collection state token action := by
  have holds := Array.getElem?_eq_getElem (lt_size_of_cell entry)
  rw [← ((action_cell holds).mp entry).2]
  exact decides_kept? (strict state)

include inside in
theorem mem_refusals_iff_demands {refusal : Refusal} :
    refusal ∈ refusals construction collection ↔
      ParseTable.cell (fill construction collection).action refusal.state refusal.token =
        .ok refusal.kept ∧
      refusal.refused ≠ refusal.kept ∧
      ∃ item, construction.Demands collection refusal.state item refusal.token refusal.refused := by
  rw [mem_refusals, mem_actionWrites_iff_demands]
  constructor
  · rintro ⟨bound, found, demanded, apart⟩
    have known := inside _ _ _ (Write.mem_of_kept? found)
    refine ⟨(action_cell (Array.getElem?_eq_getElem bound)).mpr ⟨known, ?_⟩, apart, demanded⟩
    rw [found, Option.getD_some]
  · rintro ⟨entry, apart, demanded⟩
    have bound := lt_size_of_cell entry
    obtain ⟨kept, found⟩ := Write.exists_kept? (mem_actionWrites_iff_demands.mpr demanded)
    have same := ((action_cell (Array.getElem?_eq_getElem bound)).mp entry).2
    rw [found, Option.getD_some] at same
    exact ⟨bound, same ▸ found, demanded, apart⟩

include complete strict inside

/-- If all that an item asks for has a cell, the tables of a complete collection are exact. -/
theorem exact_fill : Exact construction collection (fill construction collection) := by
  have reported : ∀ refusal ∈ refusals construction collection,
      construction.Reports collection refusal (construction.actionConflict refusal.state
        (collection.itemTexts construction.grammar refusal.state)
        ⟨refusal.token, (refusal.kept, refusal.refused)⟩) := by
    intro refusal listed
    obtain ⟨entry, apart, item, demands⟩ := (mem_refusals_iff_demands inside).mp listed
    exact (decides_of_cell strict entry).reports demands apart
  constructor
  case leads =>
    intro state item member symbol next
    have bound := Collection.lt_size_of_mem_itemsAt member
    have holds := Array.getElem?_eq_getElem bound
    rw [Collection.Complete.itemsAt_eq holds] at member
    have leads := Construction.goto_ne_nil_iff.mpr ⟨item, member, next⟩
    obtain ⟨target, enters⟩ := complete.exists_enters holds leads
    exact ⟨target, (Array.getElem?_eq_some_iff.mp enters).1,
      (complete.lookup_iff holds).mpr ⟨leads, enters⟩⟩
  case action =>
    intro state bound token known
    have entry := (action_cell (Array.getElem?_eq_getElem bound)).mpr ⟨known, rfl⟩
    exact ⟨_, entry, decides_of_cell strict entry⟩
  case conflicts =>
    refine ⟨refusals construction collection, nodup_refusals construction collection,
      fun refusal => mem_refusals_iff_demands inside, ?_⟩
    rw [conflicts_eq complete inside, List.forall₂_map_right_iff, List.forall₂_same]
    exact reported
  case goto =>
    intro state bound id known
    exact goto_cell_eq_lookup complete (Array.getElem?_eq_getElem bound) known
  case no_goto =>
    intro clash member
    rw [conflicts_eq complete inside] at member
    obtain ⟨refusal, listed, same⟩ := List.mem_map.mp member
    have report := reported refusal listed
    rw [same] at report
    cases report

end Complete

end Tables

/-- An action asked for in the tables of a well-formed grammar is on one of its tokens. -/
theorem Grammar.WellFormed.actionWrites_lt {grammar : Grammar} (wellFormed : grammar.WellFormed)
    (state token : Nat) (action : Action)
    (written : ⟨token, action⟩ ∈
      Tables.actionWrites grammar.construction grammar.construction.collection state) :
    token < grammar.construction.grammar.tokens.length := by
  have complete := wellFormed.proper.collection_complete
  obtain ⟨item, demands⟩ := Tables.mem_actionWrites_iff_demands.mp written
  have member := (Construction.demands_iff.mp demands).1
  have holds := Array.getElem?_eq_getElem (Collection.lt_size_of_mem_itemsAt member)
  rw [Collection.Complete.itemsAt_eq holds] at member
  have ahead := wellFormed.lookahead_lt (complete.reachable_of holds) member
  cases demands with
  | shift _ target _ next _ => exact wellFormed.token_lt next
  | accept ends _ => exact ends.2.2 ▸ ahead
  | reduce _ ends _ => exact ends.2.2 ▸ ahead

/-- A grammar that was built from calls has tables, and they are exact. Since no two tokens have one
name, a conflict names the cell it is about. -/
theorem Tables.fill_exact {calls : List Description.Call} {grammar : Grammar}
    (built : (Description.ofCalls calls).build = .ok grammar) :
    ∃ tables, fillChecked grammar.construction grammar.construction.collection = .ok tables ∧
      (ParseTable.ofGrammar grammar).tables = tables ∧
      grammar.construction.grammar.tokens.Nodup ∧
      Exact grammar.construction grammar.construction.collection tables := by
  have wellFormed := Description.wellFormed_of_build built
  have proper := wellFormed.proper
  have complete := proper.collection_complete
  refine ⟨_, fillChecked_eq_ok wellFormed.actionWrites_lt, rfl,
    Grammar.nodup_augment_tokens (Description.keeps_of_build built).tokens.nodup,
    exact_fill complete ?_ wellFormed.actionWrites_lt⟩
  intro state
  cases holds : grammar.construction.collection.sets[state]? with
  | none =>
      rw [Collection.itemsAt, Array.getD_eq_getD_getElem?, holds]
      exact Ascending.strict_nil
  | some items =>
      rw [Collection.Complete.itemsAt_eq holds]
      exact (complete.reachable_of holds).strict proper

/-- Any number of `a`, with a rule that leads nowhere. -/
def Description.idle : List Description.Call :=
  [.token "a", .rule "S" ["S", "a"], .rule "S" ["S"], .rule "S" []]

def Grammar.idle : Grammar :=
  ⟨["a"], ["S"], [⟨0, [.nonterminal 0, .token 0]⟩, ⟨0, [.nonterminal 0]⟩, ⟨0, []⟩],
    ⟨[(0, [0, 1, 2])]⟩, 0⟩

/-- After an `S` the idle rule is turned away before an `a`, and at the end of input it is kept
although the start production would accept. -/
theorem Tables.fill_exact_idle :
    (Description.ofCalls Description.idle).build = .ok .idle ∧
    ∃ tables, fillChecked Grammar.idle.construction Grammar.idle.construction.collection =
        .ok tables ∧
      Exact Grammar.idle.construction Grammar.idle.construction.collection tables ∧
      ParseTable.cell tables.action 1 0 = .ok (.shift 2) ∧
      ParseTable.cell tables.action 1 1 = .ok (.reduce 1) ∧
      tables.conflicts =
        [.shiftReduce ⟨1, "a", 2, "S -> S", 1, .shift 2,
            ["S -> S . a, a", "S -> S . a, $", "S -> S ., a", "S -> S ., $", "S' -> S ., $"]⟩,
          .reduceReduce ⟨1, "$", "S -> S", "S' -> S", 1, 3, .reduce 1,
            ["S -> S . a, a", "S -> S . a, $", "S -> S ., a", "S -> S ., $", "S' -> S ., $"]⟩] := by
  have built : (Description.ofCalls Description.idle).build = .ok .idle := by decide +kernel
  obtain ⟨tables, filled, rfl, _, answers⟩ := Tables.fill_exact built
  refine ⟨built, _, filled, answers, ?_, ?_, ?_⟩
  · decide +kernel
  · decide +kernel
  · decide +kernel

end ThreeAddress

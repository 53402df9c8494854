import ThreeAddress.Proofs.Collection

/-!
Outlines: what is left of item sets without their lookaheads. There are far fewer of them, so they
can be listed where the item sets are too many, and every item set that reading reaches lies within
one of the list. Together with the tokens that can follow each nonterminal at all, they bound which
items can compete for a lookahead.
-/

set_option autoImplicit false

namespace ThreeAddress

/-- All that can be reached from the elements to visit, if `fuel` visits are enough. -/
def reach {α : Type} [DecidableEq α] (next : α → List α) :
    (fuel : Nat) → (todo seen : List α) → Option (List α)
  | _, [], seen => some seen
  | 0, _ :: _, _ => none
  | fuel + 1, first :: todo, seen =>
    if first ∈ seen then reach next fuel todo seen
    else reach next fuel (next first ++ todo) (first :: seen)

/-- What is reached holds what was seen and what was to be visited, and all that comes next after
its elements. -/
theorem reach_closed {α : Type} [DecidableEq α] {next : α → List α} {fuel : Nat}
    {todo seen all : List α} (reached : reach next fuel todo seen = some all)
    (kept : ∀ element ∈ seen, ∀ other ∈ next element, other ∈ seen ∨ other ∈ todo) :
    (∀ element, element ∈ seen ∨ element ∈ todo → element ∈ all) ∧
      ∀ element ∈ all, ∀ other ∈ next element, other ∈ all := by
  induction fuel, todo, seen using reach.induct next with
  | case1 fuel seen =>
      rw [reach] at reached
      cases reached
      simpa using kept
  | case2 => cases reached
  | case3 fuel first todo seen old ih =>
      rw [reach, if_pos old] at reached
      have later : ∀ element ∈ seen, ∀ other ∈ next element, other ∈ seen ∨ other ∈ todo := by
        grind
      obtain ⟨held, closed⟩ := ih reached later
      exact ⟨by grind, closed⟩
  | case4 fuel first todo seen new ih =>
      rw [reach, if_neg new] at reached
      have later : ∀ element ∈ first :: seen, ∀ other ∈ next element,
          other ∈ first :: seen ∨ other ∈ next first ++ todo := by
        grind
      obtain ⟨held, closed⟩ := ih reached later
      exact ⟨by grind, closed⟩

/-- An item without its lookahead. -/
structure Core where
  production : Nat
  dot : Nat
deriving Repr, DecidableEq

def Item.core (item : Item) : Core := ⟨item.production, item.dot⟩

namespace Core

/-- The symbol right after the dot. -/
def next (grammar : Grammar) (core : Core) : Option Symbol :=
  (grammar.bodyOf core.production)[core.dot]?

/-- The nonterminal right after the dot. -/
def calls? (grammar : Grammar) (core : Core) : Option Nat :=
  match core.next grammar with
  | some (.nonterminal id) => some id
  | _ => none

def advance (core : Core) : Core := { core with dot := core.dot + 1 }

theorem calls?_of_next {grammar : Grammar} {core : Core} {id : Nat}
    (next : core.next grammar = some (.nonterminal id)) : core.calls? grammar = some id := by
  rw [calls?, next]

end Core

namespace Grammar

/-- The places of a symbol in all bodies: the cores with their dot before it. -/
def places (grammar : Grammar) (symbol : Symbol) : List Core :=
  (List.range grammar.productions.length).flatMap fun index =>
    ((List.range (grammar.bodyOf index).length).map fun dot => ⟨index, dot⟩).filter fun core =>
      Core.next grammar core == some symbol

theorem mem_places {grammar : Grammar} {symbol : Symbol} {core : Core}
    (next : core.next grammar = some symbol) : core ∈ grammar.places symbol := by
  have inside : core.dot < (grammar.bodyOf core.production).length :=
    (List.getElem?_eq_some_iff.mp next).1
  have known : core.production < grammar.productions.length := by
    by_contra outside
    rw [bodyOf, List.getElem?_eq_none (Nat.le_of_not_lt outside)] at inside
    cases inside
  refine List.mem_flatMap.mpr ⟨core.production, List.mem_range.mpr known,
    List.mem_filter.mpr ⟨?_, beq_iff_eq.mpr next⟩⟩
  exact List.mem_map.mpr ⟨core.dot, List.mem_range.mpr inside, rfl⟩

/-- The nonterminals with which the bodies of a nonterminal begin. -/
def corners (grammar : Grammar) (id : Nat) : List Nat :=
  (grammar.productionsOf id).filterMap fun index => Core.calls? grammar ⟨index, 0⟩

/-- The cores and all that they call for. There are no more visits than calls. -/
def outline? (grammar : Grammar) (kernel : List Core) : Option (List Core) :=
  (reach grammar.corners (kernel.length + grammar.productions.length)
    (kernel.filterMap (Core.calls? grammar)) []).map fun ids =>
      kernel ++ ids.flatMap fun id => (grammar.productionsOf id).map fun index => ⟨index, 0⟩

/-- The cores past each symbol. -/
def steps (grammar : Grammar) (kernel : List Core) : List (List Core) :=
  match grammar.outline? kernel with
  | none => []
  | some cores =>
    (cores.filterMap (Core.next grammar)).eraseDups.map fun symbol =>
      (cores.filter fun core => core.next grammar == some symbol).map Core.advance

/-- The kernels of all outlines that reading reaches, if `fuel` visits are enough. -/
def kernels? (grammar : Grammar) (start fuel : Nat) : Option (List (List Core)) :=
  reach grammar.steps fuel [[⟨start, 0⟩]] []

variable {grammar : Grammar} {kernel cores : List Core}

theorem subset_outline (outlined : grammar.outline? kernel = some cores) :
    ∀ core ∈ kernel, core ∈ cores := by
  obtain ⟨ids, _, rfl⟩ := Option.map_eq_some_iff.mp outlined
  intro core member
  exact List.mem_append_left _ member

/-- An outline holds whatever its cores call for. -/
theorem outline_closed (outlined : grammar.outline? kernel = some cores) {core : Core}
    (member : core ∈ cores) {id index : Nat}
    (next : core.next grammar = some (.nonterminal id)) (headed : index ∈ grammar.productionsOf id) :
    ⟨index, 0⟩ ∈ cores := by
  obtain ⟨ids, reached, rfl⟩ := Option.map_eq_some_iff.mp outlined
  have calls := Core.calls?_of_next next
  obtain ⟨started, closed⟩ := reach_closed reached (fun _ none => by cases none)
  have called : id ∈ ids := by
    rcases List.mem_append.mp member with given | added
    · exact started id (.inr (List.mem_filterMap.mpr ⟨core, given, calls⟩))
    · obtain ⟨other, inside, initial⟩ := List.mem_flatMap.mp added
      obtain ⟨production, belongs, rfl⟩ := List.mem_map.mp initial
      exact closed other inside id (List.mem_filterMap.mpr ⟨production, belongs, calls⟩)
  exact List.mem_append_right _
    (List.mem_flatMap.mpr ⟨id, called, List.mem_map.mpr ⟨index, headed, rfl⟩⟩)

/-- Over each symbol after a dot there is a step. -/
theorem exists_step (outlined : grammar.outline? kernel = some cores) {core : Core}
    (member : core ∈ cores) {symbol : Symbol} (next : core.next grammar = some symbol) :
    ∃ later ∈ grammar.steps kernel, ∀ other ∈ cores, other.next grammar = some symbol →
      other.advance ∈ later := by
  refine ⟨(cores.filter fun core => core.next grammar == some symbol).map Core.advance, ?_, ?_⟩
  · simp only [steps, outlined]
    exact List.mem_map.mpr ⟨symbol,
      List.mem_eraseDups.mpr (List.mem_filterMap.mpr ⟨core, member, next⟩), rfl⟩
  · intro other inside same
    exact List.mem_map.mpr ⟨other, List.mem_filter.mpr ⟨inside, beq_iff_eq.mpr same⟩, rfl⟩

end Grammar

namespace Construction

variable {construction : Construction} {items : ItemSet}

/-- Every item set that reading reaches lies within an outline of the list. -/
theorem Reachable.exists_outline (reachable : construction.Reachable items)
    (inRange : construction.grammar.InRange) {fuel : Nat}
    {kernels : List (List Core)}
    (listed : construction.grammar.kernels? construction.acceptProduction fuel = some kernels)
    (whole : ∀ kernel ∈ kernels, (construction.grammar.outline? kernel).isSome) :
    ∃ kernel ∈ kernels, ∃ cores, construction.grammar.outline? kernel = some cores ∧
      ∀ item ∈ items, item.core ∈ cores := by
  obtain ⟨started, closed⟩ := reach_closed listed (fun _ none => by cases none)
  have called : ∀ {kernel cores}, construction.grammar.outline? kernel = some cores →
      ∀ item : Item, item.core ∈ cores → ∀ next ∈ construction.closureStep item,
        next.core ∈ cores := by
    intro kernel cores outlined item inside next calls
    obtain ⟨target, rest, index, token, drop, headed, _, rfl⟩ := mem_closureStep.mp calls
    exact Grammar.outline_closed outlined inside (Item.nextSymbol_eq_some.mpr ⟨rest, drop⟩) headed
  induction reachable with
  | start =>
      have first := started _ (.inr List.mem_cons_self)
      obtain ⟨cores, outlined⟩ := Option.isSome_iff_exists.mp (whole _ first)
      refine ⟨_, first, cores, outlined, closure_least inRange (called outlined) ?_⟩
      intro item member
      rw [List.mem_singleton.mp member]
      exact Grammar.subset_outline outlined _ List.mem_cons_self
  | goto items symbol _ leads ih =>
      obtain ⟨kernel, inKernels, cores, outlined, within⟩ := ih
      obtain ⟨before, member, next⟩ := goto_ne_nil_iff.mp leads
      obtain ⟨later, isStep, past⟩ := Grammar.exists_step outlined (within before member) next
      have known := closed kernel inKernels later isStep
      obtain ⟨grown, grownOutlined⟩ := Option.isSome_iff_exists.mp (whole _ known)
      refine ⟨later, known, grown, grownOutlined, goto_least inRange (called grownOutlined) ?_⟩
      intro item inside same
      exact Grammar.subset_outline grownOutlined _ (past item.core (within item inside) same)

/-- The tokens given for each nonterminal are all that can follow it: what begins the rest of a body
follows the nonterminal before it, and if the rest can vanish, so does what follows the head. -/
def followedBy (construction : Construction) (followers : TokenSets) : Bool :=
  construction.grammar.productions.all fun production =>
    (List.range production.body.length).all fun dot =>
      match production.body.drop dot with
      | .nonterminal id :: rest =>
        (construction.first.sequenceFirst rest).all (fun token => token ∈ followers.get id) &&
          (!rest.all construction.first.isNullable ||
            (followers.get production.head).all fun token => token ∈ followers.get id)
      | _ => true

/-- Only the end of input follows what reading starts from. -/
def startsBefore (construction : Construction) (followers : TokenSets) : Bool :=
  (construction.grammar.productions[construction.acceptProduction]?.map Production.head).any
    fun head => construction.eof ∈ followers.get head

/-- The lookaheads of items follow the heads of their productions. -/
theorem Reachable.mem_followers {followers : TokenSets} (reachable : construction.Reachable items)
    (inRange : construction.grammar.InRange) (followed : construction.followedBy followers = true)
    (starts : construction.startsBefore followers = true) :
    ∀ item ∈ items, ∀ production,
      construction.grammar.productions[item.production]? = some production →
      item.lookahead ∈ followers.get production.head := by
  have called : ∀ item : Item, (∀ production,
      construction.grammar.productions[item.production]? = some production →
      item.lookahead ∈ followers.get production.head) →
      ∀ next ∈ construction.closureStep item, ∀ production,
        construction.grammar.productions[next.production]? = some production →
        next.lookahead ∈ followers.get production.head := by
    intro item follows next calls production found
    obtain ⟨target, rest, index, token, drop, headed, expected, rfl⟩ := mem_closureStep.mp calls
    have head : production.head = target := by
      rw [inRange.mem_productionsOf] at headed
      have known : construction.grammar.productions[index]? = some production := found
      rw [known, Option.map_some] at headed
      exact Option.some.inj headed
    rw [head]
    cases caller : construction.grammar.productions[item.production]? with
    | none =>
        rw [Grammar.bodyOf, caller] at drop
        simp at drop
    | some calling =>
        rw [Grammar.bodyOf_eq caller] at drop
        have inside : item.dot < calling.body.length := by
          have short := congrArg List.length drop
          rw [List.length_drop, List.length_cons] at short
          omega
        have place := List.all_eq_true.mp (List.all_eq_true.mp followed calling
          (List.mem_of_getElem? caller)) item.dot (List.mem_range.mpr inside)
        rw [drop] at place
        simp only [Bool.and_eq_true, List.all_eq_true, decide_eq_true_eq, Bool.or_eq_true,
          Bool.not_eq_true', List.all_eq_false] at place
        rcases FirstSets.mem_lookahead.mp expected with begins | ⟨nullable, rfl⟩
        · exact place.1 token begins
        · rcases place.2 with ⟨symbol, inRest, solid⟩ | passes
          · exact absurd (List.all_eq_true.mp nullable symbol inRest) solid
          · exact passes _ (follows calling caller)
  induction reachable with
  | start =>
      refine closure_least inRange called ?_
      intro item member production found
      rw [List.mem_singleton.mp member] at found ⊢
      change construction.grammar.productions[construction.acceptProduction]? = _ at found
      rw [startsBefore, found] at starts
      exact of_decide_eq_true starts
  | goto items symbol _ _ ih =>
      refine goto_least inRange called ?_
      intro item member _
      exact ih item member

end Construction

namespace Core

/-- The tokens that can follow the head of the production. -/
def followers (grammar : Grammar) (sets : TokenSets) (core : Core) : List Nat :=
  match grammar.productions[core.production]? with
  | some production => sets.get production.head
  | none => []

theorem followers_eq {grammar : Grammar} {sets : TokenSets} {core : Core} {production : Production}
    (found : grammar.productions[core.production]? = some production) :
    core.followers grammar sets = sets.get production.head := by
  rw [followers, found]

/-- A core at its end does not compete with another one: the other waits for no token that can follow
it. -/
def apart (grammar : Grammar) (sets : TokenSets) (ended other : Core) : Bool :=
  match other.next grammar with
  | some (.token id) => decide (id ∉ ended.followers grammar sets)
  | some (.nonterminal _) => true
  | none =>
    decide (other.production = ended.production) ||
      (ended.followers grammar sets).all fun id => decide (id ∉ other.followers grammar sets)

end Core

namespace Construction

variable {construction : Construction} {items : ItemSet}

/-- In every outline, only the given pairs compete. -/
def competes (construction : Construction) (followers : TokenSets) (fuel : Nat)
    (rivals : List (Core × Core)) : Bool :=
  match construction.grammar.kernels? construction.acceptProduction fuel with
  | none => false
  | some kernels =>
    kernels.all fun kernel =>
      match construction.grammar.outline? kernel with
      | none => false
      | some cores =>
        (cores.filter fun core => (core.next construction.grammar).isNone).all fun ended =>
          cores.all fun other =>
            ended.apart construction.grammar followers other || decide ((ended, other) ∈ rivals)

/-- Two items of a set ask for different things on a token only if they are among the given pairs. -/
theorem Reachable.mem_rivals (proper : construction.Proper)
    (reachable : construction.Reachable items) {followers : TokenSets} {fuel : Nat}
    {rivals : List (Core × Core)} (followed : construction.followedBy followers = true)
    (starts : construction.startsBefore followers = true)
    (competing : construction.competes followers fuel rivals = true) {ended other : Item}
    (member : ended ∈ items) (otherMember : other ∈ items)
    (complete : ended.nextSymbol construction.grammar = none)
    (waits : other.nextSymbol construction.grammar = some (.token ended.lookahead) ∨
      other.nextSymbol construction.grammar = none ∧ other.lookahead = ended.lookahead ∧
        other.production ≠ ended.production) :
    (ended.core, other.core) ∈ rivals := by
  unfold competes at competing
  cases listed : construction.grammar.kernels? construction.acceptProduction fuel with
  | none =>
      rw [listed] at competing
      cases competing
  | some kernels =>
      rw [listed] at competing
      have each := List.all_eq_true.mp competing
      have whole : ∀ kernel ∈ kernels, (construction.grammar.outline? kernel).isSome := by
        intro kernel inside
        have outlined := each kernel inside
        cases found : construction.grammar.outline? kernel with
        | none =>
            rw [found] at outlined
            cases outlined
        | some cores => rfl
      obtain ⟨kernel, inside, cores, outlined, within⟩ := reachable.exists_outline proper.inRange listed
        whole
      have pairs := each kernel inside
      rw [outlined] at pairs
      have ending : ended.core ∈ cores.filter fun core => (core.next construction.grammar).isNone :=
        List.mem_filter.mpr ⟨within ended member, Option.isNone_iff_eq_none.mpr complete⟩
      have pair := List.all_eq_true.mp (List.all_eq_true.mp pairs ended.core ending) other.core
        (within other otherMember)
      rcases Bool.or_eq_true_iff.mp pair with separate | rival
      · exfalso
        have follows := reachable.mem_followers proper.inRange followed starts
        obtain ⟨production, found, _⟩ := reachable.fits proper ended member
        have mine : ended.lookahead ∈ ended.core.followers construction.grammar followers := by
          rw [Core.followers_eq found]
          exact follows ended member production found
        rcases waits with shifts | ⟨ends, same, different⟩
        · have next : other.core.next construction.grammar = some (.token ended.lookahead) := shifts
          rw [Core.apart, next] at separate
          exact of_decide_eq_true separate mine
        · have next : other.core.next construction.grammar = none := ends
          obtain ⟨otherProduction, otherFound, _⟩ := reachable.fits proper other otherMember
          have theirs : ended.lookahead ∈ other.core.followers construction.grammar followers := by
            rw [Core.followers_eq otherFound, ← same]
            exact follows other otherMember otherProduction otherFound
          rw [Core.apart, next] at separate
          rcases Bool.or_eq_true_iff.mp separate with equal | disjoint
          · exact different (of_decide_eq_true equal)
          · exact of_decide_eq_true (List.all_eq_true.mp disjoint _ mine) theirs
      · exact of_decide_eq_true rival

end Construction

end ThreeAddress

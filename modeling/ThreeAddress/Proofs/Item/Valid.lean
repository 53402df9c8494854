import ThreeAddress.Proofs.Collection.Search
import ThreeAddress.Proofs.Grammar.Rounds

/-!
Valid items. The set reached over some symbols has every item whose production can be applied right
behind them in a rightmost derivation, and it has no item that is not called for by some derivation
from the start.
-/

set_option autoImplicit false

namespace ThreeAddress

namespace Construction

variable {construction : Construction} {path : List Symbol} {item : Item}

/-- The items reached from the start over a path of symbols. -/
def reached (construction : Construction) (path : List Symbol) : ItemSet :=
  path.foldl construction.goto construction.startItems

theorem reached_concat (construction : Construction) (path : List Symbol) (symbol : Symbol) :
    construction.reached (path ++ [symbol]) =
      construction.goto (construction.reached path) symbol := by
  simp [reached]

theorem Proper.mem_lookahead_iff (proper : construction.Proper) {sequence : List Symbol}
    {after token : Nat} :
    token ∈ construction.first.lookahead sequence after ↔
      construction.grammar.Begins token (sequence ++ [.token after]) := by
  rw [proper.first_eq, proper.inRange.mem_lookahead_iff_derives, Grammar.derives_token_iff]

theorem Proper.reached_closed (proper : construction.Proper) {next : Item}
    (member : item ∈ construction.reached path) (called : next ∈ construction.closureStep item) :
    next ∈ construction.reached path :=
  (reachable_of_path path (List.ne_nil_of_mem member)).closed proper member called

/-- Along the symbols after its dot an item is carried on. -/
theorem mem_reached_append {index dot lookahead : Nat} {symbols rest : List Symbol}
    (member : ⟨index, dot, lookahead⟩ ∈ construction.reached path)
    (drop : (construction.grammar.bodyOf index).drop dot = symbols ++ rest) :
    ⟨index, dot + symbols.length, lookahead⟩ ∈ construction.reached (path ++ symbols) := by
  induction symbols generalizing path dot with
  | nil => simpa using member
  | cons symbol symbols ih =>
      have next : Item.nextSymbol construction.grammar ⟨index, dot, lookahead⟩ = some symbol :=
        Item.nextSymbol_eq_some.mpr ⟨symbols ++ rest, drop⟩
      have past : ⟨index, dot + 1, lookahead⟩ ∈ construction.reached (path ++ [symbol]) := by
        rw [reached_concat]
        exact advance_mem_goto member next
      have further : (construction.grammar.bodyOf index).drop (dot + 1) = symbols ++ rest := by
        rw [List.drop_add_one_eq_tail_drop, drop, List.cons_append, List.tail_cons]
      have carried := ih past further
      rw [List.append_assoc, List.singleton_append] at carried
      rw [List.length_cons, Nat.add_comm symbols.length, ← Nat.add_assoc]
      exact carried

/-- Wherever a nonterminal stands in a form, its productions are called for in the set reached over
what is before it, with each token that can come first after it. -/
def Expects (construction : Construction) (form : List Symbol) : Prop :=
  ∀ front id back, form = front ++ .nonterminal id :: back →
    ∀ token, construction.grammar.Begins token (back ++ [.token construction.eof]) →
      ∀ index ∈ construction.grammar.productionsOf id,
        .initial index token ∈ construction.reached front

/-- Before a word, some token comes first: its own, or the end of input. -/
theorem begins_word (grammar : Grammar) (word : List Nat) (eof : Nat) :
    grammar.Begins (word.headD eof) (word.map .token ++ [.token eof]) := by
  cases word with
  | nil => exact .token []
  | cons token rest => exact .token _

/-- A word has no nonterminal, so that one comes before it. -/
theorem exists_rest_of_split {body inner after : List Symbol} {word : List Nat} {id : Nat}
    (split : body ++ word.map .token = inner ++ .nonterminal id :: after) :
    ∃ rest, body = inner ++ .nonterminal id :: rest ∧ after = rest ++ word.map .token := by
  have absent : ∀ symbols, word.map .token ≠ symbols ++ .nonterminal id :: after := by
    intro symbols same
    have member : Symbol.nonterminal id ∈ word.map .token := by
      rw [same]
      simp
    simp at member
  rcases List.append_eq_append_iff.mp split with ⟨last, _, tail⟩ | ⟨last, body, tail⟩
  · exact absurd tail (absent last)
  · cases last with
    | nil => exact absurd tail.symm (absent [])
    | cons symbol rest =>
        rw [List.cons_append, List.cons.injEq] at tail
        obtain ⟨rfl, rfl⟩ := tail
        exact ⟨rest, body, rfl⟩

namespace Expects

variable {front inner after : List Symbol} {word : List Nat} {index id : Nat}
  {production : Production}

/-- A production that is expected before a word is there with any part of its body read, and with
each token that can come first in the word. -/
theorem mem_reached (proper : construction.Proper) {read unread : List Symbol} {lookahead : Nat}
    (expects : construction.Expects (front ++ .nonterminal production.head :: word.map .token))
    (found : construction.grammar.productions[index]? = some production)
    (body : production.body = read ++ unread)
    (follows : construction.grammar.Begins lookahead
      (word.map .token ++ [.token construction.eof])) :
    ⟨index, read.length, lookahead⟩ ∈ construction.reached (front ++ read) := by
  have own : index ∈ construction.grammar.productionsOf production.head := by
    rw [proper.inRange.mem_productionsOf, found, Option.map_some]
  have atStart := expects front production.head _ rfl lookahead follows index own
  have drop : (construction.grammar.bodyOf index).drop 0 = read ++ unread := by
    rw [Grammar.bodyOf_eq found, List.drop_zero, body]
  have carried := mem_reached_append atStart drop
  rwa [Nat.zero_add] at carried

/-- The nonterminals of a body are expected where the head was. -/
theorem inside (proper : construction.Proper)
    (found : construction.grammar.productions[index]? = some production)
    (expects : construction.Expects (front ++ .nonterminal production.head :: word.map .token))
    (split : production.body ++ word.map .token = inner ++ .nonterminal id :: after) {token : Nat}
    (begins : construction.grammar.Begins token (after ++ [.token construction.eof])) {other : Nat}
    (headed : other ∈ construction.grammar.productionsOf id) :
    .initial other token ∈ construction.reached (front ++ inner) := by
  obtain ⟨rest, body, behind⟩ := exists_rest_of_split split
  -- The lookahead of the caller is what follows the head, or the token itself if the rest vanishes.
  obtain ⟨lookahead, follows, behindBegins⟩ : ∃ lookahead,
      construction.grammar.Begins lookahead (word.map .token ++ [.token construction.eof]) ∧
      construction.grammar.Begins token (rest ++ [.token lookahead]) := by
    rw [behind, List.append_assoc] at begins
    rcases begins.split with inRest | ⟨vanishes, later⟩
    · exact ⟨_, begins_word _ word _, inRest.append _⟩
    · exact ⟨token, later, .after vanishes (.token [])⟩
  apply proper.reached_closed (expects.mem_reached proper found body follows)
  refine mem_closureStep.mpr ⟨id, rest, other, token, ?_, headed, ?_, rfl⟩
  · rw [Grammar.bodyOf_eq found, body, List.drop_left]
  · exact proper.mem_lookahead_iff.mpr behindBegins

/-- To replace the last nonterminal keeps what is expected. -/
theorem step (proper : construction.Proper)
    (found : construction.grammar.productions[index]? = some production)
    (expects : construction.Expects (front ++ .nonterminal production.head :: word.map .token)) :
    construction.Expects (front ++ production.body ++ word.map .token) := by
  intro before id behind split token begins other headed
  rw [List.append_assoc] at split
  rcases List.append_eq_append_iff.mp split with ⟨inner, rfl, tail⟩ | ⟨inner, rfl, tail⟩
  · exact inside proper found expects tail begins headed
  · cases inner with
    | nil =>
        rw [List.append_nil] at expects
        have whole : production.body ++ word.map .token = [] ++ .nonterminal id :: behind :=
          tail.symm
        have atHead := inside proper found expects whole begins headed
        rwa [List.append_nil] at atHead
    | cons symbol rest =>
        rw [List.cons_append, List.cons.injEq] at tail
        obtain ⟨rfl, rfl⟩ := tail
        -- What comes first after this one came first before the step too.
        have earlier : construction.grammar.Derives
            (rest ++ .nonterminal production.head :: (word.map .token ++ [.token construction.eof]))
            (rest ++ (production.body ++ word.map .token) ++ [.token construction.eof]) := by
          refine .step rest _ index production _ found ?_
          simpa only [List.append_assoc] using Grammar.Derives.refl _
        refine expects before id (rest ++ .nonterminal production.head :: word.map .token) ?_ token
          ?_ other headed
        · simp
        · simpa only [List.append_assoc, List.cons_append] using earlier.begins begins

theorem rightmost (proper : construction.Proper) {form target : List Symbol} {steps : List Nat}
    (derivation : construction.grammar.Rightmost form steps target)
    (expects : construction.Expects form) : construction.Expects target := by
  induction derivation with
  | refl form => exact expects
  | step front word index production later target found _ ih => exact ih (expects.step proper found)

end Expects

/-- The item's production can be applied right behind the path: what was read of its body ends the
path, and from the start a form is derived with its head before that, followed by its lookahead. -/
def Valid (construction : Construction) (path : List Symbol) (item : Item) : Prop :=
  ∃ production front rest, construction.grammar.productions[item.production]? = some production ∧
    item.dot ≤ production.body.length ∧ path = front ++ production.body.take item.dot ∧
    construction.grammar.Derives
      [.nonterminal construction.grammar.start, .token construction.eof]
      (front ++ .nonterminal production.head :: .token item.lookahead :: rest)

namespace Valid

theorem called (proper : construction.Proper) (valid : construction.Valid path item) {next : Item}
    (called : next ∈ construction.closureStep item) : construction.Valid path next := by
  obtain ⟨production, front, rest, found, inside, rfl, derives⟩ := valid
  obtain ⟨target, tail, index, token, drop, headed, follows, rfl⟩ := mem_closureStep.mp called
  obtain ⟨new, newFound, rfl⟩ := Option.map_eq_some_iff.mp
    (proper.inRange.mem_productionsOf.mp headed)
  rw [Grammar.bodyOf_eq found] at drop
  obtain ⟨more, begins⟩ := (proper.mem_lookahead_iff.mp follows).derives
  refine ⟨new, front ++ production.body.take item.dot, more ++ rest, newFound, Nat.zero_le _,
    by simp [Item.initial], derives.trans ?_⟩
  -- The head is replaced by its body, and what follows the target by what it begins with.
  refine .step front _ item.production production _ found ?_
  have whole : production.body =
      production.body.take item.dot ++ .nonterminal new.head :: tail := by
    rw [← drop, List.take_append_drop]
  have shape : front ++ production.body ++ .token item.lookahead :: rest =
      front ++ production.body.take item.dot ++ [.nonterminal new.head] ++
        (tail ++ [.token item.lookahead]) ++ rest := by
    conv_lhs => rw [whole]
    simp
  have within := begins.context
    (front ++ production.body.take item.dot ++ [.nonterminal new.head]) rest
  rw [← shape] at within
  simpa only [List.append_assoc, List.cons_append, List.nil_append, Item.initial] using within

theorem advance (valid : construction.Valid path item) {symbol : Symbol}
    (next : item.nextSymbol construction.grammar = some symbol) :
    construction.Valid (path ++ [symbol]) item.advance := by
  obtain ⟨production, front, rest, found, _, rfl, derives⟩ := valid
  rw [Item.nextSymbol, Grammar.bodyOf_eq found] at next
  refine ⟨production, front, rest, found, (List.getElem?_eq_some_iff.mp next).1, ?_, derives⟩
  rw [Item.advance_dot, List.take_add_one, next, Option.toList_some, List.append_assoc]

/-- Only valid items are reached. -/
theorem of_mem_reached (proper : construction.Proper)
    (first : construction.Valid [] (.initial construction.acceptProduction construction.eof))
    (path : List Symbol) : ∀ item ∈ construction.reached path, construction.Valid path item := by
  induction path using List.reverseRecOn with
  | nil =>
      refine closure_least proper.inRange (fun _ valid _ call => valid.called proper call) ?_
      intro item member
      rw [List.mem_singleton.mp member]
      exact first
  | append_singleton path symbol ih =>
      rw [reached_concat]
      refine goto_least proper.inRange (fun _ valid _ call => valid.called proper call) ?_
      intro item member next
      exact (ih item member).advance next

end Valid

end Construction

namespace Grammar.WellFormed

variable {grammar : Grammar} (wellFormed : grammar.WellFormed)

include wellFormed

theorem expects_start : grammar.construction.Expects
    [.nonterminal grammar.construction.grammar.start] := by
  intro front id back split token begins index headed
  obtain ⟨rfl, rfl, rfl⟩ : front = [] ∧ id = grammar.construction.grammar.start ∧ back = [] := by
    cases front with
    | nil => simp_all
    | cons symbol rest => simp at split
  have ends : token = grammar.construction.eof := by
    cases begins
    rfl
  obtain ⟨production, found, head⟩ := Option.map_eq_some_iff.mp
    (wellFormed.construction_inRange.mem_productionsOf.mp headed)
  have last : index = grammar.construction.acceptProduction := by
    rw [wellFormed.acceptProduction_eq]
    rcases wellFormed.construction_found found with ⟨_, bound⟩ | ⟨last, _⟩
    · rw [head] at bound
      exact absurd bound (Nat.lt_irrefl _)
    · exact last
  rw [ends, last]
  exact Construction.subset_closure (List.mem_singleton.mpr rfl)

theorem valid_start : grammar.construction.Valid []
    (.initial grammar.construction.acceptProduction grammar.construction.eof) := by
  rw [wellFormed.acceptProduction_eq]
  exact ⟨_, [], [], construction_last grammar, Nat.zero_le _, rfl, .refl _⟩

end Grammar.WellFormed

/-- For a grammar that was built and any path from the first set of its collection: if a rightmost
derivation leads from the start to a head before a word, and the path is what precedes the head and
then the first part of the body of its production, the set reached has that production, read so far,
with the first token of the word, or else the end of input, as its lookahead. And all items of the
set are valid. -/
theorem Construction.reached_exact {description : Description} {grammar : Grammar}
    (built : description.build = .ok grammar) (path : List Symbol) :
    (∀ (front read unread : List Symbol) (word steps : List Nat) (index : Nat)
        (production : Production),
      grammar.construction.grammar.Rightmost
        [.nonterminal grammar.construction.grammar.start] steps
        (front ++ .nonterminal production.head :: word.map .token) →
      grammar.construction.grammar.productions[index]? = some production →
      production.body = read ++ unread → path = front ++ read →
      ⟨index, read.length, word.headD grammar.construction.eof⟩ ∈
        path.foldl grammar.construction.goto (grammar.construction.collection.itemsAt 0)) ∧
    ∀ item ∈ path.foldl grammar.construction.goto (grammar.construction.collection.itemsAt 0),
      grammar.construction.Valid path item := by
  have wellFormed := Description.wellFormed_of_build built
  have proper := wellFormed.proper
  rw [Collection.Complete.itemsAt_eq proper.collection_complete.start]
  constructor
  · rintro front read unread word steps index production derivation found body rfl
    have expects := wellFormed.expects_start.rightmost proper derivation
    exact expects.mem_reached proper found body (Construction.begins_word _ word _)
  · exact Construction.Valid.of_mem_reached proper wellFormed.valid_start path

/-- Within a list of pairs the lookahead of the first one begins the second, or ends the input. -/
theorem Construction.reached_exact_paired :
    Description.paired.build = .ok .paired ∧
    Grammar.paired.construction.grammar.Rightmost [.nonterminal 3] [4, 0, 2]
      [.nonterminal 0, .nonterminal 0, .token 0] ∧
    ⟨1, 0, 0⟩ ∈ [Symbol.nonterminal 0].foldl Grammar.paired.construction.goto
      (Grammar.paired.construction.collection.itemsAt 0) ∧
    Grammar.paired.construction.Valid [.nonterminal 0] ⟨0, 1, 2⟩ := by
  have built : Description.paired.build = .ok .paired := by decide +kernel
  have derivation : Grammar.paired.construction.grammar.Rightmost [.nonterminal 3] [4, 0, 2]
      [.nonterminal 0, .nonterminal 0, .token 0] :=
    .step [] [] 4 ⟨3, [.nonterminal 0]⟩ _ _ rfl
      (.step [] [] 0 ⟨0, [.nonterminal 0, .nonterminal 1]⟩ _ _ rfl
        (.step [.nonterminal 0] [] 2 ⟨1, [.nonterminal 0, .token 0]⟩ _ _ rfl (.refl _)))
  obtain ⟨holds, valid⟩ := Construction.reached_exact built [.nonterminal 0]
  refine ⟨built, derivation, ?_, valid _ ?_⟩
  · exact holds [.nonterminal 0] [] [] [0] [4, 0, 2] 1 ⟨0, []⟩ derivation rfl rfl rfl
  · decide +kernel

end ThreeAddress

import Mathlib.Logic.Relation
import ThreeAddress.Proofs.Run.Complete
import ThreeAddress.Proofs.Run.Settle

/-!
Runs as far as terminals decide them. What a run does to the stack of states depends only on the
terminals read so far and on the one ahead, so a run that refuses the one ahead shows that no
sentence goes on like this.
-/

set_option autoImplicit false

namespace ThreeAddress

namespace ParseTable

/-- One step on a stack of states and the terminals ahead, after which the input ends. -/
inductive Advances (table : ParseTable) : List Nat × List Nat → List Nat × List Nat → Prop where
  | shift (terminal state : Nat) (states ahead : List Nat)
      (asked : cell table.tables.action (states.headD 0) terminal = .ok (.shift state)) :
      Advances table (states, terminal :: ahead) (state :: states, ahead)
  | reduce (states after ahead : List Nat)
      (reduces : table.Reduces (ahead.headD table.eof) states after) :
      Advances table (states, ahead) (after, ahead)

variable {table : ParseTable} {states ahead : List Nat}

/-- The action on the terminal ahead tells which step it is. -/
theorem Advances.asked {next : List Nat × List Nat} (advances : table.Advances (states, ahead) next) :
    (∃ state, cell table.tables.action (states.headD 0) (ahead.headD table.eof) =
      .ok (.shift state)) ∨
    ∃ index, cell table.tables.action (states.headD 0) (ahead.headD table.eof) =
      .ok (.reduce index) := by
  cases advances with
  | shift terminal state _ _ asked => exact .inl ⟨state, asked⟩
  | reduce _ after _ reduces =>
      cases reduces with
      | intro index target production asked _ _ => exact .inr ⟨index, asked⟩

theorem advances_unique (table : ParseTable) : Relator.RightUnique table.Advances := by
  intro first second third one other
  cases one with
  | shift terminal state states ahead asked =>
      cases other with
      | shift _ other _ _ asked' =>
          rw [asked] at asked'
          cases asked'
          rfl
      | reduce _ after _ reduces =>
          cases reduces with
          | intro _ _ _ asked' _ _ =>
              rw [List.headD_cons, asked] at asked'
              cases asked'
  | reduce states after ahead reduces =>
      cases other with
      | shift terminal state _ rest asked =>
          cases reduces with
          | intro _ _ _ asked' _ _ =>
              rw [List.headD_cons, asked] at asked'
              cases asked'
      | reduce _ other _ reduces' => rw [reduces.unique reduces']

/-- Where the table accepts or refuses there is no step. -/
theorem not_advances {action : Action}
    (asked : cell table.tables.action (states.headD 0) (ahead.headD table.eof) = .ok action)
    (ends : action = .accept ∨ action = .error) (next : List Nat × List Nat) :
    ¬table.Advances (states, ahead) next := by
  intro advances
  rcases advances.asked with ⟨state, other⟩ | ⟨index, other⟩ <;>
  · rw [asked] at other
    cases other
    simp at ends

/-- Steps from one beginning to two ends lead to the same end. -/
theorem end_unique {start one other : List Nat × List Nat}
    (first : Relation.ReflTransGen table.Advances start one)
    (second : Relation.ReflTransGen table.Advances start other)
    (oneEnds : ∀ next, ¬table.Advances one next) (otherEnds : ∀ next, ¬table.Advances other next) :
    one = other := by
  rcases Relation.ReflTransGen.total_of_right_unique table.advances_unique first second with
    later | later
  · rcases later.cases_head with same | ⟨next, step, _⟩
    · exact same
    · exact absurd step (oneEnds next)
  · rcases later.cases_head with same | ⟨next, step, _⟩
    · exact same.symm
    · exact absurd step (otherEnds next)

end ParseTable

namespace Config

/-- The terminals that were read lead to the stack, whatever comes after the one ahead. -/
def Traced (grammar : Grammar) (config : Config) (leaves : List Token) : Prop :=
  ∀ word ahead : List Nat,
    leaves.map (ParseTable.ofGrammar grammar).terminal? = word.map some →
    (ParseTable.ofGrammar grammar).terminal? config.lookahead =
      some (ahead.headD grammar.tokens.length) →
    Relation.ReflTransGen (ParseTable.ofGrammar grammar).Advances ([0], word ++ ahead)
      (config.states, ahead)

variable {grammar : Grammar} {actions : Array Semantic} {scan : Scan} {config : Config}
  {symbols : List Symbol} {trees : List (Tree Token)}

theorem traced_first (grammar : Grammar) (lookahead : Token) (input : Scan) :
    (Config.first lookahead input).Traced grammar [] := by
  intro word ahead read _
  cases word with
  | nil => exact .refl
  | cons _ _ => cases read

/-- One step of a run is one step on the terminals. -/
theorem Traced.of_moves (wellFormed : grammar.WellFormed) {next : Config}
    (sound : Sound grammar actions scan config symbols trees)
    (traced : config.Traced grammar (trees.flatMap Tree.leaves))
    (moves : Moves (.ofGrammar grammar) actions config next) :
    ∃ symbols trees, Sound grammar actions scan next symbols trees ∧
      next.Traced grammar (trees.flatMap Tree.leaves) := by
  cases moves with
  | shift state lookahead input asked fetched =>
      obtain ⟨_, after⟩ := sound.shift wellFormed asked fetched
      refine ⟨_, _, after, ?_⟩
      intro word ahead read _
      obtain ⟨id, known, entry⟩ := ParseTable.actionOn_eq_ok asked (by simp)
      simp only [List.flatMap_append, List.flatMap_singleton, Tree.leaves_leaf, List.map_append,
        List.map_singleton, known] at read
      obtain ⟨before, last, rfl, front, back⟩ := List.map_eq_append_iff.mp read.symm
      obtain ⟨_, rfl, same⟩ := List.map_eq_singleton_iff.mp back
      cases same
      rw [List.append_assoc, List.singleton_append]
      exact (traced before (id :: ahead) front.symm known).tail
        (.shift id state config.states ahead entry)
  | reduce index production head translator target asked found ran enters =>
      obtain ⟨earlier, left, right, _, rfl, after⟩ :=
        sound.reduce wellFormed asked found ran enters
      refine ⟨_, _, after, ?_⟩
      intro word ahead read known
      obtain ⟨id, same, entry⟩ := ParseTable.actionOn_eq_ok asked (by simp)
      simp only [List.flatMap_append, List.flatMap_singleton, Tree.leaves_node] at read
      rw [← List.flatMap_append] at read
      have reduces : (ParseTable.ofGrammar grammar).Reduces (ahead.headD grammar.tokens.length)
          config.states (target :: popAbove production.body.length config.states) := by
        have ahead_eq := Option.some.inj (same.symm.trans known)
        rw [← ahead_eq]
        exact .intro index target production entry found enters
      exact (traced word ahead read known).tail (.reduce config.states _ ahead reduces)

/-- A run is a sequence of steps on the terminals. -/
theorem Traced.of_reaches (wellFormed : grammar.WellFormed) {last : Config}
    (sound : Sound grammar actions scan config symbols trees)
    (traced : config.Traced grammar (trees.flatMap Tree.leaves))
    (reaches : Reaches (.ofGrammar grammar) actions config last) :
    ∃ symbols trees, Sound grammar actions scan last symbols trees ∧
      last.Traced grammar (trees.flatMap Tree.leaves) := by
  apply reaches.keeps ?_ ⟨symbols, trees, sound, traced⟩
  rintro config next ⟨symbols, trees, sound, traced⟩ moves
  exact traced.of_moves wellFormed sound moves

end Config

namespace Grammar.WellFormed

variable {grammar : Grammar}

/-- Without conflicts, the terminals of a sentence lead to a stack that accepts at their end. -/
theorem exists_accepting (wellFormed : grammar.WellFormed)
    (clean : (ParseTable.ofGrammar grammar).conflicts = []) {word : List Nat}
    (derives : grammar.Derives [.nonterminal grammar.start] (word.map .token)) :
    ∃ states, Relation.ReflTransGen (ParseTable.ofGrammar grammar).Advances ([0], word)
        (states, []) ∧
      ParseTable.cell (ParseTable.ofGrammar grammar).tables.action (states.headD 0)
        grammar.tokens.length = .ok .accept := by
  obtain ⟨trees, parsed, leaves⟩ := derives.exists_parses rfl
  obtain ⟨tree, rfl⟩ := List.length_eq_one_iff.mp parsed.length_eq
  rw [List.flatMap_singleton] at leaves
  have named : ∀ id ∈ word, (ParseTable.ofGrammar grammar).terminal? (spelled grammar id) = some id ∧
      id < grammar.tokens.length := by
    intro id member
    have name := wellFormed.named_of_parses parsed (leaves ▸ member)
    exact ⟨terminal?_spelled name, Description.idxOf?_lt name⟩
  obtain ⟨lookahead, input, last, outcome, compiled, fetched, reaches, step, accepted, _⟩ :=
    (wellFormed.parses_spelled parsed).accepted wellFormed clean
      ⟨word.map (spelled grammar), none, 0⟩ rfl (by rw [Tree.leaves_map, leaves])
  obtain ⟨asked, _, _⟩ := Config.accepted_of_step step accepted
  obtain ⟨symbols, built, sound, traced⟩ := Config.Traced.of_reaches wellFormed
    (Config.Sound.first wellFormed fetched) (Config.traced_first grammar lookahead input) reaches
  obtain ⟨_, ends⟩ := sound.of_accept wellFormed asked
  -- No token of the sentence is read as the end of input, so all of them have been read.
  obtain ⟨rest, unread, tokens⟩ := sound.unread
  change word.map (spelled grammar) = _ at tokens
  have finished : rest = [] := by
    cases unread with
    | finished _ _ _ => rfl
    | ahead =>
        have member : last.lookahead ∈ word.map (spelled grammar) := by
          rw [tokens]
          simp
        obtain ⟨id, inside, same⟩ := List.mem_map.mp member
        obtain ⟨read, bound⟩ := named id inside
        rw [same, ends] at read
        exact absurd (Option.some.inj read) (Nat.ne_of_gt bound)
  subst finished
  rw [List.append_nil] at tokens
  have read : (built.flatMap Tree.leaves).map (ParseTable.ofGrammar grammar).terminal? =
      word.map some := by
    rw [← tokens, List.map_map]
    exact List.map_congr_left fun id inside => (named id inside).1
  obtain ⟨id, same, entry⟩ := ParseTable.actionOn_eq_ok asked (by simp)
  rw [ends] at same
  cases same
  have leads := traced word [] read ends
  rw [List.append_nil] at leads
  exact ⟨last.states, leads, entry⟩

end Grammar.WellFormed

/-- If a run refuses the token ahead, no sentence has what was read before its terminal; with
nothing ahead, what was read is no sentence. -/
theorem Config.Traced.not_derives {grammar : Grammar} {config : Config} {leaves : List Token}
    (wellFormed : grammar.WellFormed) (clean : (ParseTable.ofGrammar grammar).conflicts = [])
    (traced : config.Traced grammar leaves)
    (refused : (ParseTable.ofGrammar grammar).actionOn config.top config.lookahead = .ok .error)
    {word ahead : List Nat}
    (read : leaves.map (ParseTable.ofGrammar grammar).terminal? = word.map some)
    (known : (ParseTable.ofGrammar grammar).terminal? config.lookahead =
      some (ahead.headD grammar.tokens.length)) :
    ¬grammar.Derives [.nonterminal grammar.start] ((word ++ ahead).map .token) := by
  intro derives
  obtain ⟨states, leads, accepts⟩ := wellFormed.exists_accepting clean derives
  have entry : ParseTable.cell (ParseTable.ofGrammar grammar).tables.action
      (config.states.headD 0) (ahead.headD grammar.tokens.length) = .ok .error := by
    rw [ParseTable.actionOn, known] at refused
    exact refused
  have same : (config.states, ahead) = (states, []) :=
    ParseTable.end_unique (traced word ahead read known) leads
      (ParseTable.not_advances entry (.inr rfl)) (ParseTable.not_advances accepts (.inl rfl))
  cases same
  rw [List.headD_nil, accepts] at entry
  cases entry

end ThreeAddress

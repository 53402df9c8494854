import ThreeAddress.Proofs.Run.Advance
import ThreeAddress.Proofs.Run.Upright

/-!
Errors are found at once over tables without conflicts. A token is refused only if no sentence goes
on with it, and it is refused before anything is reduced on it, as long as every symbol that occurs
can vanish or begin with a token. A grammar with a symbol that can do neither shows that this is
needed: its lookaheads promise a token that the item behind them has lost.
-/

set_option autoImplicit false

namespace ThreeAddress

/-- The table has something to do on the terminal. -/
def ParseTable.Acts (table : ParseTable) (terminal : Nat) (states : List Nat) : Prop :=
  ∃ action, cell table.tables.action (states.headD 0) terminal = .ok action ∧ action ≠ .error

namespace Grammar.Stands

open ParseTable

variable {grammar : Grammar} {states : List Nat} {item : Item} {sequence : List Symbol}
  (wellFormed : grammar.WellFormed) (clean : (ParseTable.ofGrammar grammar).conflicts = [])

include wellFormed clean

/-- If what is after the dot can vanish, something is reduced on the lookahead of the item. -/
theorem acts_of_vanishes (vanishes : grammar.construction.grammar.Vanishes sequence)
    (stands : grammar.Stands states item)
    (remains : (grammar.construction.grammar.bodyOf item.production).drop item.dot = sequence) :
    (ParseTable.ofGrammar grammar).Acts item.lookahead states := by
  induction vanishes generalizing item with
  | nil =>
      have ended : item.nextSymbol grammar.construction.grammar = none :=
        Item.nextSymbol_eq_none.mpr (List.drop_eq_nil_iff.mp remains)
      obtain ⟨production, found, _, _⟩ := stands.fits wellFormed
      rcases wellFormed.construction_found found with ⟨old, _⟩ | ⟨last, _⟩
      · exact ⟨_, stands.reduce_cell wellFormed clean ended old, by simp⟩
      · exact ⟨_, stands.accept_cell wellFormed clean ended last, by simp⟩
  | cons index production rest found _ later bodyIh _ =>
      have expected : item.lookahead ∈ grammar.construction.first.lookahead rest item.lookahead :=
        wellFormed.mem_lookahead_iff.mpr (.inr ⟨later, rfl⟩)
      obtain ⟨called, _⟩ := stands.call wellFormed remains found expected
      have acts := bodyIh called (by rw [bodyOf_eq found, List.drop_zero])
      exact acts

/-- If a terminal can begin what is after the dot, it is read, or something is reduced on it. -/
theorem acts_of_begins (live : ∀ id, grammar.Occurs id → grammar.Live id) {terminal : Nat}
    (begins : grammar.construction.grammar.Begins terminal sequence)
    (stands : grammar.Stands states item)
    (remains : (grammar.construction.grammar.bodyOf item.production).drop item.dot = sequence) :
    (ParseTable.ofGrammar grammar).Acts terminal states := by
  induction begins generalizing item with
  | token rest =>
      obtain ⟨target, shifts⟩ := stands.shift_cell wellFormed clean
        (Item.nextSymbol_eq_some.mpr ⟨rest, remains⟩)
      exact ⟨_, shifts, by simp⟩
  | inside index production rest found _ ih =>
      obtain ⟨token, called⟩ := stands.exists_call wellFormed live remains found
      exact ih called (by rw [bodyOf_eq found, List.drop_zero])
  | past index production rest found body later _ =>
      have expected : terminal ∈ grammar.construction.first.lookahead rest item.lookahead :=
        wellFormed.mem_lookahead_iff.mpr (.inl later)
      obtain ⟨called, _⟩ := stands.call wellFormed remains found expected
      exact called.acts_of_vanishes wellFormed clean body (by rw [bodyOf_eq found, List.drop_zero])

/-- The table acts on whatever may come after the dot of an item. -/
theorem acts (live : ∀ id, grammar.Occurs id → grammar.Live id) {terminal : Nat}
    (stands : grammar.Stands states item)
    (expected : terminal ∈ grammar.construction.first.lookahead
      ((grammar.construction.grammar.bodyOf item.production).drop item.dot) item.lookahead) :
    (ParseTable.ofGrammar grammar).Acts terminal states := by
  rcases wellFormed.mem_lookahead_iff.mp expected with begins | ⟨vanishes, rfl⟩
  · exact stands.acts_of_begins wellFormed clean live begins rfl
  · exact stands.acts_of_vanishes wellFormed clean vanishes rfl

end Grammar.Stands

namespace Config

/-- The lookahead is dealt with: it is read, or the input is accepted, or a semantic action fails
before that. -/
inductive Resolves (table : ParseTable) (actions : Array Semantic) (config : Config) : Prop where
  | shift (state : Nat)
      (asked : table.actionOn config.top config.lookahead = .ok (.shift state)) :
      Resolves table actions config
  | accept (asked : table.actionOn config.top config.lookahead = .ok .accept) :
      Resolves table actions config
  | fail (index : Nat) (failure : Failure) (translator : Translator)
      (asked : table.actionOn config.top config.lookahead = .ok (.reduce index))
      (ran : Reduction.run (actions.getD index .nothing) config.attributes config.lookahead.start
        (config.logged table (.reduce index)) = .error failure translator) :
      Resolves table actions config

/-- If the last move was a reduction, the lookahead is not refused. -/
def Prompt (grammar : Grammar) (config : Config) : Prop :=
  ∀ index, (movesOf config.translator.log).getLast? = some (.join index) →
    (ParseTable.ofGrammar grammar).actionOn config.top config.lookahead ≠ .ok .error

variable {grammar : Grammar} {actions : Array Semantic} {scan : Scan} {config : Config}
  {symbols : List Symbol} {trees : List (Tree Token)}
  (wellFormed : grammar.WellFormed) (clean : (ParseTable.ofGrammar grammar).conflicts = [])
  (live : ∀ id, grammar.Occurs id → grammar.Live id)

include wellFormed clean live

/-- The state entered by a reduction acts on the lookahead of the reduction: the item that called for
the production expects it there. -/
theorem Sound.acts_of_reduce (sound : Sound grammar actions scan config symbols trees)
    {index target : Nat} {production : Production}
    (asked : (ParseTable.ofGrammar grammar).actionOn config.top config.lookahead =
      .ok (.reduce index))
    (found : grammar.construction.grammar.productions[index]? = some production)
    (enters : ParseTable.cell (ParseTable.ofGrammar grammar).tables.goto
      ((popAbove production.body.length config.states).headD 0) production.head =
        .ok (some target)) :
    (ParseTable.ofGrammar grammar).actionOn target config.lookahead ≠ .ok .error := by
  obtain ⟨old, id, _, origin, under, origins, earlier, known, _, _, bottom, originHolds, initial,
    popped, _⟩ := sound.exists_reduced wellFormed asked found
  have reachable := wellFormed.proper.collection_complete.reachable_of originHolds
  obtain ⟨caller, inside, called, across⟩ := wellFormed.exists_calling reachable old initial
  obtain ⟨same, rest, drop, again, _, expected⟩ := wellFormed.exists_called called
  have calling : grammar.Stands (origin :: under) caller :=
    ⟨⟨earlier, bottom⟩, origins, originHolds, inside⟩
  rw [popped] at enters
  have advanced := calling.goto wellFormed across enters
  obtain ⟨action, entry, acts⟩ := advanced.acts wellFormed clean live
    (by rw [Item.drop_advance drop]; exact expected)
  rw [List.headD_cons] at entry
  rw [ParseTable.actionOn, known]
  simp only [entry, ne_eq, Except.ok.injEq, acts, not_false_eq_true]

/-- One step leads to a configuration that is prompt. -/
theorem Sound.prompt_of_moves {next : Config} (sound : Sound grammar actions scan config symbols trees)
    (moves : Moves (.ofGrammar grammar) actions config next) : next.Prompt grammar := by
  intro index last
  cases moves with
  | shift state lookahead input asked fetched =>
      simp [logged, Translator.record, Event.move?] at last
  | reduce _ production head translator target asked found ran enters =>
      exact sound.acts_of_reduce wellFormed clean live asked found enters

theorem Prompt.of_reaches {last : Config} (sound : Sound grammar actions scan config symbols trees)
    (prompt : config.Prompt grammar) (reaches : Reaches (.ofGrammar grammar) actions config last) :
    last.Prompt grammar := by
  induction reaches generalizing symbols trees with
  | refl config => exact prompt
  | step config next last moves _ ih =>
      obtain ⟨symbols', trees', after⟩ := sound.of_moves wellFormed moves
      exact ih after (sound.prompt_of_moves wellFormed clean live moves)

/-- From a stack that settles and does not refuse the lookahead, reductions lead to where it is dealt
with. -/
theorem Sound.exists_resolves {terminal : Nat}
    (settles : (ParseTable.ofGrammar grammar).Settles terminal config.states)
    (sound : Sound grammar actions scan config symbols trees)
    (known : (ParseTable.ofGrammar grammar).terminal? config.lookahead = some terminal)
    (acts : (ParseTable.ofGrammar grammar).actionOn config.top config.lookahead ≠ .ok .error) :
    ∃ later, Reaches (.ofGrammar grammar) actions config later ∧
      later.lookahead = config.lookahead ∧ later.input = config.input ∧
      later.Resolves (.ofGrammar grammar) actions := by
  generalize stack : config.states = states at settles
  induction settles generalizing config symbols trees with
  | intro states _ ih =>
      subst stack
      obtain ⟨action, asked⟩ := sound.exists_action
      cases action with
      | error => exact absurd asked acts
      | shift state => exact ⟨config, .refl config, rfl, rfl, .shift state asked⟩
      | accept => exact ⟨config, .refl config, rfl, rfl, .accept asked⟩
      | reduce index =>
          obtain ⟨production, _, target, old, _, enters⟩ := sound.exists_replaced wellFormed asked
          have found := Grammar.construction_of_found old
          cases ran : Reduction.run (actions.getD index .nothing) config.attributes
            config.lookahead.start (config.logged (.ofGrammar grammar) (.reduce index)) with
          | error failure translator =>
              exact ⟨config, .refl config, rfl, rfl, .fail index failure translator asked ran⟩
          | ok head translator =>
              have moves : Moves (.ofGrammar grammar) actions config _ :=
                .reduce index production head translator target asked found ran enters
              obtain ⟨_, _, _, _, _, after⟩ := sound.reduce wellFormed asked found ran enters
              obtain ⟨id, read, entry⟩ := ParseTable.actionOn_eq_ok asked (by simp)
              rw [known] at read
              cases read
              obtain ⟨later, reaches, lookahead, input, resolves⟩ :=
                ih _ (.intro index target production entry found enters) after known
                  (sound.acts_of_reduce wellFormed clean live asked found enters) rfl
              exact ⟨later, .step config _ later moves reaches, lookahead, input, resolves⟩

end Config

/-- After the given tokens of a source comes the lookahead: the next token, or the end of input. -/
def Scan.Ahead (scan : Scan) (shifted : List Token) (lookahead : Token) : Prop :=
  (∃ rest, scan.tokens = shifted ++ lookahead :: rest) ∨
    (scan.tokens = shifted ∧ scan.error = none ∧ lookahead.kind = .eof)

namespace ParseTable

variable {description : Description} {grammar : Grammar}

/-- What a run that refuses the lookahead has read, with the configuration where it does. -/
theorem Halts.refused {actions : Array Semantic} {source : String} {outcome : Outcome}
    {state pos : Nat} {terminal : String} {table : ParseTable}
    (halts : table.Halts actions source outcome)
    (verdict : outcome.verdict = .rejected (.noAction state terminal pos)) :
    ∃ lookahead input last, (Scan.ofString source).next = .ok (lookahead, input) ∧
      Config.Reaches table actions (.first lookahead input) last ∧
      table.actionOn last.top last.lookahead = .ok .error ∧
      movesOf outcome.log = movesOf last.translator.log ∧
      terminal = table.terminalName last.lookahead ∧ pos = last.lookahead.start := by
  obtain ⟨fuel, halted⟩ := halts
  rcases stops_of_parse_halted halted with
    ⟨error, rfl⟩ | ⟨lookahead, input, last, fetched, reaches, stops⟩
  · cases verdict
  · cases stops with
    | refused asked =>
        cases verdict
        refine ⟨lookahead, input, last, fetched, reaches, asked, ?_, rfl, rfl⟩
        simp [Config.logged, Translator.record, Event.move?]
    | _ => cases verdict

/-- Over tables without conflicts a token is refused only if no sentence goes on with its terminal,
and the end of input only if what was read is no sentence. If moreover each nonterminal that occurs
in a form derived from the start symbol derives nothing or a form that begins with a token, then
nothing has been reduced on the token that is refused, and once something is reduced on a token, the
run goes on to read it or to accept, unless a semantic action fails. -/
theorem refusal_immediate (built : description.build = .ok grammar)
    (clean : (ParseTable.ofGrammar grammar).conflicts = []) (actions : Array Semantic)
    (source : String) :
    (∀ outcome state terminal pos, (ParseTable.ofGrammar grammar).Halts actions source outcome →
      outcome.verdict = .rejected (.noAction state terminal pos) →
      ∃ (shifted : List Token) (lookahead : Token) (word : List Nat),
        (Scan.ofString source).Ahead shifted lookahead ∧
        outcome.lexemes = shifted.map Token.text ∧
        terminal = (ParseTable.ofGrammar grammar).terminalName lookahead ∧ pos = lookahead.start ∧
        shifted.map (ParseTable.ofGrammar grammar).terminal? = word.map some ∧
        (∀ id, (ParseTable.ofGrammar grammar).terminal? lookahead = some id → ∀ suffix : List Nat,
          ¬grammar.Derives [.nonterminal grammar.start] ((word ++ id :: suffix).map .token)) ∧
        ((ParseTable.ofGrammar grammar).terminal? lookahead = some (ParseTable.ofGrammar grammar).eof →
          ¬grammar.Derives [.nonterminal grammar.start] (word.map .token))) ∧
    ((∀ id, grammar.Occurs id → grammar.Live id) →
      (∀ outcome state terminal pos, (ParseTable.ofGrammar grammar).Halts actions source outcome →
        outcome.verdict = .rejected (.noAction state terminal pos) →
        ∀ index, (movesOf outcome.log).getLast? ≠ some (.join index)) ∧
      ∀ fuel config index, (ParseTable.ofGrammar grammar).parse actions fuel source =
          .running config →
        (movesOf config.translator.log).getLast? = some (.join index) →
        ∃ later, Config.Reaches (.ofGrammar grammar) actions config later ∧
          later.lookahead = config.lookahead ∧ later.input = config.input ∧
          later.Resolves (.ofGrammar grammar) actions) := by
  have wellFormed := Description.wellFormed_of_build built
  refine ⟨?_, fun live => ⟨?_, ?_⟩⟩
  · intro outcome state terminal pos halts verdict
    obtain ⟨first, input, last, fetched, reaches, refused, log, rfl, rfl⟩ := halts.refused verdict
    obtain ⟨symbols, trees, sound, traced⟩ := Config.Traced.of_reaches wellFormed
      (Config.Sound.first wellFormed fetched) (Config.traced_first grammar first input) reaches
    obtain ⟨word, read, _⟩ := sound.parses.rightmost
    refine ⟨trees.flatMap Tree.leaves, last.lookahead, word, ?_, ?_, rfl, rfl, read, ?_, ?_⟩
    · obtain ⟨rest, unread, tokens⟩ := sound.unread
      cases unread with
      | ahead => exact .inl ⟨_, tokens⟩
      | finished ends _ clear =>
          rw [List.append_nil] at tokens
          exact .inr ⟨tokens, sound.error.symm.trans clear, by rw [ends]; rfl⟩
    · rw [Outcome.lexemes, log, sound.moves]
      exact sound.parses.texts_moves Token.text
    · intro id known suffix
      exact traced.not_derives wellFormed clean refused read (by rw [known]; rfl)
    · intro known
      have never : ¬grammar.Derives [.nonterminal grammar.start] ((word ++ []).map .token) :=
        traced.not_derives wellFormed clean refused read known
      rwa [List.append_nil] at never
  · intro outcome state terminal pos halts verdict index last
    obtain ⟨first, input, final, fetched, reaches, refused, log, _, _⟩ := halts.refused verdict
    have prompt := Config.Prompt.of_reaches wellFormed clean live
      (Config.Sound.first wellFormed fetched) (by intro index last; cases last) reaches
    rw [log] at last
    exact prompt index last refused
  · intro fuel config index running last
    obtain ⟨first, input, fetched, reaches⟩ := reaches_of_parse_running running
    have begun : Config.Sound grammar actions (Scan.ofString source) (.first first input) [] [] :=
      .first wellFormed fetched
    have prompt := Config.Prompt.of_reaches wellFormed clean live begun
      (by intro index last; cases last) reaches
    obtain ⟨symbols, trees, sound⟩ := begun.of_reaches wellFormed reaches
    have acts := prompt index last
    cases known : (ParseTable.ofGrammar grammar).terminal? config.lookahead with
    | none => exact absurd (by rw [actionOn, known]) acts
    | some terminal =>
        exact sound.exists_resolves wellFormed clean live
          (Grammar.settles_of_linked wellFormed clean live sound.linked) known acts

end ParseTable

/-- A semicolon after an empty mark. -/
def Description.marked : Description :=
  ((Description.addTokens {} [";"]).rule "list" ["mark", ";"]).rule "mark" []

def Grammar.marked : Grammar :=
  ⟨[";"], ["list", "mark"], [⟨0, [.nonterminal 1, .token 0]⟩, ⟨1, []⟩],
    ⟨[(0, [0]), (1, [1])]⟩, 0⟩

/-- The mark is reduced on the first semicolon, which is read afterwards; the second one is refused
at once. -/
theorem ParseTable.refusal_immediate_marked :
    (∀ id, Grammar.marked.Occurs id → Grammar.marked.Live id) ∧
    (∃ outcome shifted lookahead word,
      (ParseTable.ofGrammar .marked).Halts #[] ";;" outcome ∧
      outcome.verdict = .rejected (.noAction 3 ";" 1) ∧
      movesOf outcome.log = [.join 1, .read ";"] ∧
      (Scan.ofString ";;").Ahead shifted lookahead ∧ outcome.lexemes = shifted.map Token.text ∧
      shifted.map (ParseTable.ofGrammar .marked).terminal? = word.map some ∧
      ∀ id, (ParseTable.ofGrammar .marked).terminal? lookahead = some id → ∀ suffix : List Nat,
        ¬Grammar.marked.Derives [.nonterminal 0] ((word ++ id :: suffix).map .token)) ∧
    ∃ config later, (ParseTable.ofGrammar .marked).parse #[] 1 ";;" = .running config ∧
      Config.Reaches (.ofGrammar .marked) #[] config later ∧
      later.lookahead = config.lookahead ∧ later.Resolves (.ofGrammar .marked) #[] := by
  have built : Description.marked.build = .ok .marked := by decide +kernel
  have vanishing : Grammar.marked.Derives [.nonterminal 1] [] :=
    .step [] [] 1 ⟨1, []⟩ _ rfl (.refl [])
  have beginning : Grammar.marked.Derives [.nonterminal 0] [.token 0] := by
    refine .step [] [] 0 ⟨0, [.nonterminal 1, .token 0]⟩ _ rfl ?_
    exact .step [] [.token 0] 1 ⟨1, []⟩ _ rfl (.refl _)
  have live : ∀ id, Grammar.marked.Occurs id → Grammar.marked.Live id := by
    intro id occurs
    have known : id < 2 := occurs.lt (Description.wellFormed_of_build built)
    match id, known with
    | 0, _ => exact .inr ⟨0, [], beginning⟩
    | 1, _ => exact .inl vanishing
  have refusal := refusal_immediate built (by decide +kernel) #[] ";;"
  have halts : (ParseTable.ofGrammar .marked).Halts #[] ";;"
      ⟨.rejected (.noAction 3 ";" 1),
        #[.step 1 [0] ";" ";" (.reduce 1), .step 2 [2, 0] ";" ";" (.shift 3),
          .step 3 [3, 2, 0] ";" ";" .error]⟩ :=
    ⟨3, by decide +kernel⟩
  obtain ⟨shifted, lookahead, word, ahead, lexemes, _, _, read, never, _⟩ :=
    refusal.1 _ 3 ";" 1 halts rfl
  have running : (ParseTable.ofGrammar .marked).parse #[] 1 ";;" = .running
      ⟨[2, 0], [.none, .none], ⟨.delimiter, ";", 0⟩, ⟨[⟨.delimiter, ";", 1⟩], none, 2⟩,
        { Translator.first with log := #[.step 1 [0] ";" ";" (.reduce 1)] }, 1⟩ := by
    decide +kernel
  obtain ⟨later, reaches, same, _, resolves⟩ := (refusal.2 live).2 1 _ 1 running rfl
  exact ⟨live, ⟨_, shifted, lookahead, word, halts, rfl, rfl, ahead, lexemes, read, never⟩,
    _, later, running, reaches, same, resolves⟩

/-- Lists of an empty item, a mark and a rest that goes on for ever, so that nothing can be expected
after the mark. -/
def Description.dangling : Description :=
  ((((Description.addTokens {} [";", "="]).rule "list" ["item", "mark", "rest"]).rule "item" []).rule
    "mark" [";"]).rule "rest" ["rest", "="]

def Grammar.dangling : Grammar :=
  ⟨[";", "="], ["list", "item", "mark", "rest"],
    [⟨0, [.nonterminal 1, .nonterminal 2, .nonterminal 3]⟩, ⟨1, []⟩, ⟨2, [.token 0]⟩,
      ⟨3, [.nonterminal 3, .token 1]⟩],
    ⟨[(0, [0]), (1, [1]), (2, [2]), (3, [3])]⟩, 0⟩

/-- There are tables without conflicts over which a token is refused after a reduction on it. -/
theorem ParseTable.refusal_late_dangling :
    Description.dangling.build = .ok .dangling ∧
      (ParseTable.ofGrammar .dangling).conflicts = [] ∧
      ∃ outcome, (ParseTable.ofGrammar .dangling).Halts #[] ";" outcome ∧
        outcome.verdict = .rejected (.noAction 2 ";" 0) ∧
        movesOf outcome.log = [.join 1] := by
  refine ⟨by decide +kernel, by decide +kernel, ⟨.rejected (.noAction 2 ";" 0),
    #[.step 1 [0] ";" ";" (.reduce 1), .step 2 [2, 0] ";" ";" .error]⟩, ⟨2, by decide +kernel⟩, rfl,
    rfl⟩

end ThreeAddress

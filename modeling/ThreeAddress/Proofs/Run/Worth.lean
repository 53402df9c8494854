import ThreeAddress.Proofs.Run.Sound

/-!
A bound on the steps of a run. Every symbol on the stack has a weight, and above it there is some
room for empty bodies. If a head is always worth less than its body, reductions lower the worth of
the stack, and only reading a token can raise it.
-/

set_option autoImplicit false

namespace ThreeAddress

/-- The worth of symbols on a stack. -/
structure Valuation where
  weight : Symbol → Nat
  /-- What can be spent right above a symbol. -/
  room : Symbol → Nat
  /-- What a symbol must find to spend where it begins. -/
  needs : Symbol → Nat

namespace Valuation

variable (valuation : Valuation)

/-- Each symbol of a sequence finds what it needs, and the first one finds `limit`. -/
def affords : (limit : Nat) → List Symbol → Bool
  | _, [] => true
  | limit, symbol :: rest =>
    decide (valuation.needs symbol ≤ limit) && affords (valuation.room symbol) rest

/-- What can be spent on top of a stack, with `limit` at the bottom. -/
def top (limit : Nat) : List Symbol → Nat
  | [] => limit
  | symbol :: _ => valuation.room symbol

def totalWeight : List Symbol → Nat
  | [] => 0
  | symbol :: rest => valuation.weight symbol + totalWeight rest

/-- What a stack is worth: the weight of its symbols, and what can be spent on top. -/
def worth (limit : Nat) (symbols : List Symbol) : Nat :=
  valuation.totalWeight symbols + valuation.top limit symbols

/-- The body can be afforded where the head can, and the head is worth less than the body. -/
def lowers (production : Production) : Bool :=
  valuation.affords (valuation.needs (.nonterminal production.head)) production.body &&
    decide (valuation.worth 0 [.nonterminal production.head] <
      valuation.worth (valuation.needs (.nonterminal production.head)) production.body.reverse)

variable {valuation}

theorem affords_mono {limit larger : Nat} {symbols : List Symbol} (le : limit ≤ larger)
    (affords : valuation.affords limit symbols = true) :
    valuation.affords larger symbols = true := by
  cases symbols with
  | nil => rfl
  | cons symbol rest =>
      simp only [Valuation.affords, Bool.and_eq_true, decide_eq_true_eq] at affords ⊢
      exact ⟨Nat.le_trans affords.1 le, affords.2⟩

theorem worth_mono {limit larger : Nat} (symbols : List Symbol) (le : limit ≤ larger) :
    valuation.worth limit symbols ≤ valuation.worth larger symbols := by
  cases symbols with
  | nil => exact Nat.add_le_add_left le _
  | cons symbol rest => exact Nat.le_refl _

theorem top_append (limit : Nat) (symbols earlier : List Symbol) :
    valuation.top limit (symbols ++ earlier) =
      valuation.top (valuation.top limit earlier) symbols := by
  cases symbols <;> rfl

theorem totalWeight_append (symbols earlier : List Symbol) :
    valuation.totalWeight (symbols ++ earlier) =
      valuation.totalWeight symbols + valuation.totalWeight earlier := by
  induction symbols with
  | nil => simp [totalWeight]
  | cons symbol rest ih => simp [totalWeight, ih, Nat.add_assoc]

theorem worth_append (limit : Nat) (symbols earlier : List Symbol) :
    valuation.worth limit (symbols ++ earlier) =
      valuation.worth (valuation.top limit earlier) symbols + valuation.totalWeight earlier := by
  rw [worth, worth, top_append, totalWeight_append]
  omega

/-- A reduction lowers the worth if its head finds what it needs under the body. -/
theorem worth_lt_of_lowers {limit : Nat} {production : Production} {earlier : List Symbol}
    (lowers : valuation.lowers production = true)
    (found : valuation.needs (.nonterminal production.head) ≤ valuation.top limit earlier) :
    valuation.worth limit (.nonterminal production.head :: earlier) <
      valuation.worth limit (production.body.reverse ++ earlier) := by
  simp only [Valuation.lowers, Bool.and_eq_true, decide_eq_true_eq] at lowers
  have grows := valuation.worth_mono production.body.reverse found
  have single : valuation.worth (valuation.top limit earlier) [.nonterminal production.head] =
      valuation.worth 0 [.nonterminal production.head] := rfl
  rw [← List.singleton_append, worth_append, worth_append, single]
  omega

theorem worth_cons_le (limit : Nat) (symbol : Symbol) (symbols : List Symbol) :
    valuation.worth limit (symbol :: symbols) ≤
      valuation.worth limit symbols + (valuation.weight symbol + valuation.room symbol) := by
  simp only [worth, top, totalWeight]
  omega

variable (valuation)

/-- The rest of an item can be afforded, and so can the head of an item at its beginning. -/
structure Placed (grammar : Grammar) (limit : Nat) (item : Item) : Prop where
  affords : valuation.affords limit
    ((grammar.construction.grammar.bodyOf item.production).drop item.dot) = true
  needs : item.dot = 0 → ∀ production, grammar.productions[item.production]? = some production →
    valuation.needs (.nonterminal production.head) ≤ limit

variable {valuation}

section Items

variable {grammar : Grammar} (wellFormed : grammar.WellFormed)
  (lowers : ∀ production ∈ grammar.productions, valuation.lowers production = true)

include wellFormed lowers

theorem Placed.called {limit : Nat} {item next : Item} (placed : valuation.Placed grammar limit item)
    (called : next ∈ grammar.construction.closureStep item) :
    valuation.Placed grammar limit next := by
  obtain ⟨production, rest, drop, old, atStart, _⟩ := wellFormed.exists_called called
  have afforded := placed.affords
  rw [drop] at afforded
  simp only [Valuation.affords, Bool.and_eq_true, decide_eq_true_eq] at afforded
  have checked := lowers production (List.mem_of_getElem? old)
  simp only [Valuation.lowers, Bool.and_eq_true] at checked
  constructor
  · rw [Grammar.bodyOf_eq (Grammar.construction_of_found old), atStart, List.drop_zero]
    exact affords_mono afforded.1 checked.1
  · intro _ other found
    rw [old] at found
    cases found
    exact afforded.1

/-- The items of the state on top of a stack can be afforded there. -/
theorem placed_of_linked {state : Nat} {states : List Nat} {symbols : List Symbol} {items : ItemSet}
    (linked : grammar.construction.Linked grammar.construction.collection.sets (state :: states)
      symbols)
    (holds : grammar.construction.collection.sets[state]? = some items) :
    ∀ item ∈ items, valuation.Placed grammar
      (valuation.top (valuation.needs (.nonterminal grammar.start)) symbols) item := by
  generalize stack : state :: states = entire at linked
  induction linked generalizing state states items with
  | bottom start =>
      cases stack
      rw [start] at holds
      cases holds
      refine Construction.closure_least wellFormed.construction_inRange (fun _ placed _ called =>
        placed.called wellFormed lowers called) ?_
      intro item member
      rw [List.mem_singleton.mp member, wellFormed.acceptProduction_eq]
      constructor
      · rw [Item.initial, Grammar.WellFormed.bodyOf_last]
        simp [Valuation.affords, top]
      · intro _ production found
        simp [Item.initial] at found
  | push target below rest symbol symbols belowItems linked belowHolds leads enters ih =>
      cases stack
      rw [enters] at holds
      cases holds
      refine Construction.goto_least wellFormed.construction_inRange (fun _ placed _ called =>
        placed.called wellFormed lowers called) ?_
      intro item member next
      have placed := ih belowHolds rfl item member
      obtain ⟨tail, drop⟩ := Item.nextSymbol_eq_some.mp next
      constructor
      · have afforded := placed.affords
        rw [drop] at afforded
        simp only [Valuation.affords, Bool.and_eq_true] at afforded
        rw [Item.drop_advance drop]
        exact afforded.2
      · intro atStart
        cases atStart

end Items

end Valuation

namespace Config

variable {grammar : Grammar} {valuation : Valuation} {actions : Array Semantic} {scan : Scan}
  {most : Nat}

/-- What a run can still spend: the worth of the stack, and a share for each token ahead. -/
def budget (valuation : Valuation) (grammar : Grammar) (most : Nat) (scan : Scan)
    (symbols : List Symbol) (trees : List (Tree Token)) : Nat :=
  valuation.worth (valuation.needs (.nonterminal grammar.start)) symbols +
    (most + 1) * (scan.tokens.length - (trees.flatMap Tree.leaves).length)

/-- Each step spends something. -/
theorem Sound.budget_lt (wellFormed : grammar.WellFormed)
    (lowers : ∀ production ∈ grammar.productions, valuation.lowers production = true)
    (bounded : ∀ id, valuation.weight (.token id) + valuation.room (.token id) ≤ most)
    {config next : Config} {symbols : List Symbol} {trees : List (Tree Token)}
    (sound : Sound grammar actions scan config symbols trees)
    (moves : Moves (.ofGrammar grammar) actions config next) :
    ∃ symbols' trees', Sound grammar actions scan next symbols' trees' ∧
      budget valuation grammar most scan symbols' trees' <
        budget valuation grammar most scan symbols trees := by
  cases moves with
  | shift state lookahead input asked fetched =>
      obtain ⟨id, after⟩ := sound.shift wellFormed asked fetched
      refine ⟨_, _, after, ?_⟩
      have count := after.leaves_le
      have raised := valuation.worth_cons_le (valuation.needs (.nonterminal grammar.start))
        (.token id) symbols
      have share := bounded id
      simp only [List.flatMap_append, List.flatMap_singleton, Tree.leaves_leaf, List.length_append,
        List.length_singleton] at count
      simp only [budget, List.flatMap_append, List.flatMap_singleton, Tree.leaves_leaf,
        List.length_append, List.length_singleton]
      -- One token less is ahead, and its share pays for the symbol it becomes.
      have ahead : scan.tokens.length - (trees.flatMap Tree.leaves).length =
          scan.tokens.length - ((trees.flatMap Tree.leaves).length + 1) + 1 := by omega
      rw [ahead, Nat.mul_add_one]
      omega
  | reduce index production head translator target asked found ran enters =>
      obtain ⟨old, _, _, origin, under, origins, earlier, _, _, _, bottom, originHolds, initial, _,
        same⟩ := sound.exists_reduced wellFormed asked found
      obtain ⟨earlier', left, right, same', rfl, after⟩ :=
        sound.reduce wellFormed asked found ran enters
      obtain rfl : earlier = earlier' := List.append_cancel_left (same.symm.trans same')
      refine ⟨_, _, after, ?_⟩
      have placed := Valuation.placed_of_linked wellFormed lowers bottom originHolds _ initial
      have dropped := Valuation.worth_lt_of_lowers (lowers production (List.mem_of_getElem? old))
        (placed.needs rfl production old)
      simp only [budget, same, List.flatMap_append, List.flatMap_singleton, Tree.leaves_node]
      omega

/-- A run with enough fuel for its budget halts. -/
theorem Sound.run_halts (wellFormed : grammar.WellFormed)
    (lowers : ∀ production ∈ grammar.productions, valuation.lowers production = true)
    (bounded : ∀ id, valuation.weight (.token id) + valuation.room (.token id) ≤ most)
    {fuel : Nat} {config : Config} {symbols : List Symbol} {trees : List (Tree Token)}
    (sound : Sound grammar actions scan config symbols trees)
    (enough : budget valuation grammar most scan symbols trees < fuel) :
    ∃ outcome, config.run (.ofGrammar grammar) actions fuel = .halted outcome := by
  induction fuel generalizing config symbols trees with
  | zero => omega
  | succ fuel ih =>
      unfold Config.run
      split
      · rename_i next step
        obtain ⟨symbols', trees', after, less⟩ :=
          sound.budget_lt wellFormed lowers bounded (moves_of_step step)
        exact ih after (by omega)
      · exact ⟨_, rfl⟩

/-- More fuel does not change how a run ends. -/
theorem run_mono {table : ParseTable} {fuel more : Nat} {config : Config} {outcome : Outcome}
    (run : config.run table actions fuel = .halted outcome) (le : fuel ≤ more) :
    config.run table actions more = .halted outcome := by
  induction more generalizing config fuel with
  | zero =>
      rw [Nat.le_zero.mp le] at run
      exact run
  | succ more ih =>
      cases fuel with
      | zero => cases run
      | succ fuel =>
          unfold Config.run at run ⊢
          split at run
          · exact ih run (Nat.le_of_succ_le_succ le)
          · exact run

end Config

theorem ParseTable.parse_mono {table : ParseTable} {actions : Array Semantic} {fuel more : Nat}
    {source : String} {outcome : Outcome}
    (parsed : table.parse actions fuel source = .halted outcome) (le : fuel ≤ more) :
    table.parse actions more source = .halted outcome := by
  unfold parse at parsed ⊢
  split at parsed
  · exact Config.run_mono parsed le
  · exact parsed

/-- With a worth that reductions lower, a run takes no more steps than the tokens pay for. -/
theorem ParseTable.exists_parse_halted {grammar : Grammar} (wellFormed : grammar.WellFormed)
    (valuation : Valuation)
    (lowers : ∀ production ∈ grammar.productions, valuation.lowers production = true) {most : Nat}
    (bounded : ∀ id, valuation.weight (.token id) + valuation.room (.token id) ≤ most)
    (actions : Array Semantic) (source : String) :
    ∃ outcome, (ParseTable.ofGrammar grammar).parse actions
      (valuation.needs (.nonterminal grammar.start) +
        (most + 1) * (Scan.ofString source).tokens.length + 1) source = .halted outcome := by
  cases fetched : (Scan.ofString source).next with
  | error error => exact ⟨_, parse_of_error fetched _⟩
  | ok both =>
      obtain ⟨lookahead, input⟩ := both
      rw [parse_of_next fetched]
      have sound : Config.Sound grammar actions (Scan.ofString source) (.first lookahead input) []
        [] := .first wellFormed fetched
      refine sound.run_halts wellFormed lowers bounded ?_
      simp [Config.budget, Valuation.worth, Valuation.totalWeight, Valuation.top]

end ThreeAddress

import ThreeAddress.Proofs.Grammar.Tree
import ThreeAddress.Proofs.Reduction
import ThreeAddress.Run

/-!
What can be read off the log of a run: the tokens it read, the productions it reduced by, and the
syntax trees that the two make up.
-/

set_option autoImplicit false

namespace ThreeAddress

/-- What a step does to a sequence of trees: it adds a token, or joins some of them by a production. -/
inductive Move where
  | read (text : String)
  | join (production : Nat)
deriving Repr, DecidableEq

namespace Move

def text? : Move → Option String
  | .read text => some text
  | .join _ => none

def production? : Move → Option Nat
  | .read _ => none
  | .join production => some production

/-- Adds a leaf to the trees, or joins the last ones by a production. The last tree comes first. -/
def grow (grammar : Grammar) (trees : List (Tree String)) : Move → List (Tree String)
  | .read text => .leaf text :: trees
  | .join production =>
    let count := (grammar.bodyOf production).length
    .node production (trees.take count).reverse :: trees.drop count

end Move

/-- The move of a step. A step that accepts or fails makes none. -/
def Event.move? : Event → Option Move
  | .step _ _ lexeme _ (.shift _) => some (.read lexeme)
  | .step _ _ _ _ (.reduce production) => some (.join production)
  | _ => none

/-- The moves of a log in order. -/
def movesOf (log : Array Event) : List Move := log.toList.filterMap Event.move?

@[simp] theorem movesOf_empty : movesOf #[] = [] := rfl

@[simp] theorem movesOf_push (log : Array Event) (event : Event) :
    movesOf (log.push event) = movesOf log ++ event.move?.toList := by
  rw [movesOf, movesOf, Array.toList_push, List.filterMap_append]
  cases move : event.move? with
  | none => rw [List.filterMap_cons_none move, List.filterMap_nil, Option.toList_none]
  | some made => rw [List.filterMap_cons_some move, List.filterMap_nil, Option.toList_some]

@[simp] theorem movesOf_append (front back : Array Event) :
    movesOf (front ++ back) = movesOf front ++ movesOf back := by
  rw [movesOf, movesOf, movesOf, Array.toList_append, List.filterMap_append]

namespace Outcome

/-- The texts of the tokens that were read, in order. -/
def lexemes (outcome : Outcome) : List String := (movesOf outcome.log).filterMap Move.text?

/-- The productions that were reduced by, in order. -/
def reductions (outcome : Outcome) : List Nat := (movesOf outcome.log).filterMap Move.production?

/-- The syntax trees that the reductions leave, the last one first. -/
def trees (grammar : Grammar) (outcome : Outcome) : List (Tree String) :=
  (movesOf outcome.log).foldl (Move.grow grammar) []

end Outcome

namespace Tree

mutual

/-- The moves that make up a tree. -/
def moves : Tree String → List Move
  | .leaf text => [.read text]
  | .node production children => movesAll children ++ [.join production]

def movesAll : List (Tree String) → List Move
  | [] => []
  | tree :: rest => tree.moves ++ movesAll rest

end

theorem movesAll_eq (trees : List (Tree String)) : movesAll trees = trees.flatMap moves := by
  induction trees with
  | nil => rfl
  | cons tree rest ih => rw [movesAll, ih, List.flatMap_cons]

@[simp] theorem moves_leaf (text : String) : (leaf text).moves = [.read text] := rfl

@[simp] theorem moves_node (production : Nat) (children : List (Tree String)) :
    (node production children).moves = children.flatMap moves ++ [.join production] := by
  rw [moves, movesAll_eq]

end Tree

namespace Grammar.Parses

variable {α : Type} {grammar : Grammar} {reads : α → Option Nat} {symbols : List Symbol}
  {trees : List (Tree α)}

theorem texts_moves (parsed : grammar.Parses reads symbols trees) (text : α → String) :
    ((trees.map (Tree.map text)).flatMap Tree.moves).filterMap Move.text? =
      (trees.flatMap Tree.leaves).map text := by
  induction parsed with
  | nil => rfl
  | leaf token _ _ _ _ _ ih => simp [ih, Move.text?]
  | node _ _ _ _ _ _ _ _ bodyIh ih => simp [bodyIh, ih, Move.text?, List.filterMap_cons]

theorem productions_moves (parsed : grammar.Parses reads symbols trees) (text : α → String) :
    ((trees.map (Tree.map text)).flatMap Tree.moves).filterMap Move.production? =
      trees.flatMap Tree.postorder := by
  induction parsed with
  | nil => rfl
  | leaf token _ _ _ _ _ ih => simp [ih, Move.production?, List.filterMap_cons]
  | node _ _ _ _ _ _ _ _ bodyIh ih => simp [bodyIh, ih, Move.production?]

/-- The moves of some trees rebuild them. -/
theorem foldl_grow (parsed : grammar.Parses reads symbols trees) (text : α → String)
    (before : List (Tree String)) :
    ((trees.map (Tree.map text)).flatMap Tree.moves).foldl (Move.grow grammar) before =
      (trees.map (Tree.map text)).reverse ++ before := by
  induction parsed generalizing before with
  | nil => rfl
  | leaf token _ _ _ _ _ ih =>
      rw [List.map_cons, List.flatMap_cons, Tree.map_leaf, Tree.moves_leaf, List.foldl_append, ih]
      simp [Move.grow]
  | node index production children _ _ found body _ bodyIh ih =>
      have count : (grammar.bodyOf index).length = (children.map (Tree.map text)).reverse.length := by
        rw [bodyOf, found, Option.map_some, Option.getD_some, List.length_reverse, List.length_map,
          body.length_eq]
      have joined : Move.grow grammar ((children.map (Tree.map text)).reverse ++ before)
          (.join index) = .node index (children.map (Tree.map text)) :: before := by
        simp only [Move.grow, count, List.take_left, List.drop_left, List.reverse_reverse]
      rw [List.map_cons, List.flatMap_cons, Tree.map_node, Tree.moves_node, List.foldl_append,
        List.foldl_append, bodyIh, List.foldl_cons, List.foldl_nil, joined, ih, List.reverse_cons,
        List.append_assoc, List.singleton_append]

end Grammar.Parses

namespace Reduction

variable {α β : Type} {action : Semantic} {stack : List Attribute}

/-- A computation that takes no notice of the log and logs no moves. -/
def Quiet (reduction : Reduction α) : Prop :=
  ∀ translator value after, reduction translator = .ok value after →
    ∃ events, movesOf events = [] ∧
      ∀ log, reduction { translator with log } = .ok value { after with log := log ++ events }

theorem Quiet.movesOf_eq {reduction : Reduction α} (quiet : Quiet reduction)
    {translator after : Translator} {value : α} (success : reduction translator = .ok value after) :
    movesOf after.log = movesOf translator.log := by
  obtain ⟨events, none, same⟩ := quiet translator value after success
  have again := EStateM.Result.ok.inj (success.symm.trans (same translator.log))
  have logged : after.log = translator.log ++ events := congrArg Translator.log again.2
  rw [logged, movesOf_append, none, List.append_nil]

theorem quiet_pure (value : α) : Quiet (pure value) := by
  intro translator result after success
  cases success
  refine ⟨#[], rfl, fun log => ?_⟩
  rw [Array.append_empty]
  rfl

theorem quiet_throw (failure : Failure) : Quiet (throw failure : Reduction α) := by
  intro translator result after success
  cases success

theorem Quiet.bind {first : Reduction α} {second : α → Reduction β} (quiet : Quiet first)
    (later : ∀ value, Quiet (second value)) : Quiet (first >>= second) := by
  intro translator result after success
  obtain ⟨value, middle, done, rest⟩ := exists_of_bind success
  obtain ⟨front, noneFront, firstSame⟩ := quiet translator value middle done
  obtain ⟨back, noneBack, secondSame⟩ := later value middle result after rest
  refine ⟨front ++ back, ?_, fun log => ?_⟩
  · rw [movesOf_append, noneFront, noneBack, List.append_nil]
  · rw [bind_of_ok second (firstSame log), ← Array.append_assoc]
    exact secondSame (log ++ front)

/-- What is read off the translator must not depend on the log. -/
theorem Quiet.get {next : Translator → Reduction α}
    (blind : ∀ translator log, next { translator with log } = next translator)
    (later : ∀ translator, Quiet (next translator)) :
    Quiet ((get : Reduction Translator) >>= next) := by
  intro translator result after success
  obtain ⟨events, none, same⟩ := later translator translator result after success
  refine ⟨events, none, fun log => ?_⟩
  rw [← same log, ← blind translator log]
  rfl

theorem quiet_modify {change : Translator → Translator}
    (keeps : ∀ translator, ∃ events, movesOf events = [] ∧ ∀ log,
      change { translator with log } = { change translator with log := log ++ events }) :
    Quiet (modify change : Reduction Unit) := by
  intro translator result after success
  cases success
  obtain ⟨events, none, same⟩ := keeps translator
  refine ⟨events, none, fun log => ?_⟩
  rw [← same log]
  rfl

theorem quiet_silent {change : Translator → α × Translator}
    (keeps : ∀ translator log, change { translator with log } =
      ((change translator).1, { (change translator).2 with log })) :
    Quiet (modifyGet change : Reduction α) := by
  intro translator result after success
  cases success
  refine ⟨#[], rfl, fun log => ?_⟩
  rw [Array.append_empty]
  change EStateM.Result.ok (change { translator with log }).1 (change { translator with log }).2 = _
  rw [keeps]

theorem quiet_emit (instruction : Instruction) : Quiet (emit instruction) := by
  refine quiet_modify fun translator => ⟨#[.emitted instruction], rfl, fun log => ?_⟩
  rw [← Array.push_eq_append]
  rfl

theorem quiet_declare (name : String) (size pos : Nat) : Quiet (declare name size pos) := by
  refine quiet_modify fun translator => ?_
  unfold Translator.declare
  cases defined : translator.symbols.defineData name translator.pendingType size pos with
  | ok both =>
      refine ⟨#[.defined both.1], rfl, fun log => ?_⟩
      rw [← Array.push_eq_append]
      simp only [defined]
  | error duplicate =>
      refine ⟨#[.duplicate duplicate], rfl, fun log => ?_⟩
      rw [← Array.push_eq_append]
      simp only [defined]

theorem quiet_slot (action : Semantic) (stack : List Attribute) (depth : Nat) :
    Quiet (slot action stack depth) := by
  unfold slot
  split
  · exact quiet_pure _
  · exact quiet_throw _

theorem quiet_placeAt (action : Semantic) (stack : List Attribute) (depth : Nat) :
    Quiet (placeAt action stack depth) :=
  (quiet_slot action stack depth).bind fun _ => quiet_pure _

theorem quiet_labelAt (action : Semantic) (stack : List Attribute) (depth : Nat) :
    Quiet (labelAt action stack depth) := by
  refine (quiet_slot action stack depth).bind fun found => ?_
  split
  · exact quiet_pure _
  · exact quiet_throw _

theorem quiet_loopAt (action : Semantic) (stack : List Attribute) (depth : Nat) :
    Quiet (loopAt action stack depth) := by
  refine (quiet_slot action stack depth).bind fun found => ?_
  split
  · exact quiet_pure _
  · exact quiet_throw _

theorem quiet_arraySize (text : String) : Quiet (arraySize text) := by
  unfold arraySize
  split
  · exact quiet_pure _
  · exact quiet_throw _

theorem quiet_growSize (size : Nat) : Quiet (growSize size) := by
  refine .get (fun _ _ => rfl) fun translator => ?_
  dsimp only
  split
  · exact quiet_pure _
  · split
    · exact quiet_pure _
    · exact quiet_throw _

theorem quiet_innermostExit : Quiet innermostExit := by
  refine .get (fun _ _ => rfl) fun translator => ?_
  split
  · exact quiet_pure _
  · exact quiet_throw _

theorem Looks.quiet {reduction : Reduction α} (looks : Looks action stack reduction) :
    Quiet reduction := by
  cases looks with
  | slot depth _ _ => exact quiet_slot action stack depth
  | place depth _ => exact quiet_placeAt action stack depth
  | label depth _ => exact quiet_labelAt action stack depth
  | loop depth _ => exact quiet_loopAt action stack depth
  | arraySize text => exact quiet_arraySize text
  | growSize size => exact quiet_growSize size
  | pendingSize => exact .get (fun _ _ => rfl) fun _ => quiet_pure _
  | innermostExit _ => exact quiet_innermostExit

/-- What is emitted and declared is logged, and no other change is. -/
theorem Changes.quiet {reduction : Reduction α} (changes : Changes reduction) :
    Quiet reduction := by
  cases changes with
  | emit instruction => exact quiet_emit instruction
  | declare name size pos => exact quiet_declare name size pos
  | _ => exact quiet_silent fun _ _ => rfl

theorem Acts.quiet {reduction : Reduction α} (acts : Acts reduction) : Quiet reduction := by
  induction acts with
  | done value => exact quiet_pure value
  | next changes _ ih => exact changes.quiet.bind ih

theorem Staged.quiet {reduction : Reduction α} (staged : Staged action stack reduction) :
    Quiet reduction := by
  induction staged with
  | looks looks => exact looks.quiet
  | acts acts => exact acts.quiet
  | next looks _ ih => exact looks.quiet.bind ih

/-- Semantic actions log what they emit and declare, but no moves. -/
theorem quiet_run (action : Semantic) (stack : List Attribute) (pos : Nat) :
    Quiet (run action stack pos) := (staged_run pos).quiet

end Reduction

end ThreeAddress

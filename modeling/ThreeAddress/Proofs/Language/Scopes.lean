import ThreeAddress.Proofs.Language.Declarations
import ThreeAddress.Proofs.Language.Inversion
import ThreeAddress.Proofs.Meaning.Emit
import ThreeAddress.Proofs.SymbolTable

/-!
The scopes of the translator against the blocks of the source. A marker opens a scope and a later
rule closes it, so in between the stack of trees stands for blocks that are open; the symbol table
has the recorded declarations of just these.
-/

set_option autoImplicit false

namespace ThreeAddress

/-- The entries that a log has as defined, in order. -/
def Event.entry? : Event → Option SymbolEntry
  | .defined entry => some entry
  | _ => none

def definedOf (log : Array Event) : List SymbolEntry := log.toList.filterMap Event.entry?

@[simp] theorem definedOf_push (log : Array Event) (event : Event) :
    definedOf (log.push event) = definedOf log ++ event.entry?.toList := by
  rw [definedOf, definedOf, Array.toList_push, List.filterMap_append]
  cases event <;> rfl

/-- The marker at the beginning of a nested block. -/
def Tree.opensScope (actions : Array Semantic) : Tree Token → Bool
  | .leaf _ => false
  | .node index _ => actions.getD index .nothing == .scopeEnter

/-- Where the reading of a source stands: the open blocks, the number of the next block, and the
declarations so far. -/
structure Scopes where
  blocks : List Nat := [0]
  next : Nat := 1
  declared : List Declaration := []
deriving Repr, DecidableEq

namespace Scopes

variable {actions : Array Semantic}

/-- What an action does, with the trees of its body. -/
def act (action : Semantic) (children : List (Tree Token)) (scopes : Scopes) : Scopes :=
  match action with
  | .scopeEnter => ⟨scopes.next :: scopes.blocks, scopes.next + 1, scopes.declared⟩
  | .nestedBlock => { scopes with blocks := scopes.blocks.tail }
  | .decl | .declArray =>
    { scopes with
      declared := scopes.declared ++ (Tree.declared? scopes.blocks children).toList }
  | _ => scopes

/-- Goes on past a tree. The marker of a block opens it for the trees that follow. -/
def read (actions : Array Semantic) (scopes : Scopes) (tree : Tree Token) : Scopes :=
  if tree.opensScope actions then
    scopes.act .scopeEnter []
  else
    ⟨scopes.blocks, scopes.next + tree.blockCount,
      scopes.declared ++ tree.declarations scopes.blocks scopes.next⟩

def readAll (actions : Array Semantic) (scopes : Scopes) (trees : List (Tree Token)) : Scopes :=
  trees.foldl (read actions) scopes

@[simp] theorem readAll_append (scopes : Scopes) (left right : List (Tree Token)) :
    scopes.readAll actions (left ++ right) = (scopes.readAll actions left).readAll actions right :=
  List.foldl_append

@[simp] theorem readAll_singleton (scopes : Scopes) (tree : Tree Token) :
    scopes.readAll actions [tree] = scopes.read actions tree := rfl

@[simp] theorem read_leaf (scopes : Scopes) (token : Token) :
    scopes.read actions (.leaf token) = scopes := by
  simp [read, Tree.opensScope, Tree.blockCount, Tree.declarations]

/-- Trees without markers leave the same blocks open. -/
theorem readAll_of_closed (scopes : Scopes) {trees : List (Tree Token)}
    (closed : ∀ tree ∈ trees, tree.opensScope actions = false) :
    scopes.readAll actions trees =
      ⟨scopes.blocks, scopes.next + Tree.blockCountAll trees,
        scopes.declared ++ Tree.declarationsAll scopes.blocks scopes.next trees⟩ := by
  induction trees generalizing scopes with
  | nil => simp [readAll, Tree.blockCountAll, Tree.declarationsAll]
  | cons tree rest ih =>
      obtain ⟨shut, later⟩ := List.forall_mem_cons.mp closed
      change (scopes.read actions tree).readAll actions rest = _
      rw [ih _ later]
      simp [read, shut, Tree.blockCountAll, Tree.declarationsAll, Nat.add_assoc]

theorem blocks_readAll (scopes : Scopes) (trees : List (Tree Token)) :
    scopes.blocks <:+ (scopes.readAll actions trees).blocks := by
  induction trees generalizing scopes with
  | nil => exact List.suffix_rfl
  | cons tree rest ih =>
      refine List.IsSuffix.trans ?_ (ih (scopes.read actions tree))
      unfold read
      split
      · exact List.suffix_cons _ _
      · exact List.suffix_rfl

end Scopes

section Forest

variable {actions : Array Semantic} {body : List Role} {head : Role} {index : Nat}
  {right : List (Tree Token)}

/-- A block begins with its marker, no other body has one, and the head is a marker if the action
opens a scope. -/
theorem Semantic.scopes_of_fits {action : Semantic} (fits : action.fits body head = true) :
    (action = .nestedBlock → body = [.scope, .block]) ∧
      (action ≠ .nestedBlock → .scope ∉ body) ∧ (head = .scope ↔ action = .scopeEnter) := by
  cases fitting_of_fits fits <;> simp

/-- A marker and a block, and no other body, look like the body of a scope. -/
theorem Semantic.areScoped_iff {action : Semantic} (fits : action.fits body head = true)
    (shown : List.Forall₂ Role.Shows body right) :
    Tree.areScoped right = true ↔ action = .nestedBlock := by
  constructor
  · intro nests
    have length : body.length = 2 := shown.length_eq.trans (Tree.length_of_areScoped nests)
    cases fitting_of_fits fits with
    | nestedBlock => rfl
    | seq =>
        rcases shown with _ | ⟨⟨_, _, rfl, _⟩, _ | ⟨⟨_, _, _, plain⟩, ⟨⟩⟩⟩
        exact absurd nests (by simp [Tree.areScoped, plain])
    | unary op =>
        rcases shown with _ | ⟨⟨_, rfl, _⟩, _ | ⟨_, ⟨⟩⟩⟩
        cases nests
    | breakLoop =>
        rcases shown with _ | ⟨⟨_, rfl, _⟩, _ | ⟨_, ⟨⟩⟩⟩
        cases nests
    | _ => simp at length
  · rintro rfl
    cases fitting_of_fits fits with
    | nestedBlock =>
        rcases shown with _ | ⟨⟨_, _, rfl⟩, _ | ⟨⟨_, _, _, braced⟩, ⟨⟩⟩⟩
        exact braced

/-- Nothing but a declaration looks like one. -/
theorem Semantic.areDeclaration_iff {action : Semantic} (fits : action.fits body head = true)
    (shown : List.Forall₂ Role.Shows body right) :
    Tree.areDeclaration right = true ↔ action = .decl ∨ action = .declArray := by
  constructor
  · intro declares
    have length : body.length = 3 ∨ body.length = 6 := by
      rw [shown.length_eq]
      exact Tree.length_of_areDeclaration declares
    cases fitting_of_fits fits with
    | decl => exact .inl rfl
    | declArray => exact .inr rfl
    | paren =>
        rcases shown with _ | ⟨_, _ | ⟨⟨_, _, rfl⟩, _ | ⟨_, ⟨⟩⟩⟩⟩
        cases declares
    | binary op =>
        rcases shown with _ | ⟨_, _ | ⟨⟨_, rfl, _⟩, _ | ⟨⟨_, _, rfl⟩, ⟨⟩⟩⟩⟩
        exact absurd declares (by simp [Tree.areDeclaration])
    | ifThen =>
        rcases shown with _ | ⟨_, _ | ⟨⟨_, rfl, _⟩, _ | ⟨⟨_, _, rfl⟩, _ | ⟨_, _ | ⟨_,
          _ | ⟨_, ⟨⟩⟩⟩⟩⟩⟩⟩
        exact absurd declares (by simp [Tree.areDeclaration])
    | _ => simp at length
  · rintro (rfl | rfl)
    · cases fitting_of_fits fits with
      | decl =>
          rcases shown with _ | ⟨_, _ | ⟨⟨_, rfl, _⟩, _ | ⟨ends, ⟨⟩⟩⟩⟩
          simp [Tree.areDeclaration, ends.map_eq]
    · cases fitting_of_fits fits with
      | declArray =>
          rcases shown with _ | ⟨_, _ | ⟨⟨_, rfl, _⟩, _ | ⟨opens, _ | ⟨_, _ | ⟨closes,
            _ | ⟨ends, ⟨⟩⟩⟩⟩⟩⟩⟩
          simp [Tree.areDeclaration, opens.map_eq, closes.map_eq, ends.map_eq]

/-- The trees of other roles are no markers. -/
theorem Shaped.closed {roles : List Role} {trees : List (Tree Token)}
    (shaped : Shaped actions roles trees) (none : .scope ∉ roles) :
    ∀ tree ∈ trees, tree.opensScope actions = false := by
  induction shaped with
  | nil => simp
  | leaf token word? roles trees _ _ ih =>
      rw [List.forall_mem_cons]
      exact ⟨rfl, ih fun member => none (List.mem_cons_of_mem _ member)⟩
  | node index head body roles children trees fits _ _ _ ih =>
      rw [List.forall_mem_cons]
      refine ⟨?_, ih fun member => none (List.mem_cons_of_mem _ member)⟩
      have other : head ≠ .scope := by
        rintro rfl
        exact none List.mem_cons_self
      simpa [Tree.opensScope] using fun opens => other ((Semantic.scopes_of_fits fits).2.2.mpr opens)

/-- To go past a node is to go past its children and then do what its action does. -/
theorem Shaped.read_node (scopes : Scopes)
    (fits : (actions.getD index .nothing).fits body head = true)
    (shaped : Shaped actions body right) :
    scopes.read actions (.node index right) =
      (scopes.readAll actions right).act (actions.getD index .nothing) right := by
  obtain ⟨nested, plain, _⟩ := Semantic.scopes_of_fits fits
  by_cases block : actions.getD index .nothing = .nestedBlock
  · have nests := (Semantic.areScoped_iff fits shaped.shows).mpr block
    obtain rfl := nested block
    cases shaped with
    | node marker _ inner _ children trees opens inside rest =>
        have enters := (Semantic.scopes_of_fits opens).2.2.mp rfl
        rw [enters] at opens
        cases Semantic.fitting_of_fits opens with
        | scopeEnter =>
            cases inside with
            | nil =>
                have closed := rest.closed (by simp)
                have opened : scopes.readAll actions (.node marker [] :: trees) =
                    (scopes.act .scopeEnter []).readAll actions trees := by
                  simp [Scopes.readAll, Scopes.read, Tree.opensScope, enters]
                rw [opened, Scopes.readAll_of_closed _ closed]
                simp [Scopes.read, Scopes.act, Tree.opensScope, Tree.blockCount,
                  Tree.blockCountAll, Tree.declarations, Tree.declarationsAll, block, nests,
                  Nat.add_assoc]
  · have nests : Tree.areScoped right = false :=
      Bool.eq_false_iff.mpr fun nests =>
        block ((Semantic.areScoped_iff fits shaped.shows).mp nests)
    have declares := Semantic.areDeclaration_iff fits shaped.shows
    rw [scopes.readAll_of_closed (shaped.closed (plain block))]
    simp only [Scopes.read, Tree.opensScope, Tree.blockCount, Tree.declarations, nests, declares]
    generalize actions.getD index .nothing = action at fits block
    cases Semantic.fitting_of_fits fits with
    | nestedBlock => exact absurd rfl block
    | scopeEnter =>
        cases shaped
        simp [Scopes.act, Tree.blockCountAll, Tree.declarationsAll]
    | _ => simp [Scopes.act]

end Forest

section Names

variable {actions : Array Semantic} {stack last : List Attribute} {translator after : Translator}

/-- Tokens push their texts and offsets, and nothing else. -/
theorem Walk.of_leaves {tokens : List Token}
    (walk : Walk actions (tokens.map .leaf) stack translator last after) :
    last = (tokens.map fun token => .token token.text token.start).reverse ++ stack ∧
      after.pendingType = translator.pendingType := by
  induction tokens generalizing stack with
  | nil =>
      cases walk
      exact ⟨rfl, rfl⟩
  | cons token tokens ih =>
      cases walk with
      | leaf _ _ _ _ _ _ rest =>
          obtain ⟨rfl, pending⟩ := ih rest
          exact ⟨by simp, pending⟩

theorem Shaped.exists_tokens {words : List (Option String)} {trees : List (Tree Token)}
    (shaped : Shaped actions (words.map .token) trees) :
    ∃ tokens : List Token, trees = tokens.map .leaf ∧ tokens.length = words.length := by
  induction words generalizing trees with
  | nil =>
      cases shaped
      exact ⟨[], rfl, rfl⟩
  | cons word? words ih =>
      cases shaped with
      | leaf token _ _ trees _ rest =>
          obtain ⟨tokens, rfl, length⟩ := ih rest
          exact ⟨token :: tokens, rfl, congrArg (· + 1) length⟩
      | node index _ inner _ _ _ fits _ _ =>
          generalize actions.getD index .nothing = action at fits
          cases Semantic.fitting_of_fits fits

/-- After a type and some tokens, the type that is pending is the keyword that the type begins
with. -/
theorem Shaped.pendingType_eq {roles : List Role} {trees : List (Tree Token)}
    (shaped : Shaped actions roles trees) (words : List (Option String))
    (typed : roles = .typing :: words.map .token)
    (walk : Walk actions trees stack translator last after) :
    ∃ typing later token, trees = typing :: later ∧ typing.leaves.head? = some token ∧
      after.pendingType = token.text := by
  induction shaped generalizing words stack translator last after with
  | nil => cases typed
  | leaf token word? roles trees _ _ _ => cases typed
  | node index head body roles children trees fits inside rest insideIh _ =>
      cases typed
      obtain ⟨tokens, rfl, _⟩ := rest.exists_tokens
      cases walk with
      | node _ _ _ _ below _ _ middle done _ pos _ within ran onward =>
          have begins : ∃ token, (Tree.node index children).leaves.head? = some token ∧
              done.pendingType = token.text := by
            have leaves := Reduction.leaves_of_run ran
            generalize actions.getD index .nothing = action at fits leaves
            cases Semantic.fitting_of_fits fits with
            | typing =>
                obtain ⟨typing, later, token, rfl, first, pending⟩ := insideIh [] rfl within
                cases leaves
                exact ⟨token, by simp [first], pending⟩
            | typeArray =>
                obtain ⟨typing, later, token, rfl, first, pending⟩ :=
                  insideIh [some "[", none, some "]"] rfl within
                cases leaves
                exact ⟨token, by simp [first], pending⟩
            | basicType =>
                have word : Shaped actions ([none].map .token) children := inside
                obtain ⟨tokens, rfl, length⟩ := word.exists_tokens
                obtain ⟨token, rfl⟩ := List.length_eq_one_iff.mp length
                obtain ⟨rfl, _⟩ := Walk.of_leaves within
                cases leaves with
                | basicType name found =>
                    cases found
                    exact ⟨token, by simp, rfl⟩
          obtain ⟨token, first, pending⟩ := begins
          exact ⟨_, _, token, rfl, first, (Walk.of_leaves onward).2.trans pending⟩

/-- Where the name of a declaration is on the stack. -/
def Semantic.nameDepth? : Semantic → Option Nat
  | .decl => some 1
  | .declArray => some 4
  | _ => none

theorem Semantic.body_of_nameDepth? {action : Semantic} {body : List Role} {head : Role}
    {depth : Nat} (fits : action.fits body head = true) (names : action.nameDepth? = some depth) :
    ∃ words : List (Option String), body = .typing :: words.map .token ∧
      words.length = depth + 1 := by
  cases fitting_of_fits fits with
  | decl =>
      cases names
      exact ⟨[none, some ";"], rfl, rfl⟩
  | declArray =>
      cases names
      exact ⟨[none, some "[", none, some "]", some ";"], rfl, rfl⟩
  | _ => cases names

/-- A declaration declares what its tree says: the name is found on the stack, and the keyword is the
type that is pending. -/
theorem Walk.declared?_eq {action : Semantic} {body : List Role} {head : Role} {depth : Nat}
    {right : List (Tree Token)} (walk : Walk actions right stack translator last after)
    (fits : action.fits body head = true) (shaped : Shaped actions body right)
    (names : action.nameDepth? = some depth) {name : Attribute} (found : last[depth]? = some name)
    (blocks : List Nat) (pos : Nat) :
    Tree.declared? blocks right =
      some ⟨name.placeText, after.pendingType, name.start?.getD pos, blocks⟩ := by
  obtain ⟨words, rfl, count⟩ := Semantic.body_of_nameDepth? fits names
  obtain ⟨typing, later, token, rfl, first, pending⟩ := shaped.pendingType_eq words rfl walk
  have rest : Shaped actions (words.map .token) later := by
    cases shaped with
    | node _ _ _ _ _ _ _ _ rest => exact rest
  obtain ⟨tokens, rfl, same⟩ := rest.exists_tokens
  have length := same.trans count
  cases tokens with
  | nil => cases length
  | cons word tokens =>
      rw [← List.singleton_append] at walk
      obtain ⟨middle, between, _, onward⟩ := walk.split
      obtain ⟨rfl, _⟩ := Walk.of_leaves onward
      have deep : depth = (tokens.map fun token : Token =>
          Attribute.token token.text token.start).reverse.length := by
        simpa using length.symm
      rw [List.map_cons, List.reverse_cons, List.append_assoc, deep,
        List.getElem?_append_right (Nat.le_refl _), Nat.sub_self] at found
      cases found
      simp [Tree.declared?, Tree.keyword, first, pending, Attribute.placeText, Attribute.start?]

end Names

namespace SymbolTable

variable {table : SymbolTable}

/-- The addresses of the entries are temporaries that were handed out, no two of them the same. -/
structure Addressed (table : SymbolTable) : Prop where
  nodup : (table.entries.map SymbolEntry.addr).Nodup
  drawn : ∀ entry ∈ table.entries, ∃ number, number < table.temporaries ∧
    entry.addr = temporary number

theorem Addressed.fresh (addressed : table.Addressed) : table.fresh.2.Addressed := by
  refine ⟨addressed.nodup, fun entry member => ?_⟩
  obtain ⟨number, small, addr⟩ := addressed.drawn entry member
  exact ⟨number, Nat.lt_succ_of_lt small, addr⟩

theorem Addressed.exit (addressed : table.Addressed) : table.exit.Addressed := by
  have fewer := table.exit_entries_sublist
  refine ⟨addressed.nodup.sublist (fewer.map _), fun entry member => ?_⟩
  rw [exit_temporaries]
  exact addressed.drawn entry (fewer.subset member)

theorem Addressed.insert (addressed : table.Addressed) {name type : String} {kind : SymbolKind}
    {size pos : Nat} {entry : SymbolEntry} {after : SymbolTable}
    (inserted : table.insert name kind type size pos = .ok (entry, after)) : after.Addressed := by
  unfold SymbolTable.insert at inserted
  split at inserted
  · cases inserted
  · cases inserted
    have later := addressed.fresh
    constructor
    · rw [List.map_append, List.map_singleton, List.nodup_append]
      refine ⟨later.nodup, List.nodup_singleton _, ?_⟩
      intro addr member other single same
      obtain ⟨known, listed, rfl⟩ := List.mem_map.mp member
      obtain ⟨number, small, drawn⟩ := addressed.drawn known listed
      rw [List.mem_singleton.mp single, drawn] at same
      exact Nat.ne_of_lt small (temporary_injective same)
    · intro known member
      rcases List.mem_append.mp member with old | new
      · exact later.drawn known old
      · rw [List.mem_singleton.mp new]
        exact ⟨table.temporaries, Nat.lt_succ_self _, rfl⟩

/-- A name that is not found can be defined. -/
theorem exists_defineData (table : SymbolTable) {name : String} (absent : table.lookup name = none)
    (type : String) (size pos : Nat) :
    ∃ entry after, table.defineData name type size pos = .ok (entry, after) ∧
      entry.record = ⟨name, table.depth, type, pos⟩ ∧ after.depth = table.depth ∧
      after.entries = table.entries ++ [entry] := by
  simp [defineData, insert, absent, fresh, SymbolEntry.record]

end SymbolTable

/-- The translator has the scopes that are open, their recorded declarations as its symbols, and said
what there was to say about the others. -/
structure Translator.Resolves (translator : Translator) (scopes : Scopes) : Prop where
  depth_eq : translator.symbols.depth = scopes.blocks.length
  entries_eq : translator.symbols.entries.map SymbolEntry.record =
    ((resolve scopes.declared).recorded.filter fun declaration =>
      declaration.blocks <:+ scopes.blocks).map Declaration.record
  diagnostics_eq : translator.diagnostics.toList = (resolve scopes.declared).repeated
  defined_eq : (definedOf translator.log).map SymbolEntry.record =
    (resolve scopes.declared).recorded.map Declaration.record
  addressed : translator.symbols.Addressed

/-- The numbers of blocks so far are below the next one, and what is recorded lies in the outermost
block. -/
structure Scopes.Numbered (scopes : Scopes) : Prop where
  blocks_lt : ∀ number ∈ scopes.blocks, number < scopes.next
  recorded_lt : ∀ declaration ∈ (resolve scopes.declared).recorded,
    ∀ number ∈ declaration.blocks, number < scopes.next
  recorded_outermost : ∀ declaration ∈ (resolve scopes.declared).recorded,
    [0] <:+ declaration.blocks

theorem resolve_append (declarations : List Declaration) (declaration : Declaration) :
    resolve (declarations ++ [declaration]) = (resolve declarations).add declaration := by
  rw [resolve, List.foldl_append]
  rfl

theorem recorded_append {declarations : List Declaration} {declaration recorded : Declaration}
    (member : recorded ∈ (resolve (declarations ++ [declaration])).recorded) :
    recorded ∈ (resolve declarations).recorded ∨ recorded = declaration := by
  rw [resolve_append, Resolution.add] at member
  split at member
  · exact .inl member
  · simpa using member

theorem Tree.blocks_of_declared? {blocks : List Nat} {children : List (Tree Token)}
    {declaration : Declaration} (declared : declared? blocks children = some declaration) :
    declaration.blocks = blocks := by
  unfold declared? at declared
  split at declared
  · cases declared
    rfl
  · cases declared

namespace Scopes.Numbered

variable {scopes : Scopes}

theorem first : Scopes.Numbered {} := by
  refine ⟨by simp, ?_, ?_⟩
  · intro declaration member
    cases member
  · intro declaration member
    cases member

theorem declare (numbered : scopes.Numbered) (outermost : [0] <:+ scopes.blocks)
    (children : List (Tree Token)) : (scopes.act .decl children).Numbered := by
  unfold act
  cases declared : Tree.declared? scopes.blocks children with
  | none => simpa using numbered
  | some declaration =>
      have blocks := Tree.blocks_of_declared? declared
      refine ⟨numbered.blocks_lt, ?_, ?_⟩
      · intro recorded member
        rcases recorded_append member with old | rfl
        · exact numbered.recorded_lt recorded old
        · rw [blocks]
          exact numbered.blocks_lt
      · intro recorded member
        rcases recorded_append member with old | rfl
        · exact numbered.recorded_outermost recorded old
        · rw [blocks]
          exact outermost

/-- Actions keep numbers below the next one. -/
theorem act (numbered : scopes.Numbered) (outermost : [0] <:+ scopes.blocks) (action : Semantic)
    (children : List (Tree Token)) : (scopes.act action children).Numbered := by
  cases action with
  | scopeEnter =>
      refine ⟨?_, ?_, numbered.recorded_outermost⟩
      · rw [Scopes.act, List.forall_mem_cons]
        exact ⟨Nat.lt_succ_self _,
          fun number member => Nat.lt_succ_of_lt (numbered.blocks_lt number member)⟩
      · intro declaration member number inside
        exact Nat.lt_succ_of_lt (numbered.recorded_lt declaration member number inside)
  | nestedBlock =>
      exact ⟨fun number member => numbered.blocks_lt number (List.mem_of_mem_tail member),
        numbered.recorded_lt, numbered.recorded_outermost⟩
  | decl => exact numbered.declare outermost children
  | declArray => exact numbered.declare outermost children
  | _ => exact numbered

end Scopes.Numbered

namespace Translator.Resolves

variable {translator after : Translator} {scopes : Scopes}

theorem first : Translator.first.Resolves {} := by
  refine ⟨rfl, rfl, rfl, rfl, ?_, ?_⟩
  · exact List.nodup_nil
  · intro entry member
    cases member

/-- Whatever leaves scopes, symbols and diagnostics alone. -/
theorem of_same (resolves : translator.Resolves scopes)
    (depth : after.symbols.depth = translator.symbols.depth)
    (entries : after.symbols.entries = translator.symbols.entries)
    (diagnostics : after.diagnostics = translator.diagnostics)
    (defined : definedOf after.log = definedOf translator.log)
    (addressed : after.symbols.Addressed) : after.Resolves scopes := by
  constructor
  · rw [depth, resolves.depth_eq]
  · rw [entries, resolves.entries_eq]
  · rw [diagnostics, resolves.diagnostics_eq]
  · rw [defined, resolves.defined_eq]
  · exact addressed

/-- In a new block the same declarations can be seen, since none has its number yet. -/
theorem enter (resolves : translator.Resolves scopes) (numbered : scopes.Numbered) :
    { translator with symbols := translator.symbols.enter }.Resolves
      (scopes.act .scopeEnter []) := by
  refine ⟨congrArg (· + 1) resolves.depth_eq, ?_, resolves.diagnostics_eq, resolves.defined_eq,
    resolves.addressed.nodup, resolves.addressed.drawn⟩
  refine resolves.entries_eq.trans (congrArg (List.map Declaration.record) ?_)
  apply List.filter_congr
  intro declaration member
  have old : declaration.blocks ≠ scopes.next :: scopes.blocks := by
    intro same
    have small := numbered.recorded_lt declaration member scopes.next (by simp [same])
    exact Nat.lt_irrefl _ small
  simp [Scopes.act, List.suffix_cons_iff, old]

/-- A block that is left takes the declarations of its own depth with it, which are its own. -/
theorem exit (resolves : translator.Resolves scopes) {number : Nat} {outer : List Nat}
    (inner : scopes.blocks = number :: outer) :
    { translator with symbols := translator.symbols.exit }.Resolves
      (scopes.act .nestedBlock []) := by
  have depth := resolves.depth_eq
  have entries := resolves.entries_eq
  rw [inner] at depth entries
  refine ⟨?_, ?_, resolves.diagnostics_eq, resolves.defined_eq, resolves.addressed.exit⟩
  · simp [SymbolTable.exit, depth, Scopes.act, inner]
  · have left : (translator.symbols.exit.entries).map SymbolEntry.record =
        (translator.symbols.entries.map SymbolEntry.record).filter fun record =>
          record.scope != outer.length + 1 := by
      rw [List.filter_map]
      simp [SymbolTable.exit, depth, Function.comp_def, SymbolEntry.record]
    refine left.trans ?_
    rw [entries, List.filter_map, List.filter_filter]
    refine congrArg (List.map Declaration.record) (List.filter_congr fun declaration _ => ?_)
    rw [Bool.eq_iff_iff]
    simp only [Function.comp_def, Declaration.record, Declaration.depth, Scopes.act, inner,
      List.tail_cons, List.suffix_cons_iff, Bool.and_eq_true, bne_iff_ne, decide_eq_true_eq]
    constructor
    · rintro ⟨other, same | within⟩
      · exact absurd (congrArg List.length same) other
      · exact within
    · intro within
      have shorter := within.length_le
      exact ⟨by omega, .inr within⟩

/-- A name is looked up among the declarations that can be seen. -/
theorem lookup_eq (resolves : translator.Resolves scopes) (name : String) :
    (translator.symbols.lookup name).map SymbolEntry.record =
      ((resolve scopes.declared).recorded.find? fun earlier =>
        earlier.name = name ∧ earlier.blocks <:+ scopes.blocks).map Declaration.record := by
  have mapped : (translator.symbols.lookup name).map SymbolEntry.record =
      (translator.symbols.entries.map SymbolEntry.record).find?
        fun record => record.name == name := by
    rw [List.find?_map]
    rfl
  rw [mapped, resolves.entries_eq, List.find?_map, List.find?_filter]
  congr 2
  funext earlier
  simp [Declaration.record, and_comm]

/-- A name that can be seen leaves a diagnostic with the depth at which it is recorded. -/
theorem declare_seen (resolves : translator.Resolves scopes) {name : String} {holder : SymbolEntry}
    (found : translator.symbols.lookup name = some holder) (size pos : Nat) :
    (translator.declare name size pos).Resolves
      { scopes with
        declared := scopes.declared ++ [⟨name, translator.pendingType, pos, scopes.blocks⟩] } := by
  have seen := resolves.lookup_eq name
  rw [found] at seen
  obtain ⟨earlier, listed, same⟩ := Option.map_eq_some_iff.mp seen.symm
  have depth : earlier.depth = holder.scope := congrArg Record.scope same
  have added := resolve_append scopes.declared ⟨name, translator.pendingType, pos, scopes.blocks⟩
  simp only [Resolution.add, listed] at added
  have repeats : translator.declare name size pos =
      { translator with
        pendingType := ""
        pendingSize := 0
        diagnostics := translator.diagnostics.push ⟨⟨name, holder.scope⟩, pos⟩
        log := translator.log.push (.duplicate ⟨name, holder.scope⟩) } := by
    simp [Translator.declare, SymbolTable.defineData, SymbolTable.insert, found]
  rw [repeats]
  constructor
  · exact resolves.depth_eq
  · rw [added]
    exact resolves.entries_eq
  · rw [added]
    simp [resolves.diagnostics_eq, depth]
  · rw [added]
    simp [Event.entry?, resolves.defined_eq]
  · exact resolves.addressed

/-- A name that cannot be seen is recorded with the innermost open block. -/
theorem declare_unseen (resolves : translator.Resolves scopes) {name : String}
    (found : translator.symbols.lookup name = none) (size pos : Nat) :
    (translator.declare name size pos).Resolves
      { scopes with
        declared := scopes.declared ++ [⟨name, translator.pendingType, pos, scopes.blocks⟩] } := by
  have seen := resolves.lookup_eq name
  rw [found] at seen
  have absent := Option.map_eq_none_iff.mp seen.symm
  have added := resolve_append scopes.declared ⟨name, translator.pendingType, pos, scopes.blocks⟩
  simp only [Resolution.add, absent] at added
  obtain ⟨entry, symbols, defined, record, depth, entries⟩ :=
    translator.symbols.exists_defineData found translator.pendingType size pos
  have defines : translator.declare name size pos =
      { translator with
        symbols
        pendingType := ""
        pendingSize := 0
        log := translator.log.push (.defined entry) } := by
    simp [Translator.declare, defined]
  have recorded : entry.record =
      Declaration.record ⟨name, translator.pendingType, pos, scopes.blocks⟩ := by
    rw [record, resolves.depth_eq]
    rfl
  rw [defines]
  constructor
  · exact depth.trans resolves.depth_eq
  · rw [added]
    simp [entries, recorded, resolves.entries_eq]
  · rw [added]
    exact resolves.diagnostics_eq
  · rw [added]
    simp [Event.entry?, recorded, resolves.defined_eq]
  · exact resolves.addressed.insert defined

theorem declare (resolves : translator.Resolves scopes) (name : String) (size pos : Nat) :
    (translator.declare name size pos).Resolves
      { scopes with
        declared := scopes.declared ++ [⟨name, translator.pendingType, pos, scopes.blocks⟩] } := by
  cases found : translator.symbols.lookup name with
  | some holder => exact resolves.declare_seen found size pos
  | none => exact resolves.declare_unseen found size pos

/-- An action does to the translator what it does to the scopes, if what it declares is what its tree
says. -/
theorem act (resolves : translator.Resolves scopes) (numbered : scopes.Numbered)
    (outermost : [0] <:+ scopes.blocks) {stack : List Attribute} {pos : Nat} {action : Semantic}
    {head : Attribute} (leaves : Reduction.Leaves stack pos translator action head after)
    {children : List (Tree Token)}
    (named : ∀ depth name, action.nameDepth? = some depth → stack[depth]? = some name →
      Tree.declared? scopes.blocks children =
        some ⟨name.placeText, translator.pendingType, name.start?.getD pos, scopes.blocks⟩) :
    after.Resolves (scopes.act action children) := by
  have addressed := resolves.addressed
  cases leaves with
  | decl name found =>
      rw [Scopes.act, named 1 name rfl found]
      exact resolves.declare _ _ _
  | declArray name size found =>
      rw [Scopes.act, named 4 name rfl found]
      exact resolves.declare _ _ _
  | scopeEnter => exact resolves.enter numbered
  | nestedBlock =>
      cases inner : scopes.blocks with
      | nil =>
          rw [inner] at outermost
          cases List.suffix_nil.mp outermost
      | cons number outer => exact resolves.exit inner
  | binary op lhs rhs =>
      exact resolves.of_same rfl rfl rfl (by simp [append, Event.entry?]) addressed.fresh
  | unary op src =>
      exact resolves.of_same rfl rfl rfl (by simp [append, Event.entry?]) addressed.fresh
  | _ => exact resolves.of_same rfl rfl rfl (by simp [append, addLabel, Event.entry?]) addressed

end Translator.Resolves

end ThreeAddress

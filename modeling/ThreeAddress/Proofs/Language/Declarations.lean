import ThreeAddress.Proofs.Language.Roles

/-!
The declarations of a source as its blocks have them. They are listed by the tokens of the syntax
tree, each with the blocks around it, and resolved by these blocks alone: a declaration repeats an
earlier one of the same name whose block is still open, or is recorded.
-/

set_option autoImplicit false

namespace ThreeAddress

/-- A declaration: its name, the keyword of its type, the offset of the name, and the numbers of the
blocks around it, the innermost first. -/
structure Declaration where
  name : String
  type : String
  pos : Nat
  blocks : List Nat
deriving Repr, DecidableEq

/-- What a declared name is recorded with, storage apart. -/
structure Record where
  name : String
  scope : Nat
  type : String
  pos : Nat
deriving Repr, DecidableEq

/-- The outermost block has depth one. -/
def Declaration.depth (declaration : Declaration) : Nat := declaration.blocks.length

def Declaration.record (declaration : Declaration) : Record :=
  ⟨declaration.name, declaration.depth, declaration.type, declaration.pos⟩

def SymbolEntry.record (entry : SymbolEntry) : Record :=
  ⟨entry.name, entry.scope, entry.type, entry.pos⟩

namespace Tree

/-- The text that a type begins with. -/
def keyword (tree : Tree Token) : String := (tree.leaves.head?.map Token.text).getD ""

/-- The trees are the marker of a scope and a block. -/
def areScoped : List (Tree Token) → Bool
  | [.node _ _, block] => (block.map Token.text).isBraced
  | _ => false

/-- The trees are a declaration: a type, a name, and for an array a size in brackets. -/
def areDeclaration : List (Tree Token) → Bool
  | [_, .leaf _, ending] => (ending.map Token.text).spells ";"
  | [_, .leaf _, opening, _, closing, ending] =>
    (opening.map Token.text).spells "[" && (closing.map Token.text).spells "]" &&
      (ending.map Token.text).spells ";"
  | _ => false

@[simp] theorem areScoped_nil : areScoped [] = false := rfl

@[simp] theorem areDeclaration_nil : areDeclaration [] = false := rfl

theorem length_of_areScoped {trees : List (Tree Token)} (nests : areScoped trees = true) :
    trees.length = 2 := by
  unfold areScoped at nests
  split at nests
  · rfl
  · cases nests

theorem length_of_areDeclaration {trees : List (Tree Token)}
    (declares : areDeclaration trees = true) : trees.length = 3 ∨ trees.length = 6 := by
  unfold areDeclaration at declares
  split at declares
  · exact .inl rfl
  · exact .inr rfl
  · cases declares

/-- What a declaration with the given body declares. -/
def declared? (blocks : List Nat) : List (Tree Token) → Option Declaration
  | typing :: .leaf name :: _ => some ⟨name.text, typing.keyword, name.start, blocks⟩
  | _ => none

mutual

/-- The number of blocks within the outermost one. -/
def blockCount : Tree Token → Nat
  | .leaf _ => 0
  | .node _ children =>
    if areScoped children then 1 + blockCountAll children else blockCountAll children

def blockCountAll : List (Tree Token) → Nat
  | [] => 0
  | tree :: rest => tree.blockCount + blockCountAll rest

end

mutual

/-- The declarations of a tree in the order of the source. Given are the blocks around the tree and
the number of the next block; blocks are numbered in the order in which they begin. -/
def declarations (blocks : List Nat) (next : Nat) : Tree Token → List Declaration
  | .leaf _ => []
  | .node _ children =>
    if areScoped children then declarationsAll (next :: blocks) (next + 1) children
    else if areDeclaration children then
      declarationsAll blocks next children ++ (declared? blocks children).toList
    else declarationsAll blocks next children

def declarationsAll (blocks : List Nat) (next : Nat) : List (Tree Token) → List Declaration
  | [] => []
  | tree :: rest =>
    tree.declarations blocks next ++ declarationsAll blocks (next + tree.blockCount) rest

end

end Tree

/-- What becomes of declarations: those recorded, and what is said about the others. -/
structure Resolution where
  recorded : List Declaration := []
  repeated : List Diagnostic := []
deriving Repr, DecidableEq

namespace Resolution

/-- An earlier declaration stands in the way if it has the name and its block is the same or one
around it. -/
def add (resolution : Resolution) (declaration : Declaration) : Resolution :=
  match resolution.recorded.find? fun earlier =>
      earlier.name = declaration.name ∧ earlier.blocks <:+ declaration.blocks with
  | some holder =>
    { resolution with
      repeated :=
        resolution.repeated ++ [⟨⟨declaration.name, holder.depth⟩, declaration.pos⟩] }
  | none => { resolution with recorded := resolution.recorded ++ [declaration] }

end Resolution

/-- Resolves declarations in order. -/
def resolve (declarations : List Declaration) : Resolution := declarations.foldl .add {}

/-- A repeated name does not hide the one that is recorded, and blocks that are not within each other
do not meet. -/
example :
    resolve [⟨"a", "int", 2, [0]⟩, ⟨"a", "int", 6, [1, 0]⟩, ⟨"b", "int", 10, [1, 0]⟩,
      ⟨"a", "int", 14, [2, 1, 0]⟩, ⟨"b", "int", 18, [3, 0]⟩] =
      ⟨[⟨"a", "int", 2, [0]⟩, ⟨"b", "int", 10, [1, 0]⟩, ⟨"b", "int", 18, [3, 0]⟩],
        [⟨⟨"a", 1⟩, 6⟩, ⟨⟨"a", 1⟩, 14⟩]⟩ := by
  decide +kernel

end ThreeAddress

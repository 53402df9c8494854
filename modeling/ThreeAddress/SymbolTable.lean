/-!
The symbol table. A name can be defined once in the scopes that are open; leaving a scope deletes
what was defined in it.
-/

set_option autoImplicit false

namespace ThreeAddress

inductive SymbolKind where
  | var
  | func
  | array
  | basic
deriving Repr, DecidableEq

def SymbolKind.text : SymbolKind → String
  | .var => "VAR"
  | .func => "FUNC"
  | .array => "ARRAY"
  | .basic => "BASIC"

/-- The kind with the given text. -/
def SymbolKind.ofText? (text : String) : Option SymbolKind :=
  [var, func, array, basic].find? fun kind => kind.text == text

/-- A defined name. The scope is the depth of its definition, the address names its storage, the
size counts the elements of an array and is zero otherwise, and the type is empty if none was
given. -/
structure SymbolEntry where
  name : String
  kind : SymbolKind
  scope : Nat
  addr : String
  size : Nat
  type : String
  pos : Nat
deriving Repr, DecidableEq

def SymbolEntry.text (entry : SymbolEntry) : String :=
  entry.name ++ " " ++ entry.kind.text ++ " scope=" ++ toString entry.scope ++
    " addr=" ++ entry.addr ++
    (if entry.type.isEmpty then "" else " type=" ++ entry.type) ++
    (if entry.size = 0 then "" else " size=" ++ toString entry.size)

/-- A name that is defined already, and the scope of the definition that stands. -/
structure Duplicate where
  name : String
  scope : Nat
deriving Repr, DecidableEq

def Duplicate.message (duplicate : Duplicate) : String :=
  "symbol '" ++ duplicate.name ++ "' already defined (scope " ++ toString duplicate.scope ++ ")"

/-- The name of a temporary by its number. -/
def temporary (number : Nat) : String := "t" ++ toString number

/-- Entries in the order of definition, the number of open scopes, and the number of temporaries
handed out. -/
structure SymbolTable where
  entries : List SymbolEntry := []
  depth : Nat := 0
  temporaries : Nat := 0
deriving Repr, DecidableEq

namespace SymbolTable

def enter (table : SymbolTable) : SymbolTable := { table with depth := table.depth + 1 }

/-- Leaves the innermost scope and deletes its entries. There is nothing to leave at depth zero. -/
def exit (table : SymbolTable) : SymbolTable :=
  if table.depth = 0 then table
  else
    { table with
      depth := table.depth - 1
      entries := table.entries.filter fun entry => entry.scope != table.depth }

/-- A temporary that was never handed out before. -/
def fresh (table : SymbolTable) : String × SymbolTable :=
  (temporary table.temporaries, { table with temporaries := table.temporaries + 1 })

def lookup (table : SymbolTable) (name : String) : Option SymbolEntry :=
  table.entries.find? fun entry => entry.name == name

/-- Defines a name in the innermost scope and gives it a fresh address. -/
def insert (table : SymbolTable) (name : String) (kind : SymbolKind) (type : String)
    (size pos : Nat) : Except Duplicate (SymbolEntry × SymbolTable) :=
  match table.lookup name with
  | some holder => .error ⟨name, holder.scope⟩
  | none =>
    let (addr, table) := table.fresh
    let entry : SymbolEntry := ⟨name, kind, table.depth, addr, size, type, pos⟩
    .ok (entry, { table with entries := table.entries ++ [entry] })

def define (table : SymbolTable) (name : String) (kind : SymbolKind) (pos : Nat) :
    Except Duplicate (SymbolEntry × SymbolTable) :=
  table.insert name kind "" 0 pos

/-- Defines a variable, or an array if the size is not zero. -/
def defineData (table : SymbolTable) (name type : String) (size pos : Nat) :
    Except Duplicate (SymbolEntry × SymbolTable) :=
  table.insert name (if size = 0 then .var else .array) type size pos

end SymbolTable

end ThreeAddress

import ThreeAddress.CommandLine.Basic
import ThreeAddress.Text.Position

/-!
Files held in memory, and what a path names among them. They stand in for a file system, so that the
command line is a function of its arguments and of what there is to read.
-/

set_option autoImplicit false

namespace ThreeAddress.CommandLine

inductive FileTree where
  | file (text : String)
  | directory (entries : List (String × FileTree))

/-- A place in a tree, with the directories above it from the nearest to the root. -/
structure Location where
  here : FileTree
  above : List FileTree

/-- The most bytes that one name may have. -/
def nameLimit : Nat := 255

/-- A path has fewer bytes than this. -/
def pathLimit : Nat := 4096

/-- The names between the slashes. They are empty before a slash at the front, after one at the back
and between two in a row. -/
def pathNames : List Char → List (List Char)
  | [] => [[]]
  | c :: rest =>
    match pathNames rest with
    | [] => []
    | name :: names => if c = '/' then [] :: name :: names else (c :: name) :: names

namespace Location

/-- The directory above. The root is above itself. -/
def parent (location : Location) : Location :=
  match location.above with
  | [] => location
  | here :: above => ⟨here, above⟩

def root (location : Location) : Location :=
  ⟨location.above.getLastD location.here, []⟩

/-- Follows names one by one. Every name, the empty one and the dots included, asks for a directory
to look it up in. -/
def walk : List (List Char) → Location → Except ReadError FileTree
  | [], location => .ok location.here
  | name :: names, location =>
    match location.here with
    | .file _ => .error .notADirectory
    | .directory entries =>
      if name = [] ∨ name = ['.'] then walk names location
      else if name = ['.', '.'] then walk names location.parent
      else if nameLimit < Text.byteLength name then .error .nameTooLong
      else
        match entries.lookup (String.ofList name) with
        | none => .error .notFound
        | some entry => walk names ⟨entry, location.here :: location.above⟩

/-- The text of the file that a path names. A path that begins with a slash starts at the root. -/
def read (location : Location) (path : String) : Except ReadError String :=
  let chars := path.toList
  if chars = [] then .error .notFound
  else if pathLimit ≤ Text.byteLength chars then .error .nameTooLong
  else
    match (if chars.head? = some '/' then location.root else location).walk (pathNames chars) with
    | .error error => .error error
    | .ok (.file text) => .ok text
    | .ok (.directory _) => .error .isDirectory

end Location

/-- The answer at a place, with the given text on standard input. -/
def answerAt (language : Except CompileError Language) (location : Location)
    (stdin : Except ReadError String) (arguments : List String) : Output :=
  Id.run (answer language (fun
    | .stdin => stdin
    | .file path => location.read path) arguments)

end ThreeAddress.CommandLine

/-!
The options of the command line. An argument that begins with a dash and is longer than that dash
holds options; two dashes alone end them; every other argument is free.
-/

set_option autoImplicit false

namespace ThreeAddress.CommandLine

inductive Flag where
  | conflicts
  | symbols
  | help
deriving Repr, DecidableEq

namespace Flag

def all : List Flag := [.conflicts, .symbols, .help]

def short : Flag → Char
  | .conflicts => 'c'
  | .symbols => 's'
  | .help => 'h'

def long : Flag → String
  | .conflicts => "conflicts"
  | .symbols => "symbols"
  | .help => "help"

def explanation : Flag → String
  | .conflicts => "Print the conflicts found while building the tables"
  | .symbols => "Print the symbol table of the accepted program"
  | .help => "Print this message"

def ofShort? (letter : Char) : Option Flag := all.find? fun flag => flag.short == letter

/-- The flag of a name after two dashes, where the short letter is good too. -/
def ofName? (name : String) : Option Flag :=
  all.find? fun flag => flag.long == name || flag.short.toString == name

end Flag

inductive OptionError where
  | unrecognized (name : String)
  | repeated (name : String)
  | unexpectedArgument (name : String)
deriving Repr, DecidableEq

def OptionError.message : OptionError → String
  | .unrecognized name => "Unrecognized option: '" ++ name ++ "'"
  | .repeated name => "Option '" ++ name ++ "' given more than once"
  | .unexpectedArgument name => "Option '" ++ name ++ "' does not take an argument"

/-- The flags given and the free arguments, both in order. -/
structure Options where
  flags : List Flag := []
  free : List String := []
deriving Repr, DecidableEq

namespace Options

def has (options : Options) (flag : Flag) : Bool := options.flags.contains flag

/-- The flags of a bundle of letters. -/
def readLetters : List Char → Except OptionError (List Flag)
  | [] => .ok []
  | letter :: rest =>
    match Flag.ofShort? letter with
    | none => .error (.unrecognized letter.toString)
    | some flag => (readLetters rest).map (flag :: ·)

/-- The flag of the characters after two dashes. No flag takes the argument after an equals sign. -/
def readLong (chars : List Char) : Except OptionError Flag :=
  let name := String.ofList (chars.takeWhile (· != '='))
  match Flag.ofName? name with
  | none => .error (.unrecognized name)
  | some flag =>
    if chars.contains '=' then .error (.unexpectedArgument name) else .ok flag

/-- Reads the arguments in order and stops at the first bad one. -/
def readArguments : List String → Except OptionError Options
  | [] => .ok {}
  | argument :: rest =>
    match argument.toList with
    | ['-', '-'] => .ok { free := rest }
    | '-' :: '-' :: name => do
      let flag ← readLong name
      let others ← readArguments rest
      return { others with flags := flag :: others.flags }
    | '-' :: letter :: letters => do
      let flags ← readLetters (letter :: letters)
      let others ← readArguments rest
      return { others with flags := flags ++ others.flags }
    | _ => do
      let others ← readArguments rest
      return { others with free := argument :: others.free }

/-- The first flag, in the order of the usage text, that is given more than once. -/
def repeated? (options : Options) : Option Flag :=
  Flag.all.find? fun flag => decide (1 < options.flags.count flag)

/-- Reads the arguments. A flag given twice is reported only if nothing else is wrong. -/
def ofArguments (arguments : List String) : Except OptionError Options := do
  let options ← readArguments arguments
  match options.repeated? with
  | some flag => .error (.repeated flag.long)
  | none => return options

end Options

/-- The column at which the usage text explains a flag. -/
def helpColumn : Nat := 24

def Flag.usage (flag : Flag) : String :=
  let names := "    -" ++ flag.short.toString ++ ", --" ++ flag.long
  String.ofList (names.toList.rightpad helpColumn ' ') ++ flag.explanation ++ "\n"

def usage : String :=
  "Usage: intercoder [options] [PATH]\n\nOptions:\n" ++ String.join (Flag.all.map Flag.usage)

end ThreeAddress.CommandLine

import ThreeAddress.CommandLine.Options
import ThreeAddress.Language
import ThreeAddress.Report

/-!
The command line: what is read for given arguments, and what is printed for what was read.
-/

set_option autoImplicit false

namespace ThreeAddress.CommandLine

/-- What a program leaves behind: its exit code and what it wrote. -/
structure Output where
  code : Nat
  stdout : String
  stderr : String
deriving Repr, DecidableEq

/-- Where the source text comes from. -/
inductive Input where
  | stdin
  | file (path : String)
deriving Repr, DecidableEq

/-- The name of an input in reports. -/
def Input.path : Input → String
  | .stdin => "<stdin>"
  | .file path => path

/-- The name of an input in a complaint that it cannot be read. -/
def Input.description : Input → String
  | .stdin => "stdin"
  | .file path => path

inductive ReadError where
  | notFound
  | isDirectory
  | notADirectory
  | nameTooLong
  | permissionDenied
  | notUtf8
  | other (message : String)
deriving Repr, DecidableEq

def ReadError.message : ReadError → String
  | .notFound => "No such file or directory (os error 2)"
  | .isDirectory => "Is a directory (os error 21)"
  | .notADirectory => "Not a directory (os error 20)"
  | .nameTooLong => "File name too long (os error 36)"
  | .permissionDenied => "Permission denied (os error 13)"
  | .notUtf8 => "stream did not contain valid UTF-8"
  | .other message => message

/-- What the arguments ask for: an answer at once, or the code of some input. -/
inductive Request where
  | answer (output : Output)
  | translate (options : Options) (input : Input)
deriving Repr, DecidableEq

def Request.ofArguments (arguments : List String) : Request :=
  match Options.ofArguments arguments with
  | .error error => .answer ⟨1, "", error.message ++ "\n"⟩
  | .ok options =>
    if options.has .help then .answer ⟨0, usage, ""⟩
    else
      match options.free with
      | [] => .translate options .stdin
      | [path] => .translate options (.file path)
      | _ => .answer ⟨1, usage, ""⟩

/-- The reports of all conflicts, each followed by an empty line. -/
def conflictText (language : Language) : String :=
  String.join (language.table.conflicts.map fun conflict => conflict.report ++ "\n")

/-- The numbered instructions. -/
def codeText (code : Array Instruction) : String :=
  String.join (code.toList.zipIdx.map fun (instruction, index) =>
    toString index ++ ": " ++ instruction.text ++ "\n")

/-- An empty line, then the symbols with their places. -/
def symbolText (source : String) (symbols : SymbolTable) : String :=
  "\n" ++ String.join (symbols.entries.map fun entry =>
    let place := Text.lineColumn source entry.pos
    entry.text ++ " at " ++ toString place.line ++ ":" ++ toString place.column ++ "\n")

/-- The output for a compiled program. -/
def compiledOutput (options : Options) (path source : String) (compiled : Compiled) :
    Output where
  code := 0
  stdout := codeText compiled.code ++
    (if options.has .symbols then symbolText source compiled.symbols else "")
  stderr := String.join (compiled.diagnostics.toList.map (·.report path source))

def outcomeOutput (options : Options) (path source : String) : Option Outcome → Output
  | none => ⟨1, "", "no answer within the step limit\n"⟩
  | some outcome =>
    match outcome.verdict with
    | .accepted compiled => compiledOutput options path source compiled
    | .rejected error => ⟨1, "", error.report path source⟩
    | .faulted fault => ⟨101, "", fault.message ++ "\n"⟩

/-- The output for a source text, or for an input that cannot be read. -/
def respond (language : Except CompileError Language) (options : Options) (input : Input) :
    Except ReadError String → Output
  | .error error =>
    ⟨1, "", "failed to read " ++ input.description ++ ": " ++ error.message ++ "\n"⟩
  | .ok source =>
    match language with
    | .error error => ⟨1, "", error.report input.path source⟩
    | .ok language =>
      let output := outcomeOutput options input.path source (language.translate source)
      if options.has .conflicts then
        { output with stdout := conflictText language ++ output.stdout }
      else
        output

/-- The answer to the arguments, which reads at most one input. -/
def answer {m : Type → Type} [Monad m] (language : Except CompileError Language)
    (read : Input → m (Except ReadError String)) (arguments : List String) : m Output := do
  match Request.ofArguments arguments with
  | .answer output => return output
  | .translate options input => return respond language options input (← read input)

/-- Decodes what was read. -/
def decode (bytes : ByteArray) : Except ReadError String :=
  match String.fromUTF8? bytes with
  | some source => .ok source
  | none => .error .notUtf8

end ThreeAddress.CommandLine

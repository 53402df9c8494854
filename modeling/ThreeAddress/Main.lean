import ThreeAddress.CommandLine.Basic

/-!
The program: reads what the arguments name and prints the answer.
-/

set_option autoImplicit false

namespace ThreeAddress.CommandLine

/-- Reads a stream to its end. -/
partial def readAll (stream : IO.FS.Stream) (read : ByteArray) : IO ByteArray := do
  let chunk ← stream.read 65536
  if chunk.isEmpty then return read else readAll stream (read ++ chunk)

/-- Why the system did not hand out a file. -/
def readError : IO.Error → ReadError
  | .noFileOrDirectory .. => .notFound
  | .inappropriateType _ _ "not a directory" => .notADirectory
  | .inappropriateType .. => .isDirectory
  | .invalidArgument _ _ "name too long" => .nameTooLong
  | .permissionDenied .. => .permissionDenied
  | error => .other (toString error)

def readBytes : Input → IO (Except ReadError ByteArray)
  | .stdin => return .ok (← readAll (← IO.getStdin) ByteArray.empty)
  | .file path => do
    try
      return .ok (← IO.FS.readBinFile path)
    catch error =>
      return .error (readError error)

def readText (input : Input) : IO (Except ReadError String) := do
  return (← readBytes input).bind decode

end ThreeAddress.CommandLine

def main (arguments : List String) : IO UInt32 := do
  let output ← ThreeAddress.CommandLine.answer ThreeAddress.Language.build
    ThreeAddress.CommandLine.readText arguments
  (← IO.getStdout).putStr output.stdout
  (← IO.getStderr).putStr output.stderr
  return output.code.toUInt32

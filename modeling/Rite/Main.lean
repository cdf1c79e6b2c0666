import Rite.CommandLine.Perform

/-!
# The executable

Reads the files that the command line names, carries the command line out and writes the outcome.
The executable launches no other programs and lists no directories, so it runs and lists images, and
a check ends with a message.
-/

namespace Rite.Executable

/-- The reason given for what the executable has no means to do. -/
def unsupported : String := "Operation not supported (os error 95)"

/-- The contents of a file, or the reason why it cannot be read. -/
def readFile (path : String) : IO (Except String Bytes) := do
  try
    let contents ← IO.FS.readBinFile path
    return .ok contents.toList
  catch e =>
    match e with
    | .noFileOrDirectory .. => return .error "No such file or directory (os error 2)"
    | other => return .error (toString other)

/-- The surroundings as far as they were read beforehand. -/
def host (contents : List (String × Except String Bytes)) : Host :=
  { read := fun path => (contents.lookup path).getD (.error unsupported)
    list := fun _ => .error unsupported
    launch := fun _ => .error unsupported }

/-- The files that a command line names. -/
def filesOf (words : List String) : List String :=
  match CommandLine.Invocation.parse words with
  | .ok { command := .run files, .. } => files
  | .ok { command := .dump files, .. } => files
  | _ => []

end Rite.Executable

/-- The entry point. -/
def main (words : List String) : IO UInt32 := do
  let contents ← (Rite.Executable.filesOf words).mapM fun path => do
    return (path, ← Rite.Executable.readFile path)
  let outcome := Rite.CommandLine.perform (Rite.Executable.host contents) words
  IO.print outcome.out
  IO.eprint outcome.err
  return UInt32.ofNat outcome.exitCode

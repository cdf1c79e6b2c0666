import Rite.Bytes.BigEndian

/-!
# The surroundings of the program

All that the command line learns from outside: contents of files, names in a directory and results
of other programs.  A failure is the reason that the system gives, as text.  The logic only asks; who
answers is the business of the outer layer.
-/

namespace Rite

/-- What a finished program leaves behind. -/
structure ToolResult where
  exitCode : Nat := 0
  out : String := ""
  err : String := ""
  deriving DecidableEq

/-- What the surroundings answer. -/
structure Host where
  /-- The contents of a file. -/
  read : (path : String) → Except String Bytes
  /-- The names in a directory. -/
  list : (path : String) → Except String (List String)
  /-- The result of running a program, given as its words. -/
  launch : (words : List String) → Except String ToolResult

end Rite

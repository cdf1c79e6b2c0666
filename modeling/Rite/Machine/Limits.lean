/-!
# Limits of a run

Two limits keep a run from going too deep.  A machine takes any values; `Limits.problem?` says which
ones the command line refuses.
-/

namespace Rite

/-- The limits that apply to one run. -/
structure Limits where
  /-- How many method calls may be nested. -/
  maxCallDepth : Nat := 256
  /-- How many superclass hops a look-up may take. -/
  maxClassDepth : Nat := 64
  deriving DecidableEq, Inhabited

/-- What is wrong with the limits, if anything. -/
def Limits.problem? (limits : Limits) : Option String :=
  if limits.maxCallDepth = 0 then some "max_call_depth must be > 0"
  else if limits.maxClassDepth = 0 then some "max_class_depth must be > 0"
  else none

end Rite

import Rite.Machine.Run

/-!
# Captured runs

A captured run is a whole program executed on a fresh machine, with what it wrote to either sink.
Output that was written before a fault is captured too.
-/

namespace Rite

/-- What became of one run. -/
structure Captured where
  out : String
  err : String
  /-- Why the run failed, if it did. -/
  halt : Option Halt
  deriving DecidableEq

/-- What an action wrote, and how it ended. -/
def Captured.ofResult {α : Type} : EStateM.Result Halt Machine α → Captured
  | .ok _ m => { out := m.out.contents, err := m.err.contents, halt := none }
  | .error h m => { out := m.out.contents, err := m.err.contents, halt := some h }

/-- Run a program on a fresh machine with the given sinks, which are flushed if it succeeds. -/
def Image.runInto (image : Image) (limits : Limits) (out err : Sink) : Captured :=
  .ofResult (Run.program Run.ample image (Machine.boot limits out err))

/-- Run a program on a fresh machine and collect all it writes. -/
def Image.capture (image : Image) (limits : Limits := {}) : Captured := image.runInto limits {} {}

end Rite

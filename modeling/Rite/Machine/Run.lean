import Rite.Builtin.Perform
import Rite.Frame.Evaluate
import Rite.Image.Basic
import Rite.Machine.Boot

/-!
# Running programs

Calls and evaluations are tied together by recursion on fuel: `Run.call` and `Run.evaluate` with
`n + 1` units of fuel run on an engine that has `n`.  Fuel bounds both how deep calls are nested and
how many instructions a frame executes.  A run that ends within its fuel ends the same way with more,
and whether a program terminates is the question whether some amount is enough.

The functions without a fuel argument run with `Run.ample` fuel, more than any program that ends can
use up in practice.
-/

namespace Rite

namespace Run

mutual

/-- Call a method that has been looked up. -/
def call : (fuel : Nat) → Handle → Found → String → List Handle → Action Handle
  | 0, _, _, _, _ => Action.exhausted
  | fuel + 1, receiver, found, name, args =>
    Found.call ⟨fuel, call fuel, evaluate fuel⟩ receiver found name args

/-- Evaluate a record. -/
def evaluate : (fuel : Nat) → Record → Context → List Handle → Action Handle
  | 0, _, _, _ => Action.exhausted
  | fuel + 1, record, context, args =>
    Frame.evaluate ⟨fuel, call fuel, evaluate fuel⟩ record context args

end

/-- The engine with the given amount of fuel. -/
def engine (fuel : Nat) : Engine := ⟨fuel, call fuel, evaluate fuel⟩

/-- Evaluate a record as top-level code. -/
def record (fuel : Nat) (r : Record) : Action Handle := evaluate fuel r .topLevel []

/-- Evaluate records in order, starting from the value `last`; answers the value of the last one. -/
def records (fuel : Nat) (last : Handle) : List Record → Action Handle
  | [] => return last
  | r :: rs => do
    let value ← record fuel r
    records fuel value rs

/-- Evaluate the root records of an image in order; answers the value of the last one, or `nil` if
there is none. -/
def image (fuel : Nat) (i : Image) : Action Handle := records fuel Handle.nil i.records

/-- Evaluate an image and flush the sinks. -/
def program (fuel : Nat) (i : Image) : Action Unit := do
  discard (image fuel i)
  Action.flush

/-- Fuel for a run whose end nobody doubts. -/
def ample : Nat := 0x4000000000000000

end Run

end Rite

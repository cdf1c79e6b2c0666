import Rite.Machine.Arithmetic
import Rite.Machine.Engine

/-!
# Methods of integers

Arithmetic and comparison.  The operands must be integers, except that anything can be asked to
compare by `==`, which then answers false, and by `<=>`, which then answers `nil`.
-/

namespace Rite.Integers

open Rite.Action

/-- Receiver and argument, both of which must be integers. -/
def operands (receiver : Handle) (args : List Handle) : Action (Int64 × Int64) := do
  let a ← demand (·.integer receiver)
  let other ← argument args 0
  let b ← demand (·.integer other)
  return (a, b)

/-- An operation that may overflow. -/
def arithmetic (f : Int64 → Int64 → Except Fault Int64) (receiver : Handle) (args : List Handle) :
    Action Handle := do
  let (a, b) ← operands receiver args
  newInteger (← ofExcept (f a b))

/-- A comparison of two integers. -/
def comparison (f : Int64 → Int64 → Bool) (receiver : Handle) (args : List Handle) :
    Action Handle := do
  let (a, b) ← operands receiver args
  answer (f a b)

/-- The receiver and, if it is an integer, the argument. -/
def loose (receiver : Handle) (args : List Handle) : Action (Int64 × Option Int64) := do
  let a ← demand (·.integer receiver)
  let other ← argument args 0
  return (a, ← ask fun m => (m.object other).integer?)

/-- Whether the argument is the same integer. -/
def eq (receiver : Handle) (args : List Handle) : Action Handle := do
  let (a, b) ← loose receiver args
  answer (b == some a)

/-- The sign of the difference, or `nil`. -/
def cmp (receiver : Handle) (args : List Handle) : Action Handle := do
  match ← loose receiver args with
  | (a, some b) => newInteger (if a < b then -1 else if a = b then 0 else 1)
  | (_, none) => return Handle.nil

/-- What each method does. -/
def perform : IntegerPrimitive → Handle → List Handle → Action Handle
  | .add, receiver, args => arithmetic Arithmetic.add receiver args
  | .sub, receiver, args => arithmetic Arithmetic.sub receiver args
  | .mul, receiver, args => arithmetic Arithmetic.mul receiver args
  | .div, receiver, args => arithmetic Arithmetic.floorDiv receiver args
  | .mod, receiver, args => arithmetic Arithmetic.floorMod receiver args
  | .pow, receiver, args => arithmetic Arithmetic.pow receiver args
  | .neg, receiver, _ => do
    let a ← demand (·.integer receiver)
    newInteger (← ofExcept (Arithmetic.neg a))
  | .eq, receiver, args => eq receiver args
  | .lt, receiver, args => comparison (fun a b => a < b) receiver args
  | .le, receiver, args => comparison (fun a b => a ≤ b) receiver args
  | .gt, receiver, args => comparison (fun a b => b < a) receiver args
  | .ge, receiver, args => comparison (fun a b => b ≤ a) receiver args
  | .cmp, receiver, args => cmp receiver args
  | .toS, receiver, _ => do
    let a ← demand (·.integer receiver)
    newString (toString a.toInt)
  | .isZero, receiver, _ => do
    let a ← demand (·.integer receiver)
    answer (a = 0)

end Rite.Integers

import Rite.Machine.Engine

/-!
# Methods of ranges

The bounds of a range may be any objects; only a range of integers can be spelled out.
-/

namespace Rite.Ranges

open Rite.Action

variable (e : Engine)

/-- The mark between the bounds. -/
def dots (exclusive : Bool) : String := if exclusive then "..." else ".."

/-- How many integers a range holds. -/
def count (first last : Int64) (exclusive : Bool) : Nat :=
  (last.toInt - first.toInt + (if exclusive then 0 else 1)).toNat

/-- `n` new integers, counting up from `first`, behind those in `made`. -/
def countUp : (first : Int) → (n : Nat) → (made : Array Handle) → Action (Array Handle)
  | _, 0, made => return made
  | first, n + 1, made => do
    let h ← newInteger (Int64.ofInt first)
    countUp (first + 1) n (made.push h)

/-- The integers of the range, in a new array. -/
def toA (receiver : Handle) : Action Handle := do
  let (first, last, exclusive) ← demand (·.range receiver)
  let a ← demand (·.integer first)
  let b ← demand (·.integer last)
  reserve (Handle.storedBytes * count a b exclusive)
  let items ← countUp a.toInt (count a b exclusive) #[]
  newArray items.toList

/-- Both bounds, rendered by `render`, with the dots between them. -/
def rendered (render : Handle → Action String) (receiver : Handle) : Action Handle := do
  let (first, last, exclusive) ← demand (·.range receiver)
  let a ← render first
  let b ← render last
  newString (a ++ dots exclusive ++ b)

/-- What each method does. -/
def perform : RangePrimitive → Handle → List Handle → Action Handle
  | .first, receiver, _ => do return (← demand (·.range receiver)).1
  | .last, receiver, _ => do return (← demand (·.range receiver)).2.1
  | .excludesEnd, receiver, _ => do answer (← demand (·.range receiver)).2.2
  | .toA, receiver, _ => toA receiver
  | .inspect, receiver, _ => rendered e.inspect receiver
  | .toS, receiver, _ => rendered e.toText receiver

end Rite.Ranges

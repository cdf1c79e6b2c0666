import Rite.Machine.Engine

/-!
# Methods of hashes

Look-up and insertion by key, and the keys, values and literal form in insertion order.
-/

namespace Rite.Hashes

open Rite.Action

variable (e : Engine)

/-- The value under a key, or `nil`. -/
def fetch (receiver : Handle) (args : List Handle) : Action Handle := do
  discard (demand (·.hash receiver))
  let key ← argument args 0
  ask fun m => (m.heap.hashGet? receiver key).getD Handle.nil

/-- Put a value under a key; answers the value. -/
def store (receiver : Handle) (args : List Handle) : Action Handle := do
  discard (demand (·.hash receiver))
  let value ← argument args 1
  let key ← argument args 0
  hashSet receiver key value
  return value

/-- Whether there is a value under a key. -/
def hasKey (receiver : Handle) (args : List Handle) : Action Handle := do
  discard (demand (·.hash receiver))
  let key ← argument args 0
  answer (← ask fun m => (m.heap.hashGet? receiver key).isSome)

/-- `key=>value` for a pair. -/
def inspectPair (pair : Handle × Handle) : Action String := do
  let key ← e.inspect pair.1
  let value ← e.inspect pair.2
  return key ++ "=>" ++ value

/-- The pairs between braces. -/
def inspect (receiver : Handle) : Action Handle := do
  let pairs ← demand (·.hash receiver)
  inspectGuarded receiver "\x7b...\x7d" do
    let parts ← pairs.mapM (inspectPair e)
    return "\x7b" ++ String.intercalate ", " parts ++ "\x7d"

/-- What each method does. -/
def perform : HashPrimitive → Handle → List Handle → Action Handle
  | .at, receiver, args => fetch receiver args
  | .atPut, receiver, args => store receiver args
  | .length, receiver, _ => do
    let pairs ← demand (·.hash receiver)
    newInteger (Int64.ofNat pairs.length)
  | .hasKey, receiver, args => hasKey receiver args
  | .keys, receiver, _ => do
    let pairs ← demand (·.hash receiver)
    newArray (pairs.map (·.1))
  | .values, receiver, _ => do
    let pairs ← demand (·.hash receiver)
    newArray (pairs.map (·.2))
  | .isEmpty, receiver, _ => do
    let pairs ← demand (·.hash receiver)
    answer pairs.isEmpty
  | .inspect, receiver, _ => inspect e receiver

end Rite.Hashes

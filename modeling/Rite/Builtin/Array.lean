import Rite.Heap.Items
import Rite.Machine.Engine

/-!
# Methods of arrays

Access by index, where a negative index counts from the end, growth at the end, comparison item by
item, and the literal form.  A collection that contains itself is shown as an ellipsis where it
comes up again.
-/

namespace Rite.Arrays

open Rite.Action

variable (e : Engine)

/-- The item at an index, or `nil`. -/
def fetch (receiver : Handle) (args : List Handle) : Action Handle := do
  let h ← argument args 0
  let index ← demand (·.integer h)
  let items ← demand (·.array receiver)
  match Items.place? index items.size with
  | some place => return items.getD place Handle.nil
  | none => return Handle.nil

/-- Put a value at an index; answers the value. -/
def store (receiver : Handle) (args : List Handle) : Action Handle := do
  let h ← argument args 0
  let index ← demand (·.integer h)
  let value ← argument args 1
  let size ← demand fun m => (m.array receiver).map (·.size)
  match Items.place? index size with
  | some place =>
    reserve (Items.growth size place)
    changeObject receiver (·.mapItems (Items.put · place value))
    return value
  | none => fail (.indexOutOfRange "array" index.toInt size)

/-- Append the arguments; answers the receiver. -/
def push (receiver : Handle) (args : List Handle) : Action Handle := do
  discard (demand fun m => (m.array receiver).map (·.size))
  changeObject receiver (·.mapItems (· ++ args))
  return receiver

/-- A new array with the items of both. -/
def concat (receiver : Handle) (args : List Handle) : Action Handle := do
  let head ← demand (·.array receiver)
  let other ← argument args 0
  let tail ← demand (·.array other)
  newArray (head.toList ++ tail.toList)

/-- Whether the items are equal one by one, as `==` answers for each pair. -/
def eqItems : List Handle → List Handle → Action Handle
  | a :: as, b :: bs => do
    let equal ← e.send a "==" [b]
    if equal.truthy then eqItems as bs else answer false
  | _, _ => answer true

/-- Whether the argument is an array with equal items. -/
def eq (receiver : Handle) (args : List Handle) : Action Handle := do
  let items ← demand (·.array receiver)
  let other ← argument args 0
  match ← ask fun m => (m.object other).array? with
  | none => answer false
  | some others =>
    if items.size ≠ others.size then answer false
    else eqItems e items.toList others.toList

/-- `[a, b, c]`. -/
def inspect (receiver : Handle) : Action Handle := do
  let items ← demand (·.array receiver)
  inspectGuarded receiver "[...]" do
    let parts ← e.inspectAll items.toList
    return "[" ++ String.intercalate ", " parts ++ "]"

/-- What each method does. -/
def perform : ArrayPrimitive → Handle → List Handle → Action Handle
  | .at, receiver, args => fetch receiver args
  | .atPut, receiver, args => store receiver args
  | .length, receiver, _ => do
    let items ← demand (·.array receiver)
    newInteger (Int64.ofNat items.size)
  | .push, receiver, args => push receiver args
  | .first, receiver, _ => do
    let items ← demand (·.array receiver)
    return items.getD 0 Handle.nil
  | .last, receiver, _ => do
    let items ← demand (·.array receiver)
    return items.back?.getD Handle.nil
  | .concat, receiver, args => concat receiver args
  | .eq, receiver, args => eq e receiver args
  | .inspect, receiver, _ => inspect e receiver
  | .isEmpty, receiver, _ => do
    let items ← demand (·.array receiver)
    answer items.isEmpty

end Rite.Arrays

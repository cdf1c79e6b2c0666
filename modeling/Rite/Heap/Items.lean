import Rite.Heap.Handle

/-!
# Rows of handles

The items of an array and the registers of a frame are rows of handles that grow on demand: writing
past the end fills the gap with `nil`.
-/

namespace Rite.Items

/-- The place that an index means in a row of `size` items.  A negative index counts from the end;
`none` if that is before the start.  The size enters as a signed word, so only rows of fewer than
2^63 items, and there are no others, can be counted from the end. -/
def place? (index : Int64) (size : Nat) : Option Nat :=
  let place := if index < 0 then index + Int64.ofNat size else index
  if place < 0 then none else some place.toInt.toNat

/-- The bytes to ask for before a value goes to `place`: none inside of the row, and past its end
those of a row that reaches up to the place. -/
def growth (size place : Nat) : Nat :=
  if size ≤ place then Handle.storedBytes * (place + 1) else 0

/-- The row with `value` at `place`, and `nil` in the gap that may open before it. -/
def put (items : Array Handle) (place : Nat) (value : Handle) : Array Handle :=
  if place < items.size then items.setIfInBounds place value
  else (items ++ Array.replicate (place - items.size) Handle.nil).push value

end Rite.Items

import Rite.Bytes.Cursor

/-!
# Fixed layouts

A header of the format is a window of fixed size with fields at its start.  `Reading.layout` reads
such a window in one go: the fields must fit into the window, and bytes of the window that no field
covers are passed over.
-/

namespace Rite

/-- One field of a layout. -/
inductive Field where
  | u8
  | u16
  | u32
  /-- Raw bytes. -/
  | bytes (width : Nat)
  /-- A string slot: text up to the first NUL. -/
  | text (width : Nat)
  deriving DecidableEq

/-- How many bytes a field occupies. -/
def Field.width : Field → Nat
  | .u8 => 1
  | .u16 => 2
  | .u32 => 4
  | .bytes n | .text n => n

/-- What a field holds. -/
inductive FieldValue where
  | int (n : Nat)
  | bytes (raw : Bytes)
  | text (s : String)
  deriving DecidableEq

/-- The value of a field, given exactly the bytes it occupies. -/
def Field.value : Field → Bytes → FieldValue
  | .u8, raw | .u16, raw | .u32, raw => .int (BigEndian.toNat raw)
  | .bytes _, raw => .bytes raw
  | .text _, raw => .text (Reading.textOfSlot raw)

namespace Layout

/-- How many bytes the fields occupy together. -/
def width (fields : List Field) : Nat := fields.foldr (fun field n => field.width + n) 0

/-- The values of the fields laid out one after the other at the start of `window`. -/
def values : List Field → Bytes → List FieldValue
  | [], _ => []
  | field :: fields, window =>
    field.value (window.take field.width) :: values fields (window.drop field.width)

end Layout

/-- Consume exactly `n` bytes and read `fields` from the start of them. -/
def Reading.layout (n : Nat) (fields : List Field) : Reading (List FieldValue) := do
  if n < Layout.width fields then
    throw (.layoutOverflow (Layout.width fields) n)
  return Layout.values fields (← take n)

end Rite

import Rite.Image.LoadError
import Rite.Text.Utf8

/-!
# A cursor over bytes

A `Cursor` is what is left of an input together with the absolute offset of its first byte.  All
reading goes through `Reading.take`, which either removes exactly the bytes it was asked for or
fails and leaves the cursor where it was.  So along any sequence of reads the sum of offset and
remaining length never changes.
-/

namespace Rite

/-- A position in an input: the bytes still ahead and the absolute offset of the first of them. -/
structure Cursor where
  /-- Absolute offset of the next byte. -/
  offset : Nat
  /-- The bytes not read yet. -/
  rest : Bytes
  deriving DecidableEq, Inhabited

namespace Cursor

/-- A cursor at the start of `bytes`, which begin at absolute offset `base`. -/
def start (bytes : Bytes) (base : Nat := 0) : Cursor := ⟨base, bytes⟩

/-- How many bytes are left. -/
def remaining (c : Cursor) : Nat := c.rest.length

/-- Whether nothing is left. -/
def atEnd (c : Cursor) : Bool := c.rest.isEmpty

/-- Whether at least `n` bytes are left.  Looks at `n` bytes only, however long the input is. -/
def holds (c : Cursor) (n : Nat) : Bool := n = 0 || !(c.rest.drop (n - 1)).isEmpty

/-- `holds` says what it should. -/
theorem holds_iff (c : Cursor) (n : Nat) : c.holds n = true ↔ n ≤ c.remaining := by
  cases n with
  | zero => simp [holds]
  | succ n =>
    have hsize : (c.rest.drop n).length = c.rest.length - n := List.length_drop
    cases hdrop : c.rest.drop n with
    | nil =>
      rw [hdrop] at hsize
      simp only [holds, remaining, Nat.add_sub_cancel, hdrop]
      simp only [List.length_nil] at hsize
      simp
      omega
    | cons b bs =>
      rw [hdrop] at hsize
      simp only [holds, remaining, Nat.add_sub_cancel, hdrop]
      simp only [List.length_cons] at hsize
      simp
      omega

end Cursor

/-- A computation that reads from a cursor.  On failure too it says where the cursor stands. -/
abbrev Reading := EStateM LoadError Cursor

namespace Reading

/-- The absolute offset of the next byte. -/
def offset : Reading Nat := do return (← get).offset

/-- Whether the input is used up. -/
def atEnd : Reading Bool := do return (← get).atEnd

/-- The next `n` bytes.  A failure does not move the cursor. -/
def take (n : Nat) : Reading Bytes := fun c =>
  if c.holds n then
    .ok (c.rest.take n) ⟨c.offset + n, c.rest.drop n⟩
  else
    .error (.truncatedInput c.offset n c.remaining) c

/-- The next byte. -/
def u8 : Reading UInt8 := do return UInt8.ofNat (BigEndian.toNat (← take 1))

/-- The next 16-bit word. -/
def u16 : Reading UInt16 := do return UInt16.ofNat (BigEndian.toNat (← take 2))

/-- The next 32-bit word. -/
def u32 : Reading UInt32 := do return UInt32.ofNat (BigEndian.toNat (← take 4))

/-- Four raw bytes: a magic number or a section tag. -/
def tag : Reading Bytes := take 4

/-- Pass over `n` bytes. -/
def skip (n : Nat) : Reading Unit := do discard (take n)

/-- The text before the first NUL of a string slot; bytes after it are ignored. -/
def textOfSlot (slot : Bytes) : String := Utf8.decode (slot.takeWhile (· ≠ 0))

/-- A string stored in a slot of `n` bytes. -/
def text (n : Nat) : Reading String := do return textOfSlot (← take n)

end Reading

end Rite

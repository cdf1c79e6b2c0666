/-!
# Big-endian words

An image is a list of bytes, and every multi-byte number in it has its most significant byte first.
-/

namespace Rite

/-- Raw bytes, in file order. -/
abbrev Bytes := List UInt8

namespace BigEndian

/-- The number that `bytes` spell, most significant byte first. -/
def toNat (bytes : Bytes) : Nat :=
  bytes.foldl (fun acc byte => acc * 256 + byte.toNat) 0

/-- The number in the `width` bytes of `window` from position `start` on. -/
def slice (window : Bytes) (start width : Nat) : Nat := toNat ((window.drop start).take width)

/-- The two bytes of a 16-bit word. -/
def word16 (w : UInt16) : Bytes :=
  [(w >>> 8).toUInt8, w.toUInt8]

/-- The four bytes of a 32-bit word. -/
def word32 (w : UInt32) : Bytes :=
  [(w >>> 24).toUInt8, (w >>> 16).toUInt8, (w >>> 8).toUInt8, w.toUInt8]

end BigEndian

end Rite

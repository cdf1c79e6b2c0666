/-!
# Numbers in messages

Hexadecimal digits for escapes and opcode bytes, and decimal numbers padded to a width or carrying
an explicit sign.
-/

namespace Rite.Digits

/-- Lower-case hexadecimal digits, without padding. -/
def hex (n : Nat) : String := String.ofList (Nat.toDigits 16 n)

/-- `text` with `fill` put in front of it up to `width` characters. -/
def padLeft (fill : Char) (width : Nat) (text : String) : String :=
  String.ofList (List.replicate (width - text.length) fill) ++ text

/-- Two lower-case hexadecimal digits. -/
def hexByte (b : UInt8) : String := padLeft '0' 2 (hex b.toNat)

/-- A decimal number that always shows its sign; zero counts as positive. -/
def signed (n : Int) : String :=
  if n < 0 then toString n else "+" ++ toString n

end Rite.Digits

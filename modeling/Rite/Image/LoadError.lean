import Rite.Bytes.BigEndian
import Rite.Text.Digits

/-!
# Why an image fails to load

Each cause is one constructor, and carries what its message needs.  Offsets are absolute positions
in the input, so a message points at the byte that is to blame.  Every one of them ends the load.
-/

namespace Rite

/-- One byte of a tag as it is shown: quotes, backslashes and everything outside printable ASCII are
escaped. -/
def showTagByte (byte : UInt8) : String :=
  if byte = 9 then "\\t"
  else if byte = 13 then "\\r"
  else if byte = 10 then "\\n"
  else if byte = 39 then "\\'"
  else if byte = 34 then "\\\""
  else if byte = 92 then "\\\\"
  else if 0x20 ≤ byte && byte ≤ 0x7e then String.singleton (Char.ofNat byte.toNat)
  else "\\x" ++ Digits.hexByte byte

/-- A section tag or magic number as a quoted text. -/
def showTag (tag : Bytes) : String :=
  "\"" ++ String.join (tag.map showTagByte) ++ "\""

/-- The causes for which a load, or a single read, fails. -/
inductive LoadError where
  /-- The input does not start with the magic number. -/
  | invalidMagic (found : Bytes)
  /-- A read wanted `needed` bytes where only `available` were left. -/
  | truncatedInput (offset needed available : Nat)
  /-- A section with a tag that the format does not define. -/
  | unknownSection (offset : Nat) (tag : Bytes)
  /-- A section that the format defines and that is not loaded. -/
  | unsupportedSection (offset : Nat) (tag : Bytes)
  /-- A literal that is not a string. -/
  | unsupportedLiteralType (offset : Nat) (tag : UInt8)
  /-- A byte at the start of an instruction that is no opcode. -/
  | unknownOpcode (offset : Nat) (byte : UInt8)
  /-- An instruction whose operands reach past the end of its code section. -/
  | codeOverrun (offset declared : Nat)
  /-- A read layout wider than the window it is to be read from. -/
  | layoutOverflow (width window : Nat)
  deriving DecidableEq

/-- The text of a load error. -/
def LoadError.message : LoadError → String
  | .invalidMagic found => "not a RITE image: magic is " ++ showTag found
  | .truncatedInput offset needed available =>
    s!"truncated input at offset {offset}: needed {needed} bytes, {available} available"
  | .unknownSection offset tag => "unknown section " ++ showTag tag ++ s!" at offset {offset}"
  | .unsupportedSection offset tag =>
    "unsupported section " ++ showTag tag ++ s!" at offset {offset}"
  | .unsupportedLiteralType offset tag => s!"unsupported literal type {tag} at offset {offset}"
  | .unknownOpcode offset byte => "unknown opcode 0x" ++ Digits.hexByte byte ++ s!" at offset {offset}"
  | .codeOverrun offset declared =>
    s!"instruction at offset {offset} runs past the {declared}-byte code section"
  | .layoutOverflow width window =>
    s!"layout needs {width} bytes but the read window is {window}"

end Rite

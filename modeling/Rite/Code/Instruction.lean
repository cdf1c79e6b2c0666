import Rite.Bytes.Cursor
import Rite.Code.Opcode

/-!
# Instructions

An instruction is an opcode with up to three operands.  Operands are held as 16-bit words whatever
their encoded width; which of them mean something is a matter of the opcode's shape.  `encode` drops
the high byte of an operand that has only eight bits, and `Reading.instruction` leaves operands that
the shape does not have at zero, so reading back an encoding gives the instruction itself exactly
when it is `Canonical`.
-/

namespace Rite

/-- A decoded instruction.  The operand of a one-word jump is `a`. -/
structure Instruction where
  op : Opcode
  a : UInt16 := 0
  b : UInt16 := 0
  c : UInt16 := 0
  deriving DecidableEq, Inhabited

namespace Instruction

/-- Size of the encoding, the opcode byte included. -/
def encodedSize (i : Instruction) : Nat := i.op.encodedSize

/-- The signed distance of a jump, counted from the end of the instruction. -/
def jumpOffset? (i : Instruction) : Option Int :=
  match i.op with
  | .jump | .jumpUnwind => some i.a.toInt16.toInt
  | .jumpIf | .jumpUnless | .jumpNil => some i.b.toInt16.toInt
  | _ => none

/-- The operand bytes that follow the opcode byte.  8-bit operands lose their high byte. -/
def operandBytes (i : Instruction) : Bytes :=
  match i.op.shape with
  | .z => []
  | .b => [i.a.toUInt8]
  | .bb => [i.a.toUInt8, i.b.toUInt8]
  | .bbb => [i.a.toUInt8, i.b.toUInt8, i.c.toUInt8]
  | .bs => i.a.toUInt8 :: BigEndian.word16 i.b
  | .bss => i.a.toUInt8 :: (BigEndian.word16 i.b ++ BigEndian.word16 i.c)
  | .s => BigEndian.word16 i.a

/-- The encoded form. -/
def encode (i : Instruction) : Bytes := i.op.toByte :: i.operandBytes

/-- The instruction that reading back the encoding of `i` gives: 8-bit operands reduced, operands
that the shape does not have set to zero. -/
def canonical (i : Instruction) : Instruction :=
  match i.op.shape with
  | .z => { op := i.op }
  | .b => { op := i.op, a := i.a.toUInt8.toUInt16 }
  | .bb => { op := i.op, a := i.a.toUInt8.toUInt16, b := i.b.toUInt8.toUInt16 }
  | .bbb =>
    { op := i.op, a := i.a.toUInt8.toUInt16, b := i.b.toUInt8.toUInt16, c := i.c.toUInt8.toUInt16 }
  | .bs => { op := i.op, a := i.a.toUInt8.toUInt16, b := i.b }
  | .bss => { op := i.op, a := i.a.toUInt8.toUInt16, b := i.b, c := i.c }
  | .s => { op := i.op, a := i.a }

/-- An instruction whose operands fit its shape, and that has no others. -/
def Canonical (i : Instruction) : Prop := i.canonical = i

instance (i : Instruction) : Decidable i.Canonical :=
  inferInstanceAs (Decidable (i.canonical = i))

/-- The line of a listing: mnemonic, then the register operand with an `R`, then the others.  The
distance of a jump is signed. -/
def text (i : Instruction) : String :=
  let name := i.op.mnemonic
  let a := i.a.toNat
  let b := i.b.toNat
  let c := i.c.toNat
  match i.op.shape with
  | .z => name
  | .b => s!"{name} R{a}"
  | .bb => s!"{name} R{a} {b}"
  | .bbb | .bss => s!"{name} R{a} {b} {c}"
  | .bs =>
    if i.op.isJump then s!"{name} R{a} " ++ Digits.signed i.b.toInt16.toInt
    else s!"{name} R{a} {b}"
  | .s =>
    if i.op.isJump then s!"{name} " ++ Digits.signed i.a.toInt16.toInt
    else s!"{name} {a}"

end Instruction

namespace Reading

/-- An 8-bit operand. -/
def operand8 : Reading UInt16 := do return (← u8).toUInt16

/-- The operands of an instruction whose opcode byte has just been read.  They are read one by one,
so a failure leaves the cursor behind those that were there. -/
def operands (op : Opcode) : Reading Instruction := do
  match op.shape with
  | .z => return { op }
  | .b => return { op, a := ← operand8 }
  | .bb =>
    let a ← operand8
    let b ← operand8
    return { op, a, b }
  | .bbb =>
    let a ← operand8
    let b ← operand8
    let c ← operand8
    return { op, a, b, c }
  | .bs =>
    let a ← operand8
    let b ← u16
    return { op, a, b }
  | .bss =>
    let a ← operand8
    let b ← u16
    let c ← u16
    return { op, a, b, c }
  | .s => return { op, a := ← u16 }

/-- The next instruction. -/
def instruction : Reading Instruction := do
  let at_ ← offset
  let byte ← u8
  match Opcode.ofByte? byte with
  | some op => operands op
  | none => throw (.unknownOpcode at_ byte)

end Reading

end Rite

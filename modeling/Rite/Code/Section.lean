import Rite.Code.Instruction

/-!
# Code sections

A code section is decoded front to back into instructions, each with its offset from the start of
the section.  `Code.scan` goes as far as it can: it returns the instructions of the longest prefix
that decodes, and the error that stopped it, if one did.  An instruction whose operands reach past
the section is a `LoadError.codeOverrun`, never a truncated input.
-/

namespace Rite

/-- An instruction and its offset from the start of the code section. -/
structure Placed where
  offset : Nat
  instruction : Instruction
  deriving DecidableEq, Inhabited

/-- A decoded code section. -/
structure Code where
  /-- The instructions in order, each with its offset. -/
  placed : Array Placed := #[]
  /-- Length of the section in bytes. -/
  size : Nat := 0
  deriving DecidableEq, Inhabited

namespace Code

/-- How many instructions there are. -/
def length (code : Code) : Nat := code.placed.size

/-- The instructions alone. -/
def instructions (code : Code) : List Instruction := code.placed.toList.map (·.instruction)

/-- The offsets alone. -/
def offsets (code : Code) : List Nat := code.placed.toList.map (·.offset)

/-- The index of the instruction that starts at `offset`.  The end of the section counts as the
index after the last instruction. -/
def positionOf? (code : Code) (offset : Nat) : Option Nat :=
  if offset = code.size then some code.length
  else code.placed.findIdx? (·.offset == offset)

/-- How an error met at offset `start` inside a section of `size` bytes is reported. -/
def sectionError (start size : Nat) : LoadError → LoadError
  | .truncatedInput .. => .codeOverrun start size
  | e => e

/-- Decode from `cursor` on, in a section of `size` bytes that starts at absolute offset `base`.
Every instruction takes at least one byte, so as many rounds as there are bytes are enough. -/
def scanFrom (base size : Nat) : Nat → Cursor → List Placed × Option LoadError
  | 0, _ => ([], none)
  | rounds + 1, cursor =>
    if cursor.atEnd then ([], none)
    else
      match Reading.instruction cursor with
      | .ok instruction next =>
        let (placed, stop) := scanFrom base size rounds next
        (⟨cursor.offset - base, instruction⟩ :: placed, stop)
      | .error e _ => ([], some (sectionError cursor.offset size e))

/-- The instructions of a section that starts at absolute offset `base`, up to its end or to the
first error. -/
def scan (bytes : Bytes) (base : Nat := 0) : List Placed × Option LoadError :=
  scanFrom base bytes.length bytes.length (Cursor.start bytes base)

end Code

/-- A code section of exactly `size` bytes. -/
def Reading.code (size : Nat) : Reading Code := do
  let base ← offset
  let bytes ← take size
  match Code.scan bytes base with
  | (placed, none) => return { placed := placed.toArray, size }
  | (_, some e) => throw e

end Rite

import Rite.Bytes.Layout
import Rite.Image.Record

/-!
# Images

An image is a header, the root records of its record sections in file order, and what the loader
found wrong with the declared sizes.  Declared sizes are advisory: a wrong one is noted and the load
goes on.
-/

namespace Rite

/-- A declared size that is not the size that was read. -/
inductive Discrepancy where
  /-- The header's total against the length of the input. -/
  | totalSize (declared actual : Nat)
  /-- A record section, its eight header bytes included. -/
  | sectionSize (offset declared consumed : Nat)
  /-- A record without its children. -/
  | recordSize (offset declared consumed : Nat)
  deriving DecidableEq

/-- The text of a discrepancy. -/
def Discrepancy.message : Discrepancy → String
  | .totalSize declared actual => s!"header declares {declared} bytes, image has {actual}"
  | .sectionSize offset declared consumed =>
    s!"section at {offset} declares {declared} bytes, consumed {consumed}"
  | .recordSize offset declared consumed =>
    s!"record at {offset} declares {declared} bytes, consumed {consumed}"

/-- A loaded image. -/
structure Image where
  major : UInt16
  minor : UInt16
  totalSize : UInt32
  compiler : Bytes
  compilerVersion : Bytes
  /-- Root records in file order, one for each record section. -/
  records : List Record
  /-- Declared sizes that turned out wrong, in the order they were met. -/
  diagnostics : List Discrepancy
  deriving Inhabited

/-! ## Tags, fixed sizes and layouts of the format -/

namespace Format

/-- `RITE`, the first four bytes of every image. -/
def magic : Bytes := [0x52, 0x49, 0x54, 0x45]

/-- `IREP`: a section that holds one tree of records. -/
def recordSection : Bytes := [0x49, 0x52, 0x45, 0x50]

/-- `LVAR`: names of local variables, which are passed over. -/
def localsSection : Bytes := [0x4C, 0x56, 0x41, 0x52]

/-- `DBG\0`: debug information, which is not supported. -/
def debugSection : Bytes := [0x44, 0x42, 0x47, 0x00]

/-- `END\0`: ends the image; whatever follows is not looked at. -/
def endSection : Bytes := [0x45, 0x4E, 0x44, 0x00]

/-- Size of the image header. -/
def headerSize : Nat := 20

/-- Size of a section header: tag and declared size. -/
def sectionHeaderSize : Nat := 8

/-- Size of a record header, the length of the code included. -/
def recordHeaderSize : Nat := 16

/-- The image header behind the magic number: version, total size, and the compiler with its version. -/
def headerTail : List Field := [.u16, .u16, .u32, .bytes 4, .bytes 4]

/-- A section header: tag and declared size. -/
def sectionHeader : List Field := [.bytes 4, .u32]

/-- A record header: declared size, the numbers of locals, registers, children and catch handlers, and
the length of the code. -/
def recordHeader : List Field := [.u32, .u16, .u16, .u16, .u16, .u32]

/-- The literal kind of strings, the only one that is loaded. -/
def stringLiteral : UInt8 := 0

end Format

end Rite

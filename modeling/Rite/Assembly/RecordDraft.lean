import Rite.Image.Basic

/-!
# Assembling a record

A `RecordDraft` is a record that is still being put together: code items in the order they were
emitted, and tables to which names are added on demand.  Tables are interned, so asking twice for
the same text gives the same index.  Indices are handed out as bytes, which is what an operand can
hold, and wrap around beyond 255.
-/

namespace Rite

/-- One item of the code of a draft. -/
inductive CodeItem where
  | instruction (i : Instruction)
  /-- Bytes put into the code section as they are. -/
  | raw (bytes : Bytes)
  deriving DecidableEq

/-- The bytes an item adds to the code section. -/
def CodeItem.encode : CodeItem → Bytes
  | .instruction i => i.encode
  | .raw bytes => bytes

/-- A record under assembly. -/
structure RecordDraft where
  registers : UInt16 := 0
  locals : UInt16 := 0
  catchHandlers : UInt16 := 0
  code : Array CodeItem := #[]
  literals : List String := []
  symbols : List String := []
  children : List RecordDraft := []
  deriving Inhabited

/-- The table with `text` in it, and the index of `text`. -/
def internText (table : List String) (text : String) : List String × Nat :=
  match table.idxOf? text with
  | some index => (table, index)
  | none => (table ++ [text], table.length)

namespace RecordDraft

/-- Append an item to the code. -/
def push (d : RecordDraft) (item : CodeItem) : RecordDraft := { d with code := d.code.push item }

/-- Append an instruction. -/
def emit (d : RecordDraft) (i : Instruction) : RecordDraft := d.push (.instruction i)

/-- Append bytes as they are. -/
def raw (d : RecordDraft) (bytes : Bytes) : RecordDraft := d.push (.raw bytes)

/-- The index of a symbol, which is added unless it is there already. -/
def symbol (d : RecordDraft) (name : String) : RecordDraft × UInt8 :=
  let (symbols, index) := internText d.symbols name
  ({ d with symbols }, UInt8.ofNat index)

/-- The index of a string literal, which is added unless it is there already. -/
def literal (d : RecordDraft) (text : String) : RecordDraft × UInt8 :=
  let (literals, index) := internText d.literals text
  ({ d with literals }, UInt8.ofNat index)

/-- Append a child record.  Children are not shared. -/
def child (d : RecordDraft) (c : RecordDraft) : RecordDraft × UInt8 :=
  ({ d with children := d.children ++ [c] }, UInt8.ofNat d.children.length)

/-- Emit a call of `name` with `argc` positional arguments behind register `a`. -/
def send (d : RecordDraft) (op : Opcode) (a : UInt8) (name : String) (argc : UInt8) : RecordDraft :=
  let (d, index) := d.symbol name
  d.emit { op, a := a.toUInt16, b := index.toUInt16, c := argc.toUInt16 }

/-- The code section. -/
def codeBytes (d : RecordDraft) : Bytes := d.code.toList.flatMap CodeItem.encode

/-- Length of the code section so far, for computing jump distances. -/
def currentOffset (d : RecordDraft) : Nat := d.codeBytes.length

/-- A text with its length in front and a terminating byte behind. -/
def textEntry (text : String) : Bytes :=
  let bytes := Utf8.encode text
  BigEndian.word16 (UInt16.ofNat bytes.length) ++ bytes ++ [0]

/-- The literal pool as it is stored. -/
def literalBytes (d : RecordDraft) : Bytes :=
  BigEndian.word16 (UInt16.ofNat d.literals.length) ++
    d.literals.flatMap fun text => Format.stringLiteral :: textEntry text

/-- The symbol table as it is stored. -/
def symbolBytes (d : RecordDraft) : Bytes :=
  BigEndian.word16 (UInt16.ofNat d.symbols.length) ++ d.symbols.flatMap textEntry

/-- Everything of a record behind its counts: code with its length, literals, symbols. -/
def bodyBytes (d : RecordDraft) : Bytes :=
  let code := d.codeBytes
  BigEndian.word32 (UInt32.ofNat code.length) ++ code ++ d.literalBytes ++ d.symbolBytes

/-- A record without its children.  Its declared size counts these bytes and no others. -/
def ownBytes (d : RecordDraft) : Bytes :=
  let body := d.bodyBytes
  BigEndian.word32 (UInt32.ofNat (Format.recordHeaderSize - 4 + body.length)) ++
    BigEndian.word16 d.locals ++ BigEndian.word16 d.registers ++
    BigEndian.word16 (UInt16.ofNat d.children.length) ++ BigEndian.word16 d.catchHandlers ++ body

mutual

/-- A record and the records nested in it, in pre-order. -/
def encode : RecordDraft → Bytes
  | ⟨registers, locals, catchHandlers, code, literals, symbols, children⟩ =>
    ownBytes ⟨registers, locals, catchHandlers, code, literals, symbols, children⟩ ++
      encodeAll children

/-- Records one after the other. -/
def encodeAll : List RecordDraft → Bytes
  | [] => []
  | d :: ds => encode d ++ encodeAll ds

end

end RecordDraft

end Rite

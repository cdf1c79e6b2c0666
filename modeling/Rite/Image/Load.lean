import Rite.Image.Basic

/-!
# Loading an image

`Image.ofBytes` reads the header and then section after section until the input ends or an end
section is met.  A record section holds one tree of records in pre-order: a record is a header,
code, literals and symbols, and then as many records as its header says it has children.

The three kinds of headers are windows with fixed layouts.  What is read by a layout is a row of
values, one for each field, so each header has a function that takes such a row apart.  It says nothing
of use about rows of other shapes, and no other rows are read.

Reading a record is bounded by the bytes that are left.  A record takes at least twenty bytes before
its first child, so a nesting deeper than the number of remaining bytes cannot occur; the depth that
`Reading.recordWithin` counts down is never the reason for a failure.
-/

namespace Rite

namespace Reading

variable {α : Type}

/-- Read `n` items, one after the other. -/
def times : Nat → Reading α → Reading (List α)
  | 0, _ => return []
  | n + 1, item => do
    let x ← item
    let xs ← times n item
    return x :: xs

/-- One entry of a literal pool.  The kind is judged after the length has been read, and the string
is followed by one terminating byte. -/
def literal : Reading String := do
  let start ← offset
  let kind ← u8
  let length ← u16
  if kind ≠ Format.stringLiteral then
    throw (.unsupportedLiteralType start kind)
  let s ← text length.toNat
  skip 1
  return s

/-- A literal pool: its length and its entries. -/
def literalPool : Reading (List String) := do
  let count ← u16
  times count.toNat literal

/-- One entry of a symbol table, followed by one terminating byte. -/
def symbol : Reading String := do
  let length ← u16
  let s ← text length.toNat
  skip 1
  return s

/-- A symbol table: its length and its entries. -/
def symbolTable : Reading (List String) := do
  let count ← u16
  times count.toNat symbol

/-- The fixed part at the start of a record. -/
structure RecordHead where
  declared : Nat
  localCount : UInt16
  registerCount : UInt16
  childCount : Nat
  catchCount : UInt16
  codeSize : Nat
  deriving Inhabited

/-- What the fields of a record header say. -/
def RecordHead.ofValues : List FieldValue → RecordHead
  | [.int declared, .int locals, .int registers, .int children, .int catches, .int codeSize] => {
    declared
    localCount := UInt16.ofNat locals
    registerCount := UInt16.ofNat registers
    childCount := children
    catchCount := UInt16.ofNat catches
    codeSize }
  | _ => default

/-- A record header. -/
def recordHead : Reading RecordHead := do
  return .ofValues (← layout Format.recordHeaderSize Format.recordHeader)

/-- `[d]` when the declared size is not the consumed one, and nothing otherwise. -/
def noteUnless (declared consumed : Nat) (d : Discrepancy) : List Discrepancy :=
  if declared = consumed then [] else [d]

/-- A tree of records nested at most `depth` deep, with the discrepancies of its records in
pre-order.  At depth zero no byte is left, so it is the header that is missing. -/
def recordWithin : Nat → Reading (Record × List Discrepancy)
  | 0 => fun c => .error (.truncatedInput c.offset Format.recordHeaderSize c.remaining) c
  | depth + 1 => do
    let start ← offset
    let head ← recordHead
    let code ← Reading.code head.codeSize
    let literals ← literalPool
    let symbols ← symbolTable
    let consumed := (← offset) - start
    let children ← times head.childCount (recordWithin depth)
    let record := {
      localCount := head.localCount
      registerCount := head.registerCount
      catchCount := head.catchCount
      code, literals, symbols
      children := children.map (·.1) }
    let own := noteUnless head.declared consumed (.recordSize start head.declared consumed)
    return (record, own ++ (children.map (·.2)).flatten)

/-- A tree of records. -/
def record : Reading (Record × List Discrepancy) := do
  recordWithin (← get).remaining

/-- The fixed part at the start of a section. -/
structure SectionHead where
  name : Bytes
  declared : Nat
  deriving Inhabited

/-- What the fields of a section header say. -/
def SectionHead.ofValues : List FieldValue → SectionHead
  | [.bytes name, .int declared] => { name, declared }
  | _ => default

/-- A section header. -/
def sectionHead : Reading SectionHead := do
  return .ofValues (← layout Format.sectionHeaderSize Format.sectionHeader)

/-- The sections from here on: root records and discrepancies, both in file order.  A section takes
at least eight bytes, so as many rounds as there are bytes are enough. -/
def sectionsWithin : Nat → Reading (List Record × List Discrepancy)
  | 0 => return ([], [])
  | rounds + 1 => do
    if ← atEnd then
      return ([], [])
    let start ← offset
    let head ← sectionHead
    if head.name = Format.recordSection then
      discard tag
      let (root, inner) ← record
      let consumed := (← offset) - start
      let own := noteUnless head.declared consumed (.sectionSize start head.declared consumed)
      let (roots, outer) ← sectionsWithin rounds
      return (root :: roots, inner ++ own ++ outer)
    else if head.name = Format.localsSection then
      skip head.declared
      sectionsWithin rounds
    else if head.name = Format.debugSection then
      throw (.unsupportedSection start head.name)
    else if head.name = Format.endSection then
      return ([], [])
    else
      throw (.unknownSection start head.name)

/-- The part of the image header behind the magic number. -/
structure ImageHead where
  major : UInt16
  minor : UInt16
  declared : Nat
  compiler : Bytes
  compilerVersion : Bytes
  deriving Inhabited

/-- What the fields of the image header say. -/
def ImageHead.ofValues : List FieldValue → ImageHead
  | [.int major, .int minor, .int declared, .bytes compiler, .bytes compilerVersion] => {
    major := UInt16.ofNat major
    minor := UInt16.ofNat minor
    declared, compiler, compilerVersion }
  | _ => default

/-- The image header behind the magic number. -/
def imageHead : Reading ImageHead := do
  return .ofValues (← layout (Format.headerSize - 4) Format.headerTail)

/-- A whole image. -/
def image : Reading Image := do
  let actual := (← get).remaining
  let found ← tag
  if found ≠ Format.magic then
    throw (.invalidMagic found)
  let head ← imageHead
  let (records, noted) ← sectionsWithin (← get).remaining
  return {
    major := head.major
    minor := head.minor
    totalSize := UInt32.ofNat head.declared
    compiler := head.compiler
    compilerVersion := head.compilerVersion
    records
    diagnostics := noteUnless head.declared actual (.totalSize head.declared actual) ++ noted }

end Reading

/-- Load an image from its bytes. -/
def Image.ofBytes (bytes : Bytes) : Except LoadError Image :=
  match Reading.image (Cursor.start bytes) with
  | .ok image _ => .ok image
  | .error e _ => .error e

end Rite

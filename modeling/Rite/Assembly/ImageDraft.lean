import Rite.Assembly.RecordDraft

/-!
# Assembling an image

An `ImageDraft` is a list of sections.  The size declared for a record section counts the eight bytes
of the section header; the size declared for any other section counts its payload alone, which is
what the loader passes over.
-/

namespace Rite

/-- One section of an image under assembly. -/
inductive Part where
  /-- A tree of records. -/
  | record (draft : RecordDraft)
  /-- Any other section: a tag of four bytes and a payload. -/
  | other (tag payload : Bytes)

namespace Part

/-- The format tag at the start of a record section: `0300`. -/
def recordFormat : Bytes := [0x30, 0x33, 0x30, 0x30]

/-- A section as it is stored. -/
def encode : Part → Bytes
  | .record draft =>
    let payload := recordFormat ++ draft.encode
    Format.recordSection ++
      BigEndian.word32 (UInt32.ofNat (Format.sectionHeaderSize + payload.length)) ++ payload
  | .other tag payload => tag ++ BigEndian.word32 (UInt32.ofNat payload.length) ++ payload

end Part

/-- An image under assembly. -/
structure ImageDraft where
  parts : List Part := []
  /-- Whether the image closes with an end section. -/
  closed : Bool := true

namespace ImageDraft

/-- The end section: tag, and the size of the section header. -/
def endBytes : Bytes :=
  Format.endSection ++ BigEndian.word32 (UInt32.ofNat Format.sectionHeaderSize)

/-- Everything behind the header. -/
def bodyBytes (d : ImageDraft) : Bytes :=
  d.parts.flatMap Part.encode ++ if d.closed then endBytes else []

/-- Major version `03` and minor version `00`, as text. -/
def version : Bytes := [0x30, 0x33, 0x30, 0x30]

/-- Compiler tag `MATZ` and compiler version `0000`. -/
def compiler : Bytes := [0x4D, 0x41, 0x54, 0x5A, 0x30, 0x30, 0x30, 0x30]

/-- The image as it is stored. -/
def toBytes (d : ImageDraft) : Bytes :=
  let body := d.bodyBytes
  Format.magic ++ version ++ BigEndian.word32 (UInt32.ofNat (Format.headerSize + body.length)) ++
    compiler ++ body

/-- The image of a single record. -/
def ofRecord (draft : RecordDraft) : ImageDraft := { parts := [.record draft] }

end ImageDraft

end Rite

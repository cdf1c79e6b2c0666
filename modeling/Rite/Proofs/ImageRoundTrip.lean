import Mathlib.Data.List.TakeWhile
import Rite.Assembly.ImageDraft
import Rite.Proofs.ImageFormat
import Rite.Proofs.Utf8

/-!
# Loading what was assembled

An assembled image is loaded without a discrepancy, and its records are the drafts it was made from.
Three limits of the format stand in the way of saying this of *every* draft: counts and lengths of
texts are stored in sixteen bits, sizes in thirty-two, and a stored text ends at its first NUL.
`Storable` excludes the drafts that exceed them, and drafts with raw bytes in their code, which need
not be instructions.

Instructions come back with their operands cut down to what their shapes can hold; everything else
comes back as it was.
-/

namespace Rite

open BigEndian (word16 word32)

/-! ## What a draft stands for -/

/-- A text that can be stored: no NUL, and a length that fits into sixteen bits. -/
def StorableText (text : String) : Prop :=
  '\x00' ∉ text.toList ∧ (Utf8.encode text).length ≤ 65535

instance (text : String) : Decidable (StorableText text) :=
  inferInstanceAs (Decidable (_ ∧ _))

namespace CodeItem

/-- The instruction of an item, if it is one. -/
def instruction? : CodeItem → Option Instruction
  | .instruction i => some i
  | .raw _ => none

end CodeItem

namespace RecordDraft

/-- The instructions of a draft, in the order they were emitted. -/
def emitted (d : RecordDraft) : List Instruction := d.code.toList.filterMap CodeItem.instruction?

/-- The limits on a draft's own tables. -/
structure OwnStorable (d : RecordDraft) : Prop where
  instructions : ∀ item ∈ d.code.toList, item.instruction?.isSome
  literals : ∀ text ∈ d.literals, StorableText text
  symbols : ∀ text ∈ d.symbols, StorableText text
  literalCount : d.literals.length ≤ 65535
  symbolCount : d.symbols.length ≤ 65535
  childCount : d.children.length ≤ 65535

/-- A draft that can be stored, and so can those nested in it. -/
inductive Storable : RecordDraft → Prop
  | intro {d : RecordDraft} (own : d.OwnStorable) (children : ∀ c ∈ d.children, Storable c) :
      Storable d

/-- The code of a draft, once decoded: 8-bit operands are reduced, absent ones are zero. -/
def loadedCode (d : RecordDraft) : Code where
  placed := (Code.placeFrom 0 (d.emitted.map Instruction.canonical)).toArray
  size := d.currentOffset

mutual

/-- The record that a draft describes. -/
def toRecord : RecordDraft → Record
  | ⟨registers, locals, catchHandlers, code, literals, symbols, children⟩ =>
    { localCount := locals
      registerCount := registers
      catchCount := catchHandlers
      code := loadedCode ⟨registers, locals, catchHandlers, code, literals, symbols, children⟩
      literals, symbols
      children := toRecords children }

/-- The records that drafts describe. -/
def toRecords : List RecordDraft → List Record
  | [] => []
  | d :: ds => toRecord d :: toRecords ds

end

end RecordDraft

namespace Part

/-- A part that can be stored and is loaded again: a storable record, or names of local variables,
which the loader passes over. -/
def Storable : Part → Prop
  | .record draft => draft.Storable
  | .other tag _ => tag = Format.localsSection

/-- The root record of a part, if it holds one. -/
def root? : Part → Option Record
  | .record draft => some draft.toRecord
  | .other _ _ => none

end Part

namespace RecordDraft

@[simp] theorem toRecords_eq_map (ds : List RecordDraft) : toRecords ds = ds.map toRecord := by
  induction ds with
  | nil => rfl
  | cons d ds ih => rw [toRecords, ih, List.map_cons]

theorem encodeAll_eq_flatMap (ds : List RecordDraft) : encodeAll ds = ds.flatMap encode := by
  induction ds with
  | nil => rfl
  | cons d ds ih => rw [encodeAll, ih, List.flatMap_cons]

end RecordDraft

/-! ## Tables -/

namespace Format

theorem Row.of_flatMap {α β : Type} {G : Nat → Bytes → β → Prop} {f : α → Bytes} {g : α → β}
    {xs : List α} (h : ∀ x ∈ xs, ∀ base, G base (f x) (g x)) (base : Nat) :
    Row G base (xs.flatMap f) (xs.map g) := by
  induction xs generalizing base with
  | nil => exact .nil
  | cons x xs ih =>
    rw [List.flatMap_cons, List.map_cons]
    exact .cons (h x (by simp) base) (ih (fun y hy => h y (by simp [hy])) _)

theorem toNat_ofNat16 {n : Nat} (h : n ≤ 65535) : (UInt16.ofNat n).toNat = n := by
  simp
  omega

/-- The text of a slot that holds exactly the text. -/
theorem textOfSlot_encode {text : String} (h : StorableText text) :
    Reading.textOfSlot (Utf8.encode text) = text := by
  have hall : (Utf8.encode text).takeWhile (· ≠ 0) = Utf8.encode text := by
    rw [List.takeWhile_eq_self_iff]
    intro b hb
    simpa using Utf8.ne_zero_of_mem_encode h.1 hb
  rw [Reading.textOfSlot, hall, Utf8.decode_encode]

theorem textEntry_storable {text : String} (h : StorableText text) :
    TextEntry (RecordDraft.textEntry text) text :=
  ⟨UInt16.ofNat (Utf8.encode text).length, Utf8.encode text, 0, (toNat_ofNat16 h.2).symm, rfl,
    (textOfSlot_encode h).symm⟩

theorem literalEntry_storable {text : String} (h : StorableText text) :
    LiteralEntry (stringLiteral :: RecordDraft.textEntry text) text :=
  ⟨_, rfl, textEntry_storable h⟩

/-- A table whose entries are storable and not too many. -/
theorem tableOf_storable {G : Bytes → String → Prop} {f : String → Bytes} {texts : List String}
    (hcount : texts.length ≤ 65535) (h : ∀ text ∈ texts, G (f text) text) :
    TableOf G (word16 (UInt16.ofNat texts.length) ++ texts.flatMap f) texts := by
  have hrow : Row (fun _ => G) 0 (texts.flatMap f) (texts.map id) :=
    Row.of_flatMap (fun text ht _ => h text ht) 0
  rw [List.map_id] at hrow
  exact ⟨UInt16.ofNat texts.length, texts.flatMap f, (toNat_ofNat16 hcount).symm, rfl, hrow⟩

end Format

/-! ## Code -/

namespace Instruction

theorem fits_canonical (i : Instruction) : i.canonical.Fits := by
  rw [← canonical_iff_fits]
  obtain ⟨op, a, b, c⟩ := i
  cases hshape : op.shape <;> simp only [Canonical, canonical, hshape, UInt8.toUInt8_toUInt16]

/-- What is cut off an operand was not encoded in the first place. -/
theorem encode_canonical (i : Instruction) : i.canonical.encode = i.encode := by
  obtain ⟨op, a, b, c⟩ := i
  cases hshape : op.shape <;>
    simp only [encode, operandBytes, canonical, hshape, UInt8.toUInt8_toUInt16]

end Instruction

namespace RecordDraft

/-- Code without raw bytes is the encoding of the emitted instructions. -/
theorem encodes_codeBytes {d : RecordDraft} (h : d.OwnStorable) :
    Encodes (d.emitted.map Instruction.canonical) d.codeBytes := by
  refine ⟨?_, ?_⟩
  · intro i hi
    obtain ⟨j, _, rfl⟩ := List.mem_map.mp hi
    exact j.fits_canonical
  · have hitems := h.instructions
    unfold codeBytes emitted
    generalize d.code.toList = items at hitems ⊢
    induction items with
    | nil => rfl
    | cons item items ih =>
      have ih := ih fun x hx => hitems x (by simp [hx])
      cases item with
      | instruction i =>
        rw [List.flatMap_cons, ih, List.filterMap_cons]
        simp [CodeItem.instruction?, CodeItem.encode, Instruction.encode_canonical]
      | raw bytes => simpa [CodeItem.instruction?] using hitems (.raw bytes) (by simp)

theorem loadedCode_eq {d : RecordDraft} (h : d.OwnStorable) :
    d.loadedCode = Code.ofInstructions (d.emitted.map Instruction.canonical) := by
  rw [loadedCode, Code.ofInstructions, currentOffset, ← (encodes_codeBytes h).2]

/-! ## Trees -/

theorem toRecord_eq (d : RecordDraft) :
    d.toRecord =
      { localCount := d.locals
        registerCount := d.registers
        catchCount := d.catchHandlers
        code := d.loadedCode
        literals := d.literals
        symbols := d.symbols
        children := d.children.map toRecord } := by
  obtain ⟨registers, locals, catchHandlers, code, literals, symbols, children⟩ := d
  rw [toRecord, toRecords_eq_map]

theorem encode_eq (d : RecordDraft) : d.encode = d.ownBytes ++ d.children.flatMap encode := by
  obtain ⟨registers, locals, catchHandlers, code, literals, symbols, children⟩ := d
  rw [encode, encodeAll_eq_flatMap]

/-- The size a draft declares for its own bytes. -/
def declaredSize (d : RecordDraft) : UInt32 := UInt32.ofNat (Format.recordHeaderSize - 4 + d.bodyBytes.length)

theorem length_ownBytes (d : RecordDraft) :
    d.ownBytes.length = Format.recordHeaderSize - 4 + d.bodyBytes.length := by
  simp only [ownBytes, List.length_append, BigEndian.length_word16, BigEndian.length_word32]
  rfl

theorem toNat_declaredSize {d : RecordDraft} (h : d.ownBytes.length < 2 ^ 32) :
    d.declaredSize.toNat = d.ownBytes.length := by
  rw [length_ownBytes] at h ⊢
  simp only [declaredSize, UInt32.toNat_ofNat']
  omega

theorem recordOwn_ownBytes {d : RecordDraft} (h : d.OwnStorable)
    (hsize : d.ownBytes.length < 2 ^ 32) :
    Format.RecordOwn d.ownBytes d.declaredSize d.toRecord := by
  have hcode : d.codeBytes.length < 2 ^ 32 := by
    simp only [ownBytes, bodyBytes, List.length_append] at hsize
    omega
  rw [toRecord_eq]
  refine ⟨UInt16.ofNat d.children.length, UInt32.ofNat d.codeBytes.length, _, d.codeBytes,
    d.literalBytes, d.symbolBytes, ?_, ?_, ?_, encodes_codeBytes h, loadedCode_eq h, ?_, ?_⟩
  · simp only [ownBytes, bodyBytes, declaredSize, List.append_assoc]
  · rw [List.length_map, Format.toNat_ofNat16 h.childCount]
  · rw [UInt32.toNat_ofNat']
    omega
  · exact Format.tableOf_storable h.literalCount fun text ht =>
      Format.literalEntry_storable (h.literals text ht)
  · exact Format.tableOf_storable h.symbolCount fun text ht =>
      Format.textEntry_storable (h.symbols text ht)

/-- **A tree of drafts.**  The bytes of a storable draft are the record it describes, wherever they
stand, and every declared size is right. -/
theorem recordWithin_encode {d : RecordDraft} (h : d.Storable) (hsize : d.encode.length < 2 ^ 32)
    {n : Nat} (hn : d.encode.length ≤ n) (base : Nat) :
    Format.RecordWithin n base d.encode (d.toRecord, []) := by
  induction h generalizing n base with
  | @intro d own children ih =>
    rw [encode_eq, List.length_append] at hsize hn
    have hown := recordOwn_ownBytes own (by omega)
    -- A record's own bytes are not empty, so there is a level left for the children.
    have hpos := hown.length
    obtain ⟨n, rfl⟩ : ∃ k, n = k + 1 := ⟨n - 1, by omega⟩
    rw [encode_eq]
    refine ⟨d.ownBytes, d.children.flatMap encode, d.declaredSize,
      d.children.map fun c => (c.toRecord, []), rfl, hown, ?_, ?_, ?_⟩
    · refine Format.Row.of_flatMap (fun c hc base' => ?_) _
      have hle : c.encode.length ≤ (d.children.flatMap encode).length :=
        (List.sublist_flatten_of_mem (List.mem_map_of_mem hc)).length_le
      exact ih c hc (by omega) (by omega) base'
    · rw [toRecord_eq, List.map_map]
      rfl
    · rw [toNat_declaredSize (by omega)]
      simp [Reading.noteUnless]

end RecordDraft

/-! ## Images -/

theorem Part.length_encode_record (draft : RecordDraft) :
    (Part.encode (.record draft)).length = 12 + draft.encode.length := by
  simp only [Part.encode, List.length_append, BigEndian.length_word32]
  rw [show Format.recordSection.length = 4 from rfl, show recordFormat.length = 4 from rfl]
  omega

namespace ImageDraft

open Format (SectionsAt endSection localsSection recordSection)

theorem sectionsAt_end (base : Nat) (closed : Bool) :
    SectionsAt base (if closed then endBytes else []) [] [] := by
  cases closed with
  | false => exact .done
  | true =>
    have h : SectionsAt base (endSection ++ word32 (UInt32.ofNat Format.sectionHeaderSize) ++ []) [] [] :=
      .stop _ _
    rwa [List.append_nil] at h

/-- A storable record in front of sections. -/
theorem sectionsAt_record {draft : RecordDraft} (h : draft.Storable)
    (hsize : (Part.encode (.record draft)).length < 2 ^ 32) {base : Nat} {rest : Bytes}
    {roots : List Record} (hrest : ∀ base', SectionsAt base' rest roots []) :
    SectionsAt base (Part.encode (.record draft) ++ rest) (draft.toRecord :: roots) [] := by
  rw [Part.length_encode_record] at hsize
  have hroot := RecordDraft.recordWithin_encode h (by omega) (Nat.le_refl _) (base + 12)
  -- A record section counts its header into its size.
  have hdeclared : (UInt32.ofNat (Format.sectionHeaderSize +
      (Part.recordFormat ++ draft.encode).length)).toNat = 12 + draft.encode.length := by
    rw [UInt32.toNat_ofNat', List.length_append, show Format.sectionHeaderSize = 8 from rfl,
      show Part.recordFormat.length = 4 from rfl]
    omega
  have hsection : SectionsAt base (recordSection ++
      word32 (UInt32.ofNat (Format.sectionHeaderSize + (Part.recordFormat ++ draft.encode).length)) ++
      (Part.recordFormat ++ (draft.encode ++ rest))) (draft.toRecord :: roots) _ :=
    .record rfl hroot (hrest _)
  rw [hdeclared] at hsection
  simpa only [Part.encode, List.append_assoc, Reading.noteUnless, if_true, List.append_nil] using
    hsection

/-- Names of local variables in front of sections. -/
theorem sectionsAt_locals {payload : Bytes} (hsize : payload.length < 2 ^ 32) {base : Nat}
    {rest : Bytes} {roots : List Record} {notes : List Discrepancy}
    (hrest : SectionsAt (base + 8 + payload.length) rest roots notes) :
    SectionsAt base (Part.encode (.other localsSection payload) ++ rest) roots notes := by
  -- This size is that of the payload alone.
  have hdeclared : payload.length = (UInt32.ofNat payload.length).toNat := by
    rw [UInt32.toNat_ofNat']
    omega
  have hsection : SectionsAt base
      (localsSection ++ word32 (UInt32.ofNat payload.length) ++ (payload ++ rest)) roots notes :=
    .locals hdeclared hrest
  simpa only [Part.encode, List.append_assoc] using hsection

/-- Storable parts are sections, and nothing is to be noted about them.  They may be followed by
anything that holds no records. -/
theorem sectionsAt_parts {parts : List Part} (h : ∀ p ∈ parts, p.Storable)
    (hsize : (parts.flatMap Part.encode).length < 2 ^ 32) {tail : Bytes}
    (htail : ∀ base, SectionsAt base tail [] []) (base : Nat) :
    SectionsAt base (parts.flatMap Part.encode ++ tail) (parts.filterMap Part.root?) [] := by
  induction parts generalizing base with
  | nil => exact htail base
  | cons p parts ih =>
    rw [List.flatMap_cons, List.length_append] at hsize
    have hrest := ih (fun q hq => h q (by simp [hq])) (by omega)
    have hp := h p (by simp)
    rw [List.flatMap_cons, List.append_assoc]
    cases p with
    | record draft =>
      exact sectionsAt_record hp (by omega) hrest
    | other tag payload =>
      obtain rfl : tag = localsSection := hp
      refine sectionsAt_locals ?_ (hrest _)
      simp only [Part.encode, List.length_append] at hsize
      omega

/-- The image that a draft describes: the fixed header, and the records of its parts. -/
def toImage (d : ImageDraft) : Image where
  major := 0x3033
  minor := 0x3030
  totalSize := UInt32.ofNat (Format.headerSize + d.bodyBytes.length)
  compiler := compiler.take 4
  compilerVersion := compiler.drop 4
  records := d.parts.filterMap Part.root?
  diagnostics := []

theorem length_toBytes (d : ImageDraft) :
    d.toBytes.length = Format.headerSize + d.bodyBytes.length := by
  simp only [toBytes, List.length_append, BigEndian.length_word32]
  rfl

theorem toNat_totalSize {d : ImageDraft} (hsize : d.toBytes.length < 2 ^ 32) :
    d.toImage.totalSize.toNat = d.toBytes.length := by
  rw [toImage, UInt32.toNat_ofNat', ← length_toBytes]
  omega

/-- An assembled image is in the format. -/
theorem imageOf_toBytes {d : ImageDraft} (hparts : ∀ p ∈ d.parts, p.Storable)
    (hsize : d.toBytes.length < 2 ^ 32) : Format.ImageOf d.toBytes d.toImage := by
  have hbody : (d.parts.flatMap Part.encode).length < 2 ^ 32 := by
    rw [length_toBytes, bodyBytes, List.length_append] at hsize
    omega
  have hversion : version = word16 0x3033 ++ word16 0x3030 := by decide
  refine ⟨d.bodyBytes, [], ?_, rfl, rfl, sectionsAt_parts hparts hbody (sectionsAt_end · d.closed) _,
    ?_⟩
  · simp only [toBytes, hversion, toImage, List.append_assoc]
    rfl
  · rw [toNat_totalSize hsize, Reading.noteUnless, if_pos rfl]
    rfl

end ImageDraft

/-- **Image round trip.**  Whatever storable records and names of local variables an image is
assembled from, and whether or not it is closed by an end section: it is loaded without a discrepancy,
its total size is its length, and its records are those that the drafts describe, in order. -/
theorem image_round_trip (d : ImageDraft) (hparts : ∀ p ∈ d.parts, p.Storable)
    (hsize : d.toBytes.length < 2 ^ 32) :
    ∃ image, Image.ofBytes d.toBytes = .ok image ∧ image.diagnostics = [] ∧
      image.totalSize.toNat = d.toBytes.length ∧ image.records = d.parts.filterMap Part.root? := by
  refine ⟨d.toImage, ?_, rfl, ImageDraft.toNat_totalSize hsize, rfl⟩
  exact (Image.ofBytes_eq_ok_iff _ _).mpr (ImageDraft.imageOf_toBytes hparts hsize)

/-- A script with a nested body, oversized operands, a text of two bytes and names of local variables
behind it; no end section. -/
def nestedDraft : ImageDraft where
  parts :=
    [.record
      { registers := 3, locals := 1, catchHandlers := 1
        code := #[.instruction { op := .loadInt, a := 257, b := 300, c := 9 },
          .instruction { op := .jump, a := 65535 }]
        literals := ["é"], symbols := ["puts"]
        children := [{ registers := 2, code := #[.instruction { op := .stop, a := 7 }] }, {}] },
      .other Format.localsSection [1, 2, 3]]
  closed := false

theorem image_round_trip_nestedDraft :
    (∀ p ∈ nestedDraft.parts, p.Storable) ∧ nestedDraft.toBytes.length < 2 ^ 32 ∧
      ∃ image, Image.ofBytes nestedDraft.toBytes = .ok image ∧ image.diagnostics = [] ∧
        image.totalSize.toNat = nestedDraft.toBytes.length ∧
        image.records = nestedDraft.parts.filterMap Part.root? := by
  have hleaf : ∀ d : RecordDraft, d.OwnStorable → d.children = [] → d.Storable := by
    intro d hown hnone
    refine .intro hown fun c hc => ?_
    rw [hnone] at hc
    cases hc
  have hparts : ∀ p ∈ nestedDraft.parts, p.Storable := by
    intro p hp
    simp only [nestedDraft, List.mem_cons, List.not_mem_nil, or_false] at hp
    rcases hp with rfl | rfl
    · refine .intro ⟨by decide, by decide, by decide, by decide, by decide, by decide⟩ ?_
      intro c hc
      simp only [List.mem_cons, List.not_mem_nil, or_false] at hc
      rcases hc with rfl | rfl
      · exact hleaf _ ⟨by decide, by decide, by decide, by decide, by decide, by decide⟩ rfl
      · exact hleaf _ ⟨by decide, by decide, by decide, by decide, by decide, by decide⟩ rfl
    · rfl
  have hsize : nestedDraft.toBytes.length < 2 ^ 32 := by decide +kernel
  exact ⟨hparts, hsize, image_round_trip nestedDraft hparts hsize⟩

end Rite

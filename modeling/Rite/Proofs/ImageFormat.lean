import Mathlib.Tactic.SplitIfs
import Rite.Proofs.CodeCodec
import Rite.Proofs.Headers

/-!
# The image format

Which byte strings are images, and which image each of them is.  The format is given by predicates on
byte strings, without a cursor and without a reader: an entry of a table, a record's own bytes, a tree
of records, the sections, the image.  `Image.ofBytes_eq_ok_iff` says that the loader accepts exactly
these strings.

Two things make the predicates more than a list of concatenations.  Declared sizes are *not* part of
the condition: any word may stand in their place, and what is noted about it is the business of the
predicate.  And a record is followed by its children, so the offset at which a child starts depends on
everything before it.
-/

namespace Rite

variable {α : Type}

namespace BigEndian

/-- Two bytes are a 16-bit word. -/
theorem exists_word16 {b : Bytes} (h : b.length = 2) : ∃ w, b = word16 w := by
  obtain ⟨hi, lo, rfl⟩ := List.length_eq_two.mp h
  exact ⟨_, (word16_ofNat_toNat hi lo).symm⟩

/-- Four bytes are a 32-bit word. -/
theorem exists_word32 {b : Bytes} (h : b.length = 4) : ∃ w, b = word32 w := by
  obtain ⟨b₁, b₂, b₃, b₄, rfl⟩ : ∃ b₁ b₂ b₃ b₄, b = [b₁, b₂, b₃, b₄] := by
    match b, h with
    | [b₁, b₂, b₃, b₄], _ => exact ⟨b₁, b₂, b₃, b₄, rfl⟩
  have h₁ := b₁.toNat_lt
  have h₂ := b₂.toNat_lt
  have h₃ := b₃.toNat_lt
  have h₄ := b₄.toNat_lt
  refine ⟨UInt32.ofNat (toNat [b₁, b₂, b₃, b₄]), ?_⟩
  simp [toNat, word32, ← UInt8.toNat_inj, Nat.shiftRight_eq_div_pow]
  omega

/-- A byte string of known length is cut in two. -/
theorem exists_split {b : Bytes} (n k : Nat) (h : b.length = n + k) :
    ∃ b₁ b₂, b = b₁ ++ b₂ ∧ b₁.length = n ∧ b₂.length = k :=
  ⟨b.take n, b.drop n, (List.take_append_drop n b).symm, by simp [h], by simp [h]⟩

end BigEndian

namespace Format

open BigEndian (word16 word32)

/-! ## Tables -/

/-- A text behind its length, with one byte after it that nobody looks at. -/
def TextEntry (b : Bytes) (text : String) : Prop :=
  ∃ (size : UInt16) (slot : Bytes) (last : UInt8), slot.length = size.toNat ∧
    b = word16 size ++ slot ++ [last] ∧ text = Reading.textOfSlot slot

/-- A string literal: its kind, and the text. -/
def LiteralEntry (b : Bytes) (text : String) : Prop :=
  ∃ entry, b = stringLiteral :: entry ∧ TextEntry entry text

/-- Items one behind the other, the first at offset `base`. -/
inductive Row (G : Nat → Bytes → α → Prop) : Nat → Bytes → List α → Prop
  | nil {base : Nat} : Row G base [] []
  | cons {base : Nat} {b bs : Bytes} {x : α} {xs : List α} :
      G base b x → Row G (base + b.length) bs xs → Row G base (b ++ bs) (x :: xs)

/-- A counted table. -/
def TableOf (G : Bytes → String → Prop) (b : Bytes) (texts : List String) : Prop :=
  ∃ (count : UInt16) (entries : Bytes), texts.length = count.toNat ∧ b = word16 count ++ entries ∧
    Row (fun _ => G) 0 entries texts

/-- A row of items that do not care where they stand can stand anywhere. -/
theorem Row.move {G : Bytes → α → Prop} {base : Nat} {b : Bytes} {xs : List α}
    (h : Row (fun _ => G) base b xs) (base' : Nat) : Row (fun _ => G) base' b xs := by
  induction h generalizing base' with
  | nil => exact .nil
  | cons hx _ ih => exact .cons hx (ih _)

theorem Row.imp {G H : Nat → Bytes → α → Prop} {base : Nat} {b : Bytes} {xs : List α}
    (h : Row G base b xs) (himp : ∀ base' b' x, b'.length ≤ b.length → G base' b' x → H base' b' x) :
    Row H base b xs := by
  induction h with
  | nil => exact .nil
  | cons hx _ ih =>
    refine .cons (himp _ _ _ (by simp) hx) (ih fun base' b' x hlen => himp base' b' x ?_)
    rw [List.length_append]
    omega

end Format

namespace Reading

open Format BigEndian

theorem reads_text (n : Nat) : Reads (text n) (fun _ b s => b.length = n ∧ s = textOfSlot b) := by
  refine ((reads_take n).bind fun _ => reads_pure _).congr fun base b s => ?_
  constructor
  · rintro ⟨_, _, _, rfl, ⟨rfl, rfl⟩, rfl, rfl⟩
    simp
  · rintro ⟨rfl, rfl⟩
    exact ⟨b, [], b, by simp, ⟨rfl, rfl⟩, rfl, rfl⟩

theorem reads_skip (n : Nat) : Reads (skip n) (fun _ b _ => b.length = n) := by
  refine ((reads_take n).bind fun _ => reads_pure _).congr fun base b s => ?_
  constructor
  · rintro ⟨_, _, _, rfl, ⟨rfl, rfl⟩, rfl, _⟩
    simp
  · rintro rfl
    exact ⟨b, [], b, by simp, ⟨rfl, rfl⟩, rfl, rfl⟩

theorem Reads.times {item : Reading α} {G : Nat → Bytes → α → Prop} (h : Reads item G) (n : Nat) :
    Reads (times n item) (fun base b xs => xs.length = n ∧ Row G base b xs) := by
  induction n with
  | zero =>
    refine (reads_pure _).congr fun base b xs => ?_
    constructor
    · rintro ⟨rfl, rfl⟩
      exact ⟨rfl, .nil⟩
    · rintro ⟨hlen, hrow⟩
      cases hrow with
      | nil => exact ⟨rfl, rfl⟩
      | cons _ _ => cases hlen
  | succ n ih =>
    refine (h.bind fun _ => ih.bind fun _ => reads_pure _).congr fun base b xs => ?_
    constructor
    · rintro ⟨b₁, _, x, rfl, hx, b₂, _, xs, rfl, ⟨rfl, hrow⟩, rfl, rfl⟩
      rw [List.append_nil]
      exact ⟨rfl, .cons hx hrow⟩
    · rintro ⟨hlen, hrow⟩
      cases hrow with
      | nil => cases hlen
      | @cons _ b bs x xs hx hxs =>
        exact ⟨b, bs, x, rfl, hx, bs, [], xs, by simp, ⟨Nat.succ.inj hlen, hxs⟩, rfl, rfl⟩

/-- The rest of a text entry whose length has been read. -/
theorem reads_textBody (size : UInt16) :
    Reads (do let s ← text size.toNat; skip 1; return s)
      (fun _ b s => ∃ slot last, slot.length = size.toNat ∧ b = slot ++ [last] ∧
        s = textOfSlot slot) := by
  refine ((reads_text size.toNat).bind fun _ => (reads_skip 1).bind fun _ => reads_pure _).congr
    fun base b s => ?_
  constructor
  · rintro ⟨slot, _, _, rfl, ⟨hslot, rfl⟩, _, _, _, rfl, hlast, rfl, rfl⟩
    obtain ⟨last, rfl⟩ := List.length_eq_one_iff.mp hlast
    exact ⟨slot, last, hslot, by simp, rfl⟩
  · rintro ⟨slot, last, hslot, rfl, rfl⟩
    exact ⟨slot, [last], _, rfl, ⟨hslot, rfl⟩, [last], [], (), rfl, rfl, rfl, rfl⟩

theorem reads_symbol : Reads symbol (fun _ => TextEntry) := by
  refine (reads_u16.bind fun size => reads_textBody size).congr fun base b s => ?_
  constructor
  · rintro ⟨_, _, size, rfl, rfl, slot, last, hslot, rfl, rfl⟩
    exact ⟨size, slot, last, hslot, by simp, rfl⟩
  · rintro ⟨size, slot, last, hslot, rfl, rfl⟩
    exact ⟨word16 size, slot ++ [last], size, List.append_assoc _ _ _, rfl, slot, last, hslot, rfl, rfl⟩

theorem reads_literal : Reads literal (fun _ => LiteralEntry) := by
  refine (reads_offset.bind fun start => reads_u8.bind fun kind => reads_u16.bind fun size =>
    (reads_textBody size).unless _ _).congr fun base b s => ?_
  constructor
  · rintro ⟨_, _, start, rfl, ⟨rfl, rfl⟩, _, _, kind, rfl, rfl, _, _, size, rfl, rfl, hkind, slot,
      last, hslot, rfl, rfl⟩
    rw [not_not] at hkind
    subst hkind
    exact ⟨_, rfl, size, slot, last, hslot, by simp, rfl⟩
  · rintro ⟨_, rfl, size, slot, last, hslot, rfl, rfl⟩
    exact ⟨[], _, base, rfl, ⟨rfl, rfl⟩, [stringLiteral], word16 size ++ slot ++ [last],
      stringLiteral, rfl, rfl, word16 size, slot ++ [last], size, List.append_assoc _ _ _, rfl,
      not_not.mpr rfl, slot, last, hslot, rfl, rfl⟩

/-- A counted table of entries that do not care where they stand. -/
theorem Reads.table {item : Reading String} {G : Bytes → String → Prop}
    (h : Reads item (fun _ => G)) :
    Reads (u16 >>= fun count => Reading.times count.toNat item) (fun _ => TableOf G) := by
  refine (reads_u16.bind fun count => h.times count.toNat).congr fun base b texts => ?_
  constructor
  · rintro ⟨_, entries, count, rfl, rfl, hcount, hrow⟩
    exact ⟨count, entries, hcount, rfl, hrow.move 0⟩
  · rintro ⟨count, entries, hcount, rfl, hrow⟩
    exact ⟨word16 count, entries, count, rfl, rfl, hcount, hrow.move _⟩

theorem reads_literalPool : Reads literalPool (fun _ => TableOf LiteralEntry) := reads_literal.table

theorem reads_symbolTable : Reads symbolTable (fun _ => TableOf TextEntry) := reads_symbol.table

/-- The six numbers at the start of a record. -/
theorem reads_recordHead : Reads recordHead (fun _ b head =>
    ∃ (declared : UInt32) (locals registers children catches : UInt16) (codeSize : UInt32),
      b = word32 declared ++ word16 locals ++ word16 registers ++ word16 children ++
        word16 catches ++ word32 codeSize ∧
      head = ⟨declared.toNat, locals, registers, children.toNat, catches, codeSize.toNat⟩) := by
  rw [recordHead_eq]
  refine ((reads_take recordHeaderSize).bind fun window => reads_pure _).congr fun base b head => ?_
  have hfields : ∀ (declared : UInt32) (locals registers children catches : UInt16)
      (codeSize : UInt32), (⟨declared.toNat, locals, registers, children.toNat, catches,
        codeSize.toNat⟩ : RecordHead) =
      let window := word32 declared ++ word16 locals ++ word16 registers ++ word16 children ++
        word16 catches ++ word32 codeSize
      { declared := slice window 0 4
        localCount := UInt16.ofNat (slice window 4 2)
        registerCount := UInt16.ofNat (slice window 6 2)
        childCount := slice window 8 2
        catchCount := UInt16.ofNat (slice window 10 2)
        codeSize := slice window 12 4 } := by
    intro declared locals registers children catches codeSize
    have hword : ∀ w : UInt16, w = UInt16.ofNat (toNat (word16 w)) := by simp
    simp only [RecordHead.mk.injEq]
    exact ⟨(toNat_word32 declared).symm, hword locals, hword registers,
      (toNat_word16 children).symm, hword catches, (toNat_word32 codeSize).symm⟩
  constructor
  · rintro ⟨b, _, _, rfl, ⟨hlen, rfl⟩, rfl, rfl⟩
    obtain ⟨w₁, b, rfl, h₁, hlen⟩ := exists_split 4 12 hlen
    obtain ⟨w₂, b, rfl, h₂, hlen⟩ := exists_split 2 10 hlen
    obtain ⟨w₃, b, rfl, h₃, hlen⟩ := exists_split 2 8 hlen
    obtain ⟨w₄, b, rfl, h₄, hlen⟩ := exists_split 2 6 hlen
    obtain ⟨w₅, w₆, rfl, h₅, h₆⟩ := exists_split 2 4 hlen
    obtain ⟨declared, rfl⟩ := exists_word32 h₁
    obtain ⟨locals, rfl⟩ := exists_word16 h₂
    obtain ⟨registers, rfl⟩ := exists_word16 h₃
    obtain ⟨children, rfl⟩ := exists_word16 h₄
    obtain ⟨catches, rfl⟩ := exists_word16 h₅
    obtain ⟨codeSize, rfl⟩ := exists_word32 h₆
    exact ⟨declared, locals, registers, children, catches, codeSize, rfl, (hfields ..).symm⟩
  · rintro ⟨declared, locals, registers, children, catches, codeSize, rfl, rfl⟩
    exact ⟨_, [], _, (List.append_nil _).symm, ⟨rfl, rfl⟩, rfl, hfields ..⟩

end Reading

/-! ## Trees of records -/

namespace Format

open BigEndian (word16 word32)

/-- The bytes of a record without its children.  The words for the number of children and for the
size of the code must be right; `declared`, the size of these bytes, need not be. -/
def RecordOwn (own : Bytes) (declared : UInt32) (r : Record) : Prop :=
  ∃ (childCount : UInt16) (codeSize : UInt32) (is : List Instruction) (code pool table : Bytes),
    own = word32 declared ++ word16 r.localCount ++ word16 r.registerCount ++ word16 childCount ++
      word16 r.catchCount ++ word32 codeSize ++ code ++ pool ++ table ∧
    r.children.length = childCount.toNat ∧ code.length = codeSize.toNat ∧
    Encodes is code ∧ r.code = Code.ofInstructions is ∧
    TableOf LiteralEntry pool r.literals ∧ TableOf TextEntry table r.symbols

/-- A tree of records nested at most `depth` deep, stored at offset `base`, and what is to be noted
about the sizes it declares: a record's own first, then those of its children. -/
def RecordWithin : Nat → Nat → Bytes → Record × List Discrepancy → Prop
  | 0, _, _, _ => False
  | depth + 1, base, b, (r, notes) =>
    ∃ (own inner : Bytes) (declared : UInt32) (kids : List (Record × List Discrepancy)),
      b = own ++ inner ∧ RecordOwn own declared r ∧
      Row (RecordWithin depth) (base + own.length) inner kids ∧ r.children = kids.map (·.1) ∧
      notes = Reading.noteUnless declared.toNat own.length
        (.recordSize base declared.toNat own.length) ++ (kids.map (·.2)).flatten

theorem TableOf.length {G : Bytes → String → Prop} {b : Bytes} {texts : List String}
    (h : TableOf G b texts) : 2 ≤ b.length := by
  obtain ⟨count, entries, _, rfl, _⟩ := h
  simp

/-- A record takes at least twenty bytes before its first child. -/
theorem RecordOwn.length {own : Bytes} {declared : UInt32} {r : Record}
    (h : RecordOwn own declared r) : 20 ≤ own.length := by
  obtain ⟨childCount, codeSize, is, code, pool, table, rfl, _, _, _, _, hpool, htable⟩ := h
  have := hpool.length
  have := htable.length
  simp only [List.length_append, BigEndian.length_word16, BigEndian.length_word32]
  omega

/-- A tree is nested no deeper than it has bytes, so the bound on the depth can be taken from them. -/
theorem RecordWithin.of_length {depth base n : Nat} {b : Bytes} {x : Record × List Discrepancy}
    (h : RecordWithin depth base b x) (hlen : b.length ≤ n) : RecordWithin n base b x := by
  induction depth generalizing base n b x with
  | zero => exact h.elim
  | succ depth ih =>
    obtain ⟨r, notes⟩ := x
    obtain ⟨own, inner, declared, kids, rfl, hown, hrow, hkids, hnotes⟩ := h
    have hsize := hown.length
    rw [List.length_append] at hlen
    obtain ⟨n, rfl⟩ : ∃ k, n = k + 1 := ⟨n - 1, by omega⟩
    refine ⟨own, inner, declared, kids, rfl, hown, hrow.imp ?_, hkids, hnotes⟩
    intro base' b' x' hle hx
    -- A child lies within `inner`, which is shorter than `own ++ inner` by at least twenty bytes.
    exact ih hx (by omega)

end Format

namespace Reading

open Format BigEndian

theorem reads_recordWithin (depth : Nat) : Reads (recordWithin depth) (RecordWithin depth) := by
  induction depth with
  | zero =>
    intro base input x c'
    constructor
    · intro h
      cases h
    · rintro ⟨_, _, _, _, h⟩
      exact h.elim
  | succ depth ih =>
    refine (reads_offset.bind fun start => reads_recordHead.bind fun head =>
      (reads_code head.codeSize).bind fun code => reads_literalPool.bind fun literals =>
      reads_symbolTable.bind fun symbols => reads_offset.bind fun stop =>
      (ih.times head.childCount).bind fun kids => reads_pure _).congr fun base b x => ?_
    constructor
    · -- One step of the reader at a time, in the order in which it takes the bytes.
      rintro ⟨_, _, start, rfl, ⟨rfl, rfl⟩, _, _, head, rfl, hhead, hrest⟩
      obtain ⟨declared, locals, registers, children, catches, codeSize, rfl, rfl⟩ := hhead
      obtain ⟨code, _, _, rfl, ⟨hcode, is, his, rfl⟩, hrest⟩ := hrest
      obtain ⟨pool, _, literals, rfl, hpool, hrest⟩ := hrest
      obtain ⟨table, _, symbols, rfl, htable, hrest⟩ := hrest
      obtain ⟨_, _, stop, rfl, ⟨rfl, rfl⟩, hrest⟩ := hrest
      obtain ⟨inner, _, kids, rfl, ⟨hkids, hrow⟩, rfl, rfl⟩ := hrest
      refine ⟨word32 declared ++ word16 locals ++ word16 registers ++ word16 children ++
        word16 catches ++ word32 codeSize ++ code ++ pool ++ table, inner, declared, kids, ?_,
        ⟨children, codeSize, is, code, pool, table, rfl, ?_, hcode, his, rfl, hpool, htable⟩,
        ?_, rfl, ?_⟩
      · simp only [List.append_assoc, List.nil_append, List.append_nil]
      · rw [List.length_map, hkids]
      · simpa only [List.length_append, List.length_nil, Nat.add_zero, Nat.add_assoc] using hrow
      · simp only [List.length_append, List.length_nil, Nat.add_zero, Nat.add_assoc,
          Nat.add_sub_cancel_left]
    · obtain ⟨⟨locals, registers, catches, code, literals, symbols, children⟩, notes⟩ := x
      rintro ⟨_, inner, declared, kids, rfl, ⟨childCount, codeSize, is, code, pool, table, rfl,
        hchildren, hcode, his, rfl, hpool, htable⟩, hrow, rfl, rfl⟩
      refine ⟨[], _, base, (List.nil_append _).symm, ⟨rfl, rfl⟩, word32 declared ++ word16 locals ++
        word16 registers ++ word16 childCount ++ word16 catches ++ word32 codeSize,
        code ++ (pool ++ (table ++ inner)), _,
        ?_, ⟨declared, locals, registers, childCount, catches, codeSize, rfl, rfl⟩,
        code, pool ++ (table ++ inner), _, rfl, ⟨hcode, is, his, rfl⟩,
        pool, table ++ inner, literals, rfl, hpool, table, inner, symbols, rfl, htable,
        [], inner, _, rfl, ⟨rfl, rfl⟩, inner, [], kids, by simp, ⟨?_, ?_⟩, rfl, ?_⟩
      · simp only [List.append_assoc]
      · rw [← hchildren, List.length_map]
      · simpa only [List.length_append, List.length_nil, Nat.add_zero, Nat.add_assoc] using hrow
      · simp only [List.length_append, List.length_nil, Nat.add_zero, Nat.add_assoc,
          Nat.add_sub_cancel_left]

theorem reads_record : Reads record (fun base b x => ∃ depth, RecordWithin depth base b x) := by
  intro base input x c'
  change recordWithin input.length ⟨base, input⟩ = .ok x c' ↔ _
  rw [reads_recordWithin input.length base input x c']
  constructor
  · rintro ⟨b, rest, hinput, hc, hb⟩
    exact ⟨b, rest, hinput, hc, input.length, hb⟩
  · rintro ⟨b, rest, rfl, hc, depth, hb⟩
    exact ⟨b, rest, rfl, hc, hb.of_length (by simp)⟩

end Reading

/-! ## Sections -/

namespace Format

open BigEndian (word32)

/-- The sections from offset `base` to the end of the input: the records they hold, and what is to be
noted about the sizes they declare.  Behind an end section anything may stand. -/
inductive SectionsAt : Nat → Bytes → List Record → List Discrepancy → Prop
  | done {base : Nat} : SectionsAt base [] [] []
  | stop {base : Nat} (declared : UInt32) (rest : Bytes) :
      SectionsAt base (endSection ++ word32 declared ++ rest) [] []
  | locals {base : Nat} {declared : UInt32} {payload rest : Bytes} {roots : List Record}
      {notes : List Discrepancy} (hsize : payload.length = declared.toNat)
      (hrest : SectionsAt (base + 8 + payload.length) rest roots notes) :
      SectionsAt base (localsSection ++ word32 declared ++ (payload ++ rest)) roots notes
  | record {base depth : Nat} {declared : UInt32} {format b rest : Bytes} {root : Record}
      {roots : List Record} {inner outer : List Discrepancy} (hformat : format.length = 4)
      (hroot : RecordWithin depth (base + 12) b (root, inner))
      (hrest : SectionsAt (base + 12 + b.length) rest roots outer) :
      SectionsAt base (recordSection ++ word32 declared ++ (format ++ (b ++ rest))) (root :: roots)
        (inner ++ Reading.noteUnless declared.toNat (12 + b.length)
          (.sectionSize base declared.toNat (12 + b.length)) ++ outer)

end Format

namespace Reading

open Format BigEndian

/-- The tag and the number at the start of a section. -/
theorem reads_sectionHead : Reads sectionHead (fun _ b head =>
    ∃ (name : Bytes) (declared : UInt32), name.length = 4 ∧ b = name ++ word32 declared ∧
      head = ⟨name, declared.toNat⟩) := by
  rw [sectionHead_eq]
  refine ((reads_take sectionHeaderSize).bind fun window => reads_pure _).congr fun base b head => ?_
  have hfields : ∀ (name : Bytes) (declared : UInt32), name.length = 4 →
      (⟨name, declared.toNat⟩ : SectionHead) =
        { name := (name ++ word32 declared).take 4
          declared := slice (name ++ word32 declared) 4 4 } := by
    intro name declared hname
    rw [slice, ← hname, List.take_left, List.drop_left, hname, ← length_word32 declared,
      List.take_length, toNat_word32]
  constructor
  · rintro ⟨b, _, _, rfl, ⟨hlen, rfl⟩, rfl, rfl⟩
    obtain ⟨name, size, rfl, hname, hsize⟩ := exists_split 4 4 hlen
    obtain ⟨declared, rfl⟩ := exists_word32 hsize
    exact ⟨name, declared, hname, List.append_nil _, (hfields name declared hname).symm⟩
  · rintro ⟨name, declared, hname, rfl, rfl⟩
    have hlen : (name ++ word32 declared).length = sectionHeaderSize := by
      rw [List.length_append, hname, length_word32]
      rfl
    exact ⟨_, [], _, (List.append_nil _).symm, ⟨hlen, rfl⟩, rfl, hfields name declared hname⟩

/-- A section header is taken apart before anything else happens. -/
theorem sectionsWithin_header (rounds base : Nat) {name : Bytes} (hname : name.length = 4)
    (declared : UInt32) (rest : Bytes) :
    sectionsWithin (rounds + 1) ⟨base, name ++ word32 declared ++ rest⟩ =
      (if name = recordSection then do
        discard tag
        let x ← record
        let stop ← offset
        let y ← sectionsWithin rounds
        return (x.1 :: y.1, x.2 ++ noteUnless declared.toNat (stop - base)
          (.sectionSize base declared.toNat (stop - base)) ++ y.2)
      else if name = localsSection then do
        skip declared.toNat
        sectionsWithin rounds
      else if name = debugSection then throw (.unsupportedSection base name)
      else if name = endSection then return ([], [])
      else throw (.unknownSection base name) : Reading (List Record × List Discrepancy))
        ⟨base + 8, rest⟩ := by
  have hend : atEnd ⟨base, name ++ word32 declared ++ rest⟩ =
      .ok false ⟨base, name ++ word32 declared ++ rest⟩ := by
    change EStateM.Result.ok _ _ = _
    simp [Cursor.atEnd, word32]
  have hhead : sectionHead ⟨base, name ++ word32 declared ++ rest⟩ =
      .ok ⟨name, declared.toNat⟩ ⟨base + 8, rest⟩ := by
    have hlen : (name ++ word32 declared).length = 8 := by simp [hname]
    rw [← hlen]
    exact reads_sectionHead.accepts ⟨name, declared, hname, rfl, rfl⟩ rest
  rw [sectionsWithin, bind_of_ok hend, if_neg Bool.false_ne_true, bind_of_ok (offset_eq _),
    bind_of_ok hhead]

/-- Where nothing is left there are no more sections. -/
theorem nil_sections_iff (rounds base : Nat) (roots : List Record) (notes : List Discrepancy) :
    (∃ c', sectionsWithin rounds ⟨base, []⟩ = .ok (roots, notes) c') ↔
      SectionsAt base [] roots notes := by
  have hdone : sectionsWithin rounds ⟨base, []⟩ = .ok ([], []) ⟨base, []⟩ := by
    cases rounds <;> rfl
  constructor
  · rintro ⟨c', h⟩
    obtain ⟨hresult, _⟩ := EStateM.Result.ok.inj (hdone.symm.trans h)
    obtain ⟨rfl, rfl⟩ := Prod.mk.inj hresult
    exact .done
  · intro h
    generalize hb : ([] : Bytes) = b at h
    cases h with
    | done => exact ⟨_, hb ▸ hdone⟩
    | stop | locals | record => simp [endSection, localsSection, recordSection] at hb

/-- Where something is left, a section header is needed. -/
theorem exists_header_of_sectionsWithin {rounds base : Nat} {input : Bytes}
    {x : List Record × List Discrepancy} {c' : Cursor} (hne : input ≠ [])
    (h : sectionsWithin (rounds + 1) ⟨base, input⟩ = .ok x c') :
    ∃ name declared rest, name.length = 4 ∧ input = name ++ word32 declared ++ rest := by
  have hend : atEnd ⟨base, input⟩ = .ok false ⟨base, input⟩ := by
    change EStateM.Result.ok _ _ = _
    simp [Cursor.atEnd, hne]
  rw [sectionsWithin, bind_of_ok hend, if_neg Bool.false_ne_true, bind_of_ok (offset_eq _),
    bind_eq_ok_iff] at h
  obtain ⟨head, c₁, hhead, _⟩ := h
  obtain ⟨_, rest, rfl, _, name, declared, hname, rfl, _⟩ := (reads_sectionHead _ _ _ _).mp hhead
  exact ⟨name, declared, rest, hname, rfl⟩

/-- A record section: format tag, tree and the sections behind it. -/
theorem recordSection_eq_ok_iff (base declared : Nat) (rounds : Nat) (rest : Bytes)
    (roots : List Record) (notes : List Discrepancy) (c' : Cursor) :
    (do
      discard tag
      let x ← record
      let stop ← offset
      let y ← sectionsWithin rounds
      return (x.1 :: y.1, x.2 ++ noteUnless declared (stop - base)
        (.sectionSize base declared (stop - base)) ++ y.2) :
      Reading (List Record × List Discrepancy)) ⟨base + 8, rest⟩ = .ok (roots, notes) c' ↔
    ∃ format b rest' depth root inner roots' outer, rest = format ++ (b ++ rest') ∧
      format.length = 4 ∧ RecordWithin depth (base + 12) b (root, inner) ∧
      sectionsWithin rounds ⟨base + 12 + b.length, rest'⟩ = .ok (roots', outer) c' ∧
      roots = root :: roots' ∧
      notes = inner ++ noteUnless declared (12 + b.length)
        (.sectionSize base declared (12 + b.length)) ++ outer := by
  constructor
  · intro h
    obtain ⟨_, c₁, htag, h⟩ := (bind_eq_ok_iff _ _ _ _ _).mp h
    obtain ⟨format, rest₁, rfl, rfl, hformat⟩ := (reads_skip 4 _ _ _ _).mp htag
    obtain ⟨⟨root, inner⟩, c₂, hrecord, h⟩ := (bind_eq_ok_iff _ _ _ _ _).mp h
    obtain ⟨b, rest', rfl, rfl, depth, hroot⟩ := (reads_record _ _ _ _).mp hrecord
    rw [bind_of_ok (offset_eq _)] at h
    obtain ⟨⟨roots', outer⟩, c₃, hrest, h⟩ := (bind_eq_ok_iff _ _ _ _ _).mp h
    obtain ⟨hresult, rfl⟩ := EStateM.Result.ok.inj h
    obtain ⟨rfl, rfl⟩ := Prod.mk.inj hresult
    rw [hformat] at hroot hrest
    refine ⟨format, b, rest', depth, root, inner, roots', outer, rfl, hformat, hroot, hrest, rfl, ?_⟩
    rw [hformat, show base + 8 + 4 + b.length - base = 12 + b.length by omega]
  · rintro ⟨format, b, rest', depth, root, inner, roots', outer, rfl, hformat, hroot, hrest, rfl, rfl⟩
    have htag : discard tag ⟨base + 8, format ++ (b ++ rest')⟩ =
        .ok () ⟨base + 12, b ++ rest'⟩ := by
      rw [show base + 12 = base + 8 + format.length by omega]
      exact (reads_skip 4).accepts hformat _
    rw [bind_of_ok htag, bind_of_ok (reads_record.accepts ⟨depth, hroot⟩ rest'),
      bind_of_ok (offset_eq _), bind_of_ok hrest]
    change EStateM.Result.ok _ _ = _
    rw [show base + 12 + b.length - base = 12 + b.length by omega]

/-- **Sections.**  With as many rounds as there are bytes, reading sections succeeds exactly where
there are sections up to the end of the input or up to an end section. -/
theorem sectionsWithin_eq_ok_iff {rounds base : Nat} {input : Bytes} {roots : List Record}
    {notes : List Discrepancy} (hrounds : input.length ≤ rounds) :
    (∃ c', sectionsWithin rounds ⟨base, input⟩ = .ok (roots, notes) c') ↔
      SectionsAt base input roots notes := by
  induction rounds generalizing base input roots notes with
  | zero =>
    obtain rfl := List.length_eq_zero_iff.mp (Nat.le_zero.mp hrounds)
    exact nil_sections_iff 0 base roots notes
  | succ rounds ih =>
    by_cases hne : input = []
    · subst hne
      exact nil_sections_iff (rounds + 1) base roots notes
    constructor
    · rintro ⟨c', h⟩
      obtain ⟨name, declared, rest, hname, rfl⟩ := exists_header_of_sectionsWithin hne h
      rw [List.length_append, List.length_append, hname, length_word32] at hrounds
      rw [sectionsWithin_header rounds base hname] at h
      -- One round is used up and at least the eight bytes of the header are gone.
      split_ifs at h with hrecord hlocals hdebug hend
      · subst hrecord
        obtain ⟨format, b, rest', depth, root, inner, roots', outer, rfl, hformat, hroot, hrest, rfl,
          rfl⟩ := (recordSection_eq_ok_iff _ _ _ _ _ _ _).mp h
        rw [List.length_append, List.length_append] at hrounds
        exact .record hformat hroot ((ih (by omega)).mp ⟨c', hrest⟩)
      · subst hlocals
        obtain ⟨_, c₁, hskip, hrest⟩ := (bind_eq_ok_iff _ _ _ _ _).mp h
        obtain ⟨payload, rest', rfl, rfl, hsize⟩ := (reads_skip _ _ _ _ _).mp hskip
        rw [List.length_append] at hrounds
        exact .locals hsize ((ih (by omega)).mp ⟨c', hrest⟩)
      · cases h
      · subst hend
        obtain ⟨hresult, rfl⟩ := EStateM.Result.ok.inj h
        obtain ⟨rfl, rfl⟩ := Prod.mk.inj hresult
        exact .stop declared rest
      · cases h
    · intro h
      cases h with
      | done => exact absurd rfl hne
      | stop declared rest =>
        rw [sectionsWithin_header rounds base rfl]
        exact ⟨_, rfl⟩
      | @locals _ declared payload rest _ _ hsize hrest =>
        rw [List.length_append, List.length_append, List.length_append] at hrounds
        have hpos : localsSection.length = 4 := rfl
        obtain ⟨c', hrest⟩ := (ih (by omega)).mpr hrest
        have hskip : skip declared.toNat ⟨base + 8, payload ++ rest⟩ = .ok () _ :=
          (reads_skip _).accepts hsize rest
        refine ⟨c', ?_⟩
        rw [sectionsWithin_header rounds base rfl, if_neg (by decide), if_pos rfl,
          bind_of_ok hskip, hrest]
      | @record _ depth declared format b rest root roots inner outer hformat hroot hrest =>
        rw [List.length_append, List.length_append, List.length_append,
          List.length_append] at hrounds
        obtain ⟨c', hrest⟩ := (ih (by omega)).mpr hrest
        refine ⟨c', ?_⟩
        rw [sectionsWithin_header rounds base rfl, if_pos rfl]
        exact (recordSection_eq_ok_iff _ _ _ _ _ _ _).mpr
          ⟨format, b, rest, depth, root, inner, roots, outer, rfl, hformat, hroot, hrest, rfl, rfl⟩

end Reading

/-! ## Images -/

namespace Format

open BigEndian (word16 word32)

/-- `bytes` are the image `image`: a header of twenty bytes and sections up to the end. -/
def ImageOf (bytes : Bytes) (image : Image) : Prop :=
  ∃ (body : Bytes) (notes : List Discrepancy),
    bytes = magic ++ word16 image.major ++ word16 image.minor ++ word32 image.totalSize ++
      image.compiler ++ image.compilerVersion ++ body ∧
    image.compiler.length = 4 ∧ image.compilerVersion.length = 4 ∧
    SectionsAt headerSize body image.records notes ∧
    image.diagnostics = Reading.noteUnless image.totalSize.toNat bytes.length
      (.totalSize image.totalSize.toNat bytes.length) ++ notes

end Format

namespace Reading

open Format BigEndian

/-- The image with the given header. -/
def imageOf (head : ImageHead) (actual : Nat) (x : List Record × List Discrepancy) : Image where
  major := head.major
  minor := head.minor
  totalSize := UInt32.ofNat head.declared
  compiler := head.compiler
  compilerVersion := head.compilerVersion
  records := x.1
  diagnostics := noteUnless head.declared actual (.totalSize head.declared actual) ++ x.2

theorem image_header {window : Bytes} (hwindow : window.length = 16) (body : Bytes) :
    Reading.image ⟨0, magic ++ (window ++ body)⟩ =
      (sectionsWithin body.length >>= fun x => pure (imageOf (.ofWindow window) (20 + body.length) x))
        ⟨headerSize, body⟩ := by
  have htag : tag ⟨0, magic ++ (window ++ body)⟩ = .ok magic ⟨4, window ++ body⟩ :=
    (reads_take 4).accepts ⟨rfl, rfl⟩ _
  have hhead : imageHead ⟨4, window ++ body⟩ = .ok (.ofWindow window) ⟨headerSize, body⟩ := by
    have htake : take 16 ⟨4, window ++ body⟩ = .ok window ⟨4 + window.length, body⟩ :=
      (reads_take 16).accepts ⟨hwindow, rfl⟩ body
    rw [hwindow] at htake
    rw [imageHead_eq]
    exact bind_of_ok htake _
  have hactual : (magic ++ (window ++ body)).length = 20 + body.length := by
    rw [List.length_append, List.length_append, hwindow, show magic.length = 4 from rfl]
    omega
  unfold Reading.image
  rw [bind_of_ok (get_eq _), bind_of_ok htag, if_neg (not_not.mpr rfl)]
  beta_reduce
  rw [bind_of_ok hhead, bind_of_ok (get_eq _)]
  simp only [Cursor.remaining, hactual]
  rfl

/-- The fields of a header that is given by its words. -/
theorem imageOf_words (major minor : UInt16) (declared : UInt32) {compiler version : Bytes}
    (hcompiler : compiler.length = 4) (hversion : version.length = 4) (actual : Nat)
    (x : List Record × List Discrepancy) :
    imageOf (.ofWindow (word16 major ++ (word16 minor ++ (word32 declared ++ (compiler ++ version)))))
        actual x =
      { major, minor, totalSize := declared, compiler, compilerVersion := version, records := x.1
        diagnostics := noteUnless declared.toNat actual (.totalSize declared.toNat actual) ++ x.2 } := by
  generalize hwindow : word16 major ++ (word16 minor ++ (word32 declared ++ (compiler ++ version))) =
    window
  have hmajor : slice window 0 2 = major.toNat := by
    rw [← hwindow, ← toNat_word16]
    rfl
  have hminor : slice window 2 2 = minor.toNat := by
    rw [← hwindow, ← toNat_word16]
    rfl
  have hdeclared : slice window 4 4 = declared.toNat := by
    rw [← hwindow, ← toNat_word32]
    rfl
  have htail : window.drop 8 = compiler ++ version := by
    rw [← hwindow]
    rfl
  have htail' : window.drop 12 = version := by
    rw [show window.drop 12 = (window.drop 8).drop 4 by rw [List.drop_drop], htail, ← hcompiler,
      List.drop_left]
  simp only [imageOf, ImageHead.ofWindow, hmajor, hminor, hdeclared, htail, htail', UInt16.ofNat_toNat,
    UInt32.ofNat_toNat]
  rw [← hcompiler, List.take_left, hcompiler, ← hversion, List.take_length]

/-- An image has a header of twenty bytes that starts with the magic number. -/
theorem exists_header_of_image {bytes : Bytes} {image : Image} {c' : Cursor}
    (h : Reading.image ⟨0, bytes⟩ = .ok image c') :
    ∃ window body, window.length = 16 ∧ bytes = magic ++ (window ++ body) := by
  unfold Reading.image at h
  rw [bind_of_ok (get_eq _)] at h
  obtain ⟨found, c₁, htag, h⟩ := (bind_eq_ok_iff _ _ _ _ _).mp h
  obtain ⟨b, rest, rfl, rfl, _, rfl⟩ := (reads_take 4 _ _ _ _).mp htag
  split_ifs at h with hmagic
  · cases h
  · rw [not_not] at hmagic
    subst hmagic
    obtain ⟨head, c₂, hhead, _⟩ := (bind_eq_ok_iff _ _ _ _ _).mp h
    rw [imageHead_eq] at hhead
    obtain ⟨window, c₃, htake, _⟩ := (bind_eq_ok_iff _ _ _ _ _).mp hhead
    obtain ⟨_, body, rfl, _, hlen, rfl⟩ := (reads_take _ _ _ _ _).mp htake
    exact ⟨window, body, hlen, rfl⟩

end Reading

open Format BigEndian Reading in
/-- **The image format.**  Loading succeeds on exactly the byte strings of the format, with the image
that each of them is. -/
theorem Image.ofBytes_eq_ok_iff (bytes : Bytes) (image : Image) :
    Image.ofBytes bytes = .ok image ↔ ImageOf bytes image := by
  have hread : Image.ofBytes bytes = .ok image ↔
      ∃ c', Reading.image ⟨0, bytes⟩ = .ok image c' := by
    unfold Image.ofBytes Cursor.start
    cases Reading.image ⟨0, bytes⟩ <;> simp
  rw [hread]
  constructor
  · rintro ⟨c', h⟩
    obtain ⟨window, body, hwindow, rfl⟩ := exists_header_of_image h
    rw [image_header hwindow] at h
    obtain ⟨⟨roots, notes⟩, c₁, hsections, h⟩ := (bind_eq_ok_iff _ _ _ _ _).mp h
    obtain ⟨rfl, rfl⟩ := EStateM.Result.ok.inj h
    have hbody := (sectionsWithin_eq_ok_iff (Nat.le_refl _)).mp ⟨_, hsections⟩
    obtain ⟨w₁, window, rfl, h₁, hlen⟩ := exists_split 2 14 hwindow
    obtain ⟨w₂, window, rfl, h₂, hlen⟩ := exists_split 2 12 hlen
    obtain ⟨w₃, window, rfl, h₃, hlen⟩ := exists_split 4 8 hlen
    obtain ⟨compiler, version, rfl, h₄, h₅⟩ := exists_split 4 4 hlen
    obtain ⟨major, rfl⟩ := exists_word16 h₁
    obtain ⟨minor, rfl⟩ := exists_word16 h₂
    obtain ⟨declared, rfl⟩ := exists_word32 h₃
    rw [imageOf_words major minor declared h₄ h₅]
    refine ⟨body, notes, ?_, h₄, h₅, hbody, ?_⟩
    · simp only [List.append_assoc]
    · simp only [List.length_append, hwindow, show magic.length = 4 from rfl, ← Nat.add_assoc]
  · rintro ⟨body, notes, hbytes, hcompiler, hversion, hsections, hnotes⟩
    obtain ⟨c', hsections⟩ := (sectionsWithin_eq_ok_iff (Nat.le_refl _)).mpr hsections
    have hwindow : (word16 image.major ++ (word16 image.minor ++ (word32 image.totalSize ++
        (image.compiler ++ image.compilerVersion)))).length = 16 := by
      simp [hcompiler, hversion]
    have hsplit : bytes = magic ++ ((word16 image.major ++ (word16 image.minor ++
        (word32 image.totalSize ++ (image.compiler ++ image.compilerVersion)))) ++ body) := by
      rw [hbytes]
      simp only [List.append_assoc]
    have hlen : bytes.length = 20 + body.length := by
      rw [hsplit, List.length_append, List.length_append, hwindow, ← Nat.add_assoc]
      rfl
    refine ⟨c', ?_⟩
    rw [hsplit, image_header hwindow, bind_of_ok hsections, imageOf_words _ _ _ hcompiler hversion,
      ← hlen, ← hnotes]
    rfl

end Rite

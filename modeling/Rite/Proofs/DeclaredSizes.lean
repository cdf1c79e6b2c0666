import Rite.Proofs.ImageRoundTrip

/-!
# Declared sizes are advisory

An image declares sizes in three kinds of places: its total size in the header, the size of every
record section, and the size of every record without its children.  None of them is needed to load
it.  Whatever stands in these places, the records are the same, and every size that is not the real
one is reported.

`ImageDraft.sizeFields` lists the places in the order of the report.  `sizes_overwritten` is the main
result: take any assembled image and overwrite any of these places, and nothing else.
-/

namespace Rite

open BigEndian (word16 word32)

/-! ## Fields -/

/-- A place in an image where a size is declared. -/
structure SizeField where
  /-- Where its four bytes start. -/
  place : Nat
  /-- The size that should stand there. -/
  real : Nat
  /-- The report if another size is declared. -/
  note : Nat → Discrepancy

namespace SizeField

/-- The total size of an image, in its header. -/
def total (actual : Nat) : SizeField where
  place := 8
  real := actual
  note declared := .totalSize declared actual

/-- The size of a record section, behind its tag. -/
def ofSection (offset consumed : Nat) : SizeField where
  place := offset + 4
  real := consumed
  note declared := .sectionSize offset declared consumed

/-- The size of a record, at its very start. -/
def ofRecord (offset consumed : Nat) : SizeField where
  place := offset
  real := consumed
  note declared := .recordSize offset declared consumed

/-- The size that an input declares there. -/
def declared (f : SizeField) (input : Bytes) : Nat := BigEndian.slice input f.place 4

/-- The byte at position `i` is one of the four. -/
def Covers (f : SizeField) (i : Nat) : Prop := f.place ≤ i ∧ i < f.place + 4

instance (f : SizeField) (i : Nat) : Decidable (f.Covers i) := inferInstanceAs (Decidable (_ ∧ _))

/-- The field lies within the `n` bytes from `base` on. -/
def Within (base n : Nat) (f : SizeField) : Prop := base ≤ f.place ∧ f.place + 4 ≤ base + n

theorem Within.mono {f : SizeField} {base base' n n' : Nat} (h : f.Within base n)
    (hstart : base' ≤ base) (hend : base + n ≤ base' + n') : f.Within base' n' :=
  ⟨Nat.le_trans hstart h.1, Nat.le_trans h.2 hend⟩

/-- The reports about an input: of the fields that are wrong, and in their order. -/
def notes (fields : List SizeField) (input : Bytes) : List Discrepancy :=
  (fields.filter fun f => f.declared input ≠ f.real).map fun f => f.note (f.declared input)

theorem notes_nil (input : Bytes) : notes [] input = [] := rfl

theorem notes_cons (f : SizeField) (fields : List SizeField) (input : Bytes) :
    notes (f :: fields) input =
      Reading.noteUnless (f.declared input) f.real (f.note (f.declared input)) ++
        notes fields input := by
  unfold notes Reading.noteUnless
  by_cases h : f.declared input = f.real <;> simp [h]

theorem notes_append (fields fields' : List SizeField) (input : Bytes) :
    notes (fields ++ fields') input = notes fields input ++ notes fields' input := by
  simp [notes]

end SizeField

namespace RecordDraft

mutual

/-- The sizes that a draft declares when it is stored at offset `base`: its own, and then those of
the drafts nested in it. -/
def sizeFields : RecordDraft → Nat → List SizeField
  | ⟨registers, locals, catchHandlers, code, literals, symbols, children⟩, base =>
    let own := ownBytes ⟨registers, locals, catchHandlers, code, literals, symbols, children⟩
    .ofRecord base own.length :: sizeFieldsAll children (base + own.length)

/-- The sizes that drafts declare when they are stored one after the other from `base` on. -/
def sizeFieldsAll : List RecordDraft → Nat → List SizeField
  | [], _ => []
  | d :: ds, base => sizeFields d base ++ sizeFieldsAll ds (base + d.encode.length)

end

theorem sizeFields_eq (d : RecordDraft) (base : Nat) :
    d.sizeFields base =
      .ofRecord base d.ownBytes.length :: sizeFieldsAll d.children (base + d.ownBytes.length) := by
  obtain ⟨registers, locals, catchHandlers, code, literals, symbols, children⟩ := d
  rw [sizeFields]

end RecordDraft

/-- The sizes that a section declares when it is stored at offset `base`: those of its records, and
then its own.  Sections of another kind declare no advisory size. -/
def Part.sizeFields : Part → Nat → List SizeField
  | .record draft, base =>
    draft.sizeFields (base + 12) ++ [.ofSection base (12 + draft.encode.length)]
  | .other _ _, _ => []

namespace ImageDraft

/-- The sizes that sections declare when they are stored one after the other from `base` on. -/
def sectionFields : List Part → Nat → List SizeField
  | [], _ => []
  | p :: ps, base => p.sizeFields base ++ sectionFields ps (base + p.encode.length)

/-- The sizes that an image declares: the total, and then those of its sections in file order. -/
def sizeFields (d : ImageDraft) : List SizeField :=
  .total d.toBytes.length :: sectionFields d.parts Format.headerSize

end ImageDraft

/-! ## Inputs that agree outside of fields -/

/-- The `n` bytes of an input from `base` on. -/
def piece (input : Bytes) (base n : Nat) : Bytes := (input.drop base).take n

/-- A piece as long as two strings is cut between them. -/
theorem piece_append (input : Bytes) (base : Nat) (b₁ b₂ : Bytes) :
    piece input base (b₁ ++ b₂).length =
      piece input base b₁.length ++ piece input (base + b₁.length) b₂.length := by
  unfold piece
  rw [List.length_append, List.take_add, List.drop_drop]

theorem length_piece {input : Bytes} {base n : Nat} (h : base + n ≤ input.length) :
    (piece input base n).length = n := by
  unfold piece
  rw [List.length_take, List.length_drop]
  omega

/-- From `base` on, the input has the bytes of `b`, except where a field may have been
overwritten. -/
structure Stands (fields : List SizeField) (input : Bytes) (base : Nat) (b : Bytes) : Prop where
  room : base + b.length ≤ input.length
  same : ∀ i < b.length, (∀ f ∈ fields, ¬ f.Covers (base + i)) → input[base + i]? = b[i]?

namespace Stands

variable {fields fields' : List SizeField} {input b b₁ b₂ : Bytes} {base : Nat}

/-- The first part does not depend on fields behind it. -/
theorem left (h : Stands fields input base (b₁ ++ b₂))
    (hfields : ∀ f ∈ fields, f ∈ fields' ∨ base + b₁.length ≤ f.place) :
    Stands fields' input base b₁ := by
  have hroom := h.room
  rw [List.length_append] at hroom
  refine ⟨by omega, fun i hi hfree => ?_⟩
  rw [← List.getElem?_append_left hi]
  refine h.same i (by rw [List.length_append]; omega) fun f hf hcovers => ?_
  rcases hfields f hf with hmem | hbehind
  · exact hfree f hmem hcovers
  · have hplace := hcovers.1
    omega

/-- The second part does not depend on fields in front of it. -/
theorem right (h : Stands fields input base (b₁ ++ b₂))
    (hfields : ∀ f ∈ fields, f ∈ fields' ∨ f.place + 4 ≤ base + b₁.length) :
    Stands fields' input (base + b₁.length) b₂ := by
  have hroom := h.room
  rw [List.length_append] at hroom
  refine ⟨by omega, fun i hi hfree => ?_⟩
  have hbyte : (b₁ ++ b₂)[b₁.length + i]? = b₂[i]? := by
    rw [List.getElem?_append_right (by omega), Nat.add_sub_cancel_left]
  rw [← hbyte, Nat.add_assoc]
  refine h.same (b₁.length + i) (by rw [List.length_append]; omega) fun f hf hcovers => ?_
  rcases hfields f hf with hmem | hbefore
  · exact hfree f hmem (by rw [Nat.add_assoc]; exact hcovers)
  · have hplace := hcovers.2
    omega

/-- Fields that lie in the first part, in front of fields that do not, are cut apart with the
bytes. -/
theorem split (h : Stands (fields ++ fields') input base (b₁ ++ b₂))
    (hfirst : ∀ f ∈ fields, f.Within base b₁.length)
    (hsecond : ∀ f ∈ fields', base + b₁.length ≤ f.place) :
    Stands fields input base b₁ ∧ Stands fields' input (base + b₁.length) b₂ := by
  constructor
  · apply h.left
    intro f hf
    exact (List.mem_append.mp hf).imp_right (hsecond f)
  · apply h.right
    intro f hf
    exact (List.mem_append.mp hf).symm.imp_right fun hf => (hfirst f hf).2

/-- Without fields nothing was overwritten. -/
theorem piece_eq (h : Stands [] input base b) : piece input base b.length = b := by
  apply List.ext_getElem?
  intro i
  unfold piece
  by_cases hi : i < b.length
  · rw [List.getElem?_take_of_lt hi, List.getElem?_drop]
    exact h.same i hi fun f hf => absurd hf List.not_mem_nil
  · rw [List.getElem?_eq_none (by rw [List.length_take]; omega), List.getElem?_eq_none (by omega)]

/-- Bytes that start with a field start with some word, and go on as before. -/
theorem exists_word {f : SizeField} (h : Stands [f] input f.place (b₁ ++ b₂))
    (hword : b₁.length = 4) :
    ∃ w : UInt32, piece input f.place (b₁ ++ b₂).length = word32 w ++ b₂ ∧
      f.declared input = w.toNat := by
  have hroom := h.room
  rw [List.length_append, hword] at hroom
  have hrest : Stands [] input (f.place + b₁.length) b₂ := by
    refine h.right fun g hg => .inr ?_
    rw [List.mem_singleton.mp hg, hword]
  have hlength : (piece input f.place 4).length = 4 := length_piece (by omega)
  obtain ⟨w, hw⟩ := BigEndian.exists_word32 hlength
  refine ⟨w, ?_, ?_⟩
  · rw [piece_append, hrest.piece_eq, hword, hw]
  · show BigEndian.toNat (piece input f.place 4) = w.toNat
    rw [hw, BigEndian.toNat_word32]

end Stands

/-! ## Trees -/

namespace Format

/-- Another declared size makes the same record. -/
theorem RecordOwn.resize {own rest : Bytes} {declared : UInt32} {r : Record}
    (h : RecordOwn own declared r) (hown : own = word32 declared ++ rest) (w : UInt32) :
    RecordOwn (word32 w ++ rest) w r := by
  obtain ⟨childCount, codeSize, is, code, pool, table, hbytes, hrecord⟩ := h
  refine ⟨childCount, codeSize, is, code, pool, table, ?_, hrecord⟩
  simp only [List.append_assoc] at hbytes ⊢
  rw [List.append_cancel_left (hown.symm.trans hbytes)]

end Format

namespace RecordDraft

open Format (RecordWithin Row)

variable {input : Bytes} {base : Nat}

/-- A draft's own bytes start with the size it declares. -/
theorem ownBytes_eq (d : RecordDraft) : ∃ rest, d.ownBytes = word32 d.declaredSize ++ rest :=
  ⟨d.ownBytes.drop 4, rfl⟩

/-- The size of a record stands in its own bytes. -/
theorem ofRecord_within (d : RecordDraft) (base : Nat) :
    (SizeField.ofRecord base d.ownBytes.length).Within base d.ownBytes.length := by
  have hown := d.length_ownBytes
  rw [show Format.recordHeaderSize = 16 from rfl] at hown
  refine ⟨Nat.le_refl base, ?_⟩
  show base + 4 ≤ base + d.ownBytes.length
  omega

theorem sizeFieldsAll_within {ds : List RecordDraft}
    (h : ∀ d ∈ ds, ∀ base, ∀ f ∈ d.sizeFields base, f.Within base d.encode.length) (base : Nat) :
    ∀ f ∈ sizeFieldsAll ds base, f.Within base (ds.flatMap encode).length := by
  induction ds generalizing base with
  | nil => exact fun f hf => absurd hf List.not_mem_nil
  | cons d ds ih =>
    intro f hf
    rw [List.flatMap_cons, List.length_append]
    rcases List.mem_append.mp hf with hf | hf
    · have hd := h d List.mem_cons_self base f hf
      exact hd.mono (Nat.le_refl base) (by omega)
    · have hds := ih (fun c hc => h c (List.mem_cons_of_mem d hc)) _ f hf
      exact hds.mono (Nat.le_add_right base _) (by omega)

/-- The fields of a draft lie within its bytes. -/
theorem sizeFields_within {d : RecordDraft} (h : d.Storable) (base : Nat) :
    ∀ f ∈ d.sizeFields base, f.Within base d.encode.length := by
  induction h generalizing base with
  | @intro d own children ih =>
    intro f hf
    rw [sizeFields_eq] at hf
    rw [encode_eq, List.length_append]
    rcases List.mem_cons.mp hf with rfl | hf
    · exact (d.ofRecord_within base).mono (Nat.le_refl base) (by omega)
    · have hkids := sizeFieldsAll_within ih (base + d.ownBytes.length) f hf
      exact hkids.mono (Nat.le_add_right base _) (by omega)

/-- Drafts one after the other, each of them a record whatever sizes stand in its fields. -/
theorem row_stands {ds : List RecordDraft} {n : Nat} (hstorable : ∀ d ∈ ds, d.Storable)
    (h : ∀ d ∈ ds, ∀ base, Stands (d.sizeFields base) input base d.encode →
      RecordWithin n base (piece input base d.encode.length)
        (d.toRecord, SizeField.notes (d.sizeFields base) input))
    (hstands : Stands (sizeFieldsAll ds base) input base (ds.flatMap encode)) :
    ∃ kids, Row (RecordWithin n) base (piece input base (ds.flatMap encode).length) kids ∧
      kids.map (·.1) = ds.map toRecord ∧
      (kids.map (·.2)).flatten = SizeField.notes (sizeFieldsAll ds base) input := by
  induction ds generalizing base with
  | nil => exact ⟨[], .nil, rfl, rfl⟩
  | cons d ds ih =>
    have hd := sizeFields_within (hstorable d List.mem_cons_self) base
    have hds := sizeFieldsAll_within
      (fun c hc => sizeFields_within (hstorable c (List.mem_cons_of_mem d hc)))
      (base + d.encode.length)
    rw [sizeFieldsAll, List.flatMap_cons] at hstands
    obtain ⟨hfirst, hothers⟩ := hstands.split hd fun f hf => (hds f hf).1
    have hrecord := h d List.mem_cons_self base hfirst
    obtain ⟨kids, hrow, hrecords, hnotes⟩ := ih
      (fun c hc => hstorable c (List.mem_cons_of_mem d hc))
      (fun c hc => h c (List.mem_cons_of_mem d hc)) hothers
    have hlength := length_piece hfirst.room
    refine ⟨(d.toRecord, SizeField.notes (d.sizeFields base) input) :: kids, ?_, ?_, ?_⟩
    · rw [List.flatMap_cons, piece_append]
      refine .cons hrecord ?_
      rw [hlength]
      exact hrow
    · rw [List.map_cons, List.map_cons, hrecords]
    · rw [List.map_cons, List.flatten_cons, hnotes, sizeFieldsAll, SizeField.notes_append]

/-- A record's own bytes hold one field, and make the same record whatever stands in it. -/
theorem recordOwn_stands {d : RecordDraft} (h : d.OwnStorable) (hsize : d.ownBytes.length < 2 ^ 32)
    (hstands : Stands [.ofRecord base d.ownBytes.length] input base d.ownBytes) :
    ∃ w : UInt32, Format.RecordOwn (piece input base d.ownBytes.length) w d.toRecord ∧
      (SizeField.ofRecord base d.ownBytes.length).declared input = w.toNat := by
  have hown := recordOwn_ownBytes h hsize
  obtain ⟨rest, hrest⟩ := d.ownBytes_eq
  rw [hrest] at hstands ⊢
  obtain ⟨w, hpiece, hdeclared⟩ := Stands.exists_word hstands rfl
  have hpiece : piece input base _ = word32 w ++ rest := hpiece
  refine ⟨w, ?_, hdeclared⟩
  rw [hpiece]
  exact hown.resize hrest w

/-- **A tree with overwritten sizes.**  Whatever stands in its fields, a storable draft is the record
it describes, and the wrong sizes are noted in pre-order. -/
theorem recordWithin_stands {d : RecordDraft} (h : d.Storable) (hsize : d.encode.length < 2 ^ 32)
    {n : Nat} (hn : d.encode.length ≤ n)
    (hstands : Stands (d.sizeFields base) input base d.encode) :
    RecordWithin n base (piece input base d.encode.length)
      (d.toRecord, SizeField.notes (d.sizeFields base) input) := by
  induction h generalizing n base with
  | @intro d own children ih =>
    rw [encode_eq, List.length_append] at hsize hn
    -- A record's own bytes are not empty, so there is a level left for the children.
    have hpos := (recordOwn_ownBytes own (by omega)).length
    obtain ⟨n, rfl⟩ : ∃ k, n = k + 1 := ⟨n - 1, by omega⟩
    have hkids := sizeFieldsAll_within (fun c hc => sizeFields_within (children c hc))
      (base + d.ownBytes.length)
    rw [sizeFields_eq, encode_eq, ← List.singleton_append] at hstands
    have hown : ∀ f ∈ [SizeField.ofRecord base d.ownBytes.length],
        f.Within base d.ownBytes.length := by
      intro f hf
      rw [List.mem_singleton.mp hf]
      exact d.ofRecord_within base
    obtain ⟨hfirst, hinner⟩ := hstands.split hown fun f hf => (hkids f hf).1
    have hchild : ∀ c ∈ d.children, ∀ base', Stands (c.sizeFields base') input base' c.encode →
        RecordWithin n base' (piece input base' c.encode.length)
          (c.toRecord, SizeField.notes (c.sizeFields base') input) := by
      intro c hc base' hc'
      have hle : c.encode.length ≤ (d.children.flatMap encode).length :=
        (List.sublist_flatten_of_mem (List.mem_map_of_mem hc)).length_le
      exact ih c hc (by omega) (by omega) hc'
    obtain ⟨kids, hrow, hrecords, hnotes⟩ := row_stands children hchild hinner
    obtain ⟨w, hresized, hdeclared⟩ := recordOwn_stands own (by omega) hfirst
    have hlength := length_piece hfirst.room
    rw [encode_eq, piece_append, sizeFields_eq, SizeField.notes_cons, hdeclared]
    refine ⟨piece input base d.ownBytes.length,
      piece input (base + d.ownBytes.length) (d.children.flatMap encode).length, w, kids, rfl,
      hresized, ?_, ?_, ?_⟩
    · rw [hlength]
      exact hrow
    · rw [hrecords, toRecord_eq]
    · rw [hlength, hnotes]
      rfl

end RecordDraft

/-! ## Sections -/

/-- The fields of a section lie within its bytes. -/
theorem Part.sizeFields_within {p : Part} (h : p.Storable) (base : Nat) :
    ∀ f ∈ p.sizeFields base, f.Within base p.encode.length := by
  cases p with
  | other tag payload => exact fun f hf => absurd hf List.not_mem_nil
  | record draft =>
    intro f hf
    rw [length_encode_record]
    rcases List.mem_append.mp hf with hf | hf
    · have hdraft := RecordDraft.sizeFields_within h (base + 12) f hf
      exact hdraft.mono (Nat.le_add_right base 12) (by omega)
    · rw [List.mem_singleton.mp hf]
      refine ⟨Nat.le_add_right base 4, ?_⟩
      show base + 4 + 4 ≤ _
      omega

namespace ImageDraft

open Format (SectionsAt endSection localsSection recordSection)

variable {input : Bytes} {base : Nat}

theorem le_place_of_mem_sectionFields {parts : List Part} (h : ∀ p ∈ parts, p.Storable) :
    ∀ f ∈ sectionFields parts base, base ≤ f.place := by
  induction parts generalizing base with
  | nil => exact fun f hf => absurd hf List.not_mem_nil
  | cons p parts ih =>
    intro f hf
    rcases List.mem_append.mp hf with hf | hf
    · exact (Part.sizeFields_within (h p List.mem_cons_self) base f hf).1
    · have hrest := ih (fun q hq => h q (List.mem_cons_of_mem p hq)) f hf
      omega

/-- A record section whose sizes may have been overwritten, in front of sections. -/
theorem sectionsAt_record_stands {draft : RecordDraft} (h : draft.Storable)
    (hsize : draft.encode.length < 2 ^ 32)
    (hstands : Stands (Part.sizeFields (.record draft) base) input base
      (Part.encode (.record draft))) {rest : Bytes} {roots : List Record} {outer : List Discrepancy}
    (hrest : SectionsAt (base + 12 + draft.encode.length) rest roots outer) :
    SectionsAt base (piece input base (Part.encode (.record draft)).length ++ rest)
      (draft.toRecord :: roots)
      (SizeField.notes (Part.sizeFields (.record draft) base) input ++ outer) := by
  have hdraft := RecordDraft.sizeFields_within h (base + 12)
  obtain ⟨size, hbytes⟩ : ∃ size, Part.encode (.record draft) =
      recordSection ++ ((word32 size ++ Part.recordFormat) ++ draft.encode) :=
    ⟨_, by simp only [Part.encode, List.append_assoc]; rfl⟩
  rw [hbytes] at hstands
  -- Tag, size, format and tree, each with the fields that lie in it.
  have htag : Stands [] input base recordSection := by
    refine hstands.left fun f hf => .inr ?_
    rcases List.mem_append.mp hf with hf | hf
    · have hplace := (hdraft f hf).1
      show base + 4 ≤ f.place
      omega
    · rw [List.mem_singleton.mp hf]
      exact Nat.le_refl _
  have hmore : Stands (Part.sizeFields (.record draft) base) input (base + 4)
      ((word32 size ++ Part.recordFormat) ++ draft.encode) := hstands.right fun f hf => .inl hf
  have hhead : Stands [.ofSection base (12 + draft.encode.length)] input (base + 4)
      (word32 size ++ Part.recordFormat) := by
    refine hmore.left fun f hf => ?_
    refine (List.mem_append.mp hf).symm.imp_right fun hf => ?_
    have hplace := (hdraft f hf).1
    show base + 4 + 8 ≤ f.place
    omega
  have htree : Stands (draft.sizeFields (base + 12)) input (base + 12) draft.encode := by
    refine hmore.right fun f hf => (List.mem_append.mp hf).imp_right fun hf => ?_
    rw [List.mem_singleton.mp hf]
    show base + 4 + 4 ≤ base + 4 + 8
    omega
  obtain ⟨w, hword, hdeclared⟩ := Stands.exists_word hhead rfl
  have hroot := RecordDraft.recordWithin_stands h hsize (Nat.le_refl _) htree
  have hlength := length_piece htree.room
  have hpiece : piece input base (Part.encode (.record draft)).length =
      recordSection ++ (word32 w ++ Part.recordFormat ++
        piece input (base + 12) draft.encode.length) := by
    rw [hbytes, piece_append, htag.piece_eq, piece_append]
    exact congrArg _ (congrArg (· ++ _) hword)
  have hsection : SectionsAt base (recordSection ++ word32 w ++ (Part.recordFormat ++
      (piece input (base + 12) draft.encode.length ++ rest))) (draft.toRecord :: roots) _ :=
    .record rfl hroot (by rw [hlength]; exact hrest)
  rw [hlength, ← hdeclared] at hsection
  rw [hpiece, Part.sizeFields, SizeField.notes_append, SizeField.notes_cons, SizeField.notes_nil,
    List.append_nil]
  simp only [List.append_assoc] at hsection ⊢
  exact hsection

/-- Sections whose sizes may have been overwritten, in front of a `tail` that has none. -/
theorem sectionsAt_stands {parts : List Part} (h : ∀ p ∈ parts, p.Storable)
    (hsize : (parts.flatMap Part.encode).length < 2 ^ 32) {tail : Bytes}
    (htail : ∀ base, SectionsAt base tail [] [])
    (hstands : Stands (sectionFields parts base) input base (parts.flatMap Part.encode ++ tail)) :
    SectionsAt base (piece input base (parts.flatMap Part.encode ++ tail).length)
      (parts.filterMap Part.root?) (SizeField.notes (sectionFields parts base) input) := by
  induction parts generalizing base with
  | nil =>
    rw [hstands.piece_eq]
    exact htail base
  | cons p parts ih =>
    have hp := h p List.mem_cons_self
    have hothers : ∀ q ∈ parts, q.Storable := fun q hq => h q (List.mem_cons_of_mem p hq)
    rw [List.flatMap_cons, List.append_assoc] at hstands ⊢
    rw [List.flatMap_cons, List.length_append] at hsize
    obtain ⟨hfirst, hmore⟩ :=
      hstands.split (Part.sizeFields_within hp base) (le_place_of_mem_sectionFields hothers)
    have hrest := ih hothers (by omega) hmore
    rw [piece_append, sectionFields, SizeField.notes_append]
    cases p with
    | record draft =>
      rw [Part.length_encode_record] at hsize
      have hbase : base + (Part.encode (.record draft)).length = base + 12 + draft.encode.length := by
        rw [Part.length_encode_record, Nat.add_assoc]
      rw [hbase] at hrest ⊢
      exact sectionsAt_record_stands hp (by omega) hfirst hrest
    | other tag payload =>
      obtain rfl : tag = localsSection := hp
      have hlength : (Part.encode (.other localsSection payload)).length = 8 + payload.length := by
        simp only [Part.encode, List.length_append, BigEndian.length_word32]
        rfl
      rw [hlength, ← Nat.add_assoc] at hrest
      rw [hfirst.piece_eq, hlength, ← Nat.add_assoc]
      exact sectionsAt_locals (by omega) hrest

/-- An image whose sizes may have been overwritten is in the format. -/
theorem exists_imageOf_stands {d : ImageDraft} (hparts : ∀ p ∈ d.parts, p.Storable)
    (hsize : d.toBytes.length < 2 ^ 32) (hlength : input.length = d.toBytes.length)
    (hstands : Stands d.sizeFields input 0 d.toBytes) :
    ∃ image, Format.ImageOf input image ∧ image.records = d.parts.filterMap Part.root? ∧
      image.diagnostics = SizeField.notes d.sizeFields input := by
  have hbody : (d.parts.flatMap Part.encode).length < 2 ^ 32 := by
    rw [length_toBytes, bodyBytes, List.length_append] at hsize
    omega
  have hversion : version = word16 0x3033 ++ word16 0x3030 := by decide
  have hsections : ∀ f ∈ sectionFields d.parts 20, 20 ≤ f.place :=
    le_place_of_mem_sectionFields hparts
  obtain ⟨size, hbytes⟩ : ∃ size, d.toBytes =
      (Format.magic ++ version) ++ ((word32 size ++ compiler) ++ d.bodyBytes) :=
    ⟨_, by simp only [toBytes, List.append_assoc]; rfl⟩
  rw [hbytes] at hstands
  -- Magic number and version, total size and compiler, and the sections.
  have hmagic : Stands [] input 0 (Format.magic ++ version) := by
    refine hstands.left fun f hf => .inr ?_
    rcases List.mem_cons.mp hf with rfl | hf
    · exact Nat.le_refl 8
    · exact Nat.le_trans (by decide) (hsections f hf)
  have hmore : Stands d.sizeFields input 8 ((word32 size ++ compiler) ++ d.bodyBytes) :=
    hstands.right fun f hf => .inl hf
  have hhead : Stands [.total d.toBytes.length] input 8 (word32 size ++ compiler) := by
    refine hmore.left fun f hf => ?_
    exact (List.mem_cons.mp hf).imp List.mem_singleton.mpr fun hf => hsections f hf
  have hrest : Stands (sectionFields d.parts 20) input 20 d.bodyBytes := by
    refine hmore.right fun f hf => (List.mem_cons.mp hf).symm.imp_right fun hf => ?_
    rw [hf]
    exact Nat.le_add_right 12 8
  obtain ⟨w, hword, hdeclared⟩ := Stands.exists_word hhead rfl
  have hpieces : piece input 0 d.toBytes.length = (Format.magic ++ version) ++
      ((word32 w ++ compiler) ++ piece input 20 d.bodyBytes.length) := by
    rw [hbytes, piece_append, hmagic.piece_eq, piece_append]
    exact congrArg _ (congrArg (· ++ _) hword)
  have hinput : piece input 0 d.toBytes.length = input := by
    unfold piece
    rw [← hlength, List.drop_zero, List.take_length]
  have hroots := sectionsAt_stands hparts hbody (sectionsAt_end · d.closed) hrest
  refine ⟨{ d.toImage with
    totalSize := w, diagnostics := SizeField.notes d.sizeFields input }, ?_, rfl, rfl⟩
  refine ⟨piece input 20 d.bodyBytes.length, _, ?_, rfl, rfl, hroots, ?_⟩
  · refine (hinput.symm.trans hpieces).trans ?_
    rw [hversion]
    simp only [toImage, List.append_assoc]
    rfl
  · rw [sizeFields, SizeField.notes_cons, hdeclared, hlength]
    rfl

end ImageDraft

/-- **Declared sizes are advisory and diagnosed exactly.**  Take the bytes of any storable image and
overwrite any of the places where it declares sizes: its total size, the sizes of record sections and
the sizes of records at any depth.  The result is loaded, its records are those of the image, and what
is noted are the sizes that are not the real ones, in the order of `ImageDraft.sizeFields`. -/
theorem sizes_overwritten (d : ImageDraft) (hparts : ∀ p ∈ d.parts, p.Storable)
    (hsize : d.toBytes.length < 2 ^ 32) (input : Bytes) (hlength : input.length = d.toBytes.length)
    (hsame : ∀ i < input.length, (∀ f ∈ d.sizeFields, ¬ f.Covers i) → input[i]? = d.toBytes[i]?) :
    ∃ original image, Image.ofBytes d.toBytes = .ok original ∧ Image.ofBytes input = .ok image ∧
      image.records = original.records ∧
      image.diagnostics = SizeField.notes d.sizeFields input := by
  have hstands : Stands d.sizeFields input 0 d.toBytes := by
    refine ⟨by omega, fun i hi hfree => ?_⟩
    rw [Nat.zero_add] at hfree ⊢
    exact hsame i (by omega) hfree
  obtain ⟨image, himage, hrecords, hnotes⟩ :=
    ImageDraft.exists_imageOf_stands hparts hsize hlength hstands
  refine ⟨d.toImage, image, ?_, ?_, hrecords, hnotes⟩
  · exact (Image.ofBytes_eq_ok_iff _ _).mpr (ImageDraft.imageOf_toBytes hparts hsize)
  · exact (Image.ofBytes_eq_ok_iff _ _).mpr himage

/-- Two record sections with the names of local variables between them; the first record has a
child. -/
def twoSections : ImageDraft where
  parts :=
    [.record { symbols := ["a"], children := [{ registers := 2 }] },
      .other Format.localsSection [1, 2], .record {}]

/-- Its bytes with other sizes in the header, in the child record and in the second section. -/
def twoSectionsResized : Bytes := ((twoSections.toBytes.set 11 0).set 56 255).set 93 9

theorem sizes_overwritten_twoSections :
    (∀ p ∈ twoSections.parts, p.Storable) ∧
    ∃ original image, Image.ofBytes twoSections.toBytes = .ok original ∧
      Image.ofBytes twoSectionsResized = .ok image ∧ image.records = original.records ∧
      image.diagnostics =
        [.totalSize 0 126, .recordSize 56 0xFF000014 20, .sectionSize 86 9 32] := by
  have hparts : ∀ p ∈ twoSections.parts, p.Storable := by
    intro p hp
    simp only [twoSections, List.mem_cons, List.not_mem_nil, or_false] at hp
    rcases hp with rfl | rfl | rfl
    · refine .intro ⟨by decide, by decide, by decide, by decide, by decide, by decide⟩ ?_
      intro c hc
      rw [List.mem_singleton.mp hc]
      exact .intro ⟨by decide, by decide, by decide, by decide, by decide, by decide⟩ nofun
    · rfl
    · exact .intro ⟨by decide, by decide, by decide, by decide, by decide, by decide⟩ nofun
  have hnotes : SizeField.notes twoSections.sizeFields twoSectionsResized =
      [.totalSize 0 126, .recordSize 56 0xFF000014 20, .sectionSize 86 9 32] := by decide +kernel
  rw [← hnotes]
  exact ⟨hparts, sizes_overwritten twoSections hparts (by decide +kernel) twoSectionsResized
    (by decide +kernel) (by decide +kernel)⟩

end Rite

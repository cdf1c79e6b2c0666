import Mathlib.Data.List.Dedup
import Rite.Proofs.ImageRoundTrip

/-!
# Indices of a draft

While a record is put together, names are asked for as they come up, and each answer is an index that
goes into some instruction at once.  The record is stored much later, with more names in its tables by
then.  So an index must go on meaning what it was asked for: tables only grow, and only at their ends
(`RecordDraft.Extends`).

`DraftCall` is one thing that can be done to a draft, and a record is put together by a list of them.
`draft_indices_resolve` follows every index from the call that answers it, through whatever calls come
later, through the bytes of the image, to the entry that the loaded record has in that place.
-/

namespace Rite

/-! ## Calls -/

/-- One call on a draft. -/
inductive DraftCall where
  | emit (i : Instruction)
  | send (op : Opcode) (a : UInt8) (name : String) (argc : UInt8)
  | symbol (name : String)
  | literal (text : String)
  | child (c : RecordDraft)

namespace DraftCall

/-- The draft after a call. -/
def perform (d : RecordDraft) : DraftCall → RecordDraft
  | .emit i => d.emit i
  | .send op a name argc => d.send op a name argc
  | .symbol name => (d.symbol name).1
  | .literal text => (d.literal text).1
  | .child c => (d.child c).1

/-- The symbol that a call uses. -/
def symbols : DraftCall → List String
  | .send _ _ name _ | .symbol name => [name]
  | _ => []

/-- The string literal that a call uses. -/
def literals : DraftCall → List String
  | .literal text => [text]
  | _ => []

/-- The draft that a call nests. -/
def children : DraftCall → List RecordDraft
  | .child c => [c]
  | _ => []

/-- What a call on the draft `d` has answered holds of `record`: an index leads to what it was asked
for, an emitted instruction stands in its place, and the symbol operand of a send leads to its name. -/
def ResolvesIn (record : Record) (d : RecordDraft) : DraftCall → Prop
  | .emit i => record.code.instructions[d.emitted.length]? = some i.canonical
  | .send op a name argc => op.shape = .bbb →
    ∃ i, record.code.instructions[d.emitted.length]? = some i ∧
      i.op = op ∧ i.a = a.toUInt16 ∧ i.c = argc.toUInt16 ∧ record.symbols[i.b.toNat]? = some name
  | .symbol name => record.symbols[(d.symbol name).2.toNat]? = some name
  | .literal text => record.literals[(d.literal text).2.toNat]? = some text
  | .child c => ∃ image loaded, Image.ofBytes (ImageDraft.ofRecord c).toBytes = .ok image ∧
    image.records = [loaded] ∧ record.children[(d.child c).2.toNat]? = some loaded

end DraftCall

/-- The draft after one call after the other. -/
def RecordDraft.performAll (d : RecordDraft) (calls : List DraftCall) : RecordDraft :=
  calls.foldl DraftCall.perform d

/-! ## Interning -/

/-- `table` lists what is in `used`, each text once, in the order of first use. -/
structure FirstUses (used table : List String) : Prop where
  nodup : table.Nodup
  mem_iff : ∀ text, text ∈ table ↔ text ∈ used
  ordered : table.Pairwise fun x y => used.idxOf x < used.idxOf y

theorem FirstUses.nil : FirstUses [] [] := ⟨.nil, fun _ => Iff.rfl, .nil⟩

theorem FirstUses.length_eq {used table : List String} (h : FirstUses used table) :
    table.length = used.dedup.length := by
  have hperm : table.Perm used.dedup := by
    rw [List.perm_ext_iff_of_nodup h.nodup used.nodup_dedup]
    intro text
    rw [h.mem_iff, List.mem_dedup]
  exact hperm.length_eq

/-- A text that was used before makes no difference. -/
theorem FirstUses.again {used table : List String} (h : FirstUses used table) {text : String}
    (htext : text ∈ used) : FirstUses (used ++ [text]) table := by
  refine ⟨h.nodup, fun x => ?_, ?_⟩
  · rw [h.mem_iff, List.mem_append, List.mem_singleton]
    constructor
    · exact .inl
    · rintro (hx | rfl)
      · exact hx
      · exact htext
  · refine h.ordered.imp_of_mem fun hx hy hless => ?_
    rwa [List.idxOf_append_of_mem ((h.mem_iff _).mp hx), List.idxOf_append_of_mem ((h.mem_iff _).mp hy)]

/-- A text that was not used before comes last. -/
theorem FirstUses.append {used table : List String} (h : FirstUses used table) {text : String}
    (htext : text ∉ used) : FirstUses (used ++ [text]) (table ++ [text]) := by
  refine ⟨?_, fun x => ?_, ?_⟩
  · refine List.nodup_append.mpr ⟨h.nodup, by simp, ?_⟩
    rintro x hx y hy rfl
    obtain rfl := List.mem_singleton.mp hy
    exact htext ((h.mem_iff x).mp hx)
  · rw [List.mem_append, List.mem_append, h.mem_iff]
  · refine List.pairwise_append.mpr ⟨?_, by simp, ?_⟩
    · refine h.ordered.imp_of_mem fun hx hy hless => ?_
      rwa [List.idxOf_append_of_mem ((h.mem_iff _).mp hx),
        List.idxOf_append_of_mem ((h.mem_iff _).mp hy)]
    · intro x hx y hy
      obtain rfl := List.mem_singleton.mp hy
      have hx := (h.mem_iff x).mp hx
      rw [List.idxOf_append_of_mem hx, List.idxOf_append_of_notMem htext]
      exact Nat.lt_add_right _ (List.idxOf_lt_length_iff.mpr hx)

/-- **Interning a text** keeps what is in the table, and answers the place of the text. -/
theorem internText_spec (table : List String) (text : String) :
    table <+: (internText table text).1 ∧
      (internText table text).1[(internText table text).2]? = some text ∧
      ∀ used, FirstUses used table → FirstUses (used ++ [text]) (internText table text).1 := by
  unfold internText
  cases hindex : table.idxOf? text with
  | some index =>
    obtain ⟨hlt, hget, _⟩ := List.idxOf?_eq_some_iff.mp hindex
    refine ⟨List.prefix_refl _, List.getElem?_eq_some_iff.mpr ⟨hlt, hget⟩, fun used h => ?_⟩
    exact h.again ((h.mem_iff text).mp (hget ▸ List.getElem_mem hlt))
  | none =>
    have hfresh := List.idxOf?_eq_none_iff.mp hindex
    refine ⟨List.prefix_append _ _, List.getElem?_concat_length, fun used h => ?_⟩
    exact h.append fun hused => hfresh ((h.mem_iff text).mpr hused)

/-! ## What calls keep -/

namespace RecordDraft

/-- Everything that `d` has is at the front of what `d'` has. -/
structure Extends (d d' : RecordDraft) : Prop where
  symbols : d.symbols <+: d'.symbols
  literals : d.literals <+: d'.literals
  children : d.children <+: d'.children
  emitted : d.emitted <+: d'.emitted

theorem Extends.refl (d : RecordDraft) : d.Extends d :=
  ⟨List.prefix_refl _, List.prefix_refl _, List.prefix_refl _, List.prefix_refl _⟩

theorem Extends.trans {d₁ d₂ d₃ : RecordDraft} (h : d₁.Extends d₂) (h' : d₂.Extends d₃) :
    d₁.Extends d₃ :=
  ⟨h.symbols.trans h'.symbols, h.literals.trans h'.literals, h.children.trans h'.children,
    h.emitted.trans h'.emitted⟩

theorem emitted_emit (d : RecordDraft) (i : Instruction) : (d.emit i).emitted = d.emitted ++ [i] := by
  simp [emitted, emit, push, CodeItem.instruction?]

/-- **One call** adds to the ends of what is there. -/
theorem extends_perform (d : RecordDraft) (call : DraftCall) : d.Extends (call.perform d) := by
  cases call with
  | emit i =>
    exact ⟨List.prefix_refl _, List.prefix_refl _, List.prefix_refl _,
      emitted_emit d i ▸ List.prefix_append _ _⟩
  | send op a name argc =>
    refine ⟨(internText_spec d.symbols name).1, List.prefix_refl _, List.prefix_refl _, ?_⟩
    exact emitted_emit (d.symbol name).1 _ ▸ List.prefix_append d.emitted _
  | symbol name =>
    exact ⟨(internText_spec d.symbols name).1, List.prefix_refl _, List.prefix_refl _,
      List.prefix_refl _⟩
  | literal text =>
    exact ⟨List.prefix_refl _, (internText_spec d.literals text).1, List.prefix_refl _,
      List.prefix_refl _⟩
  | child c =>
    exact ⟨List.prefix_refl _, List.prefix_refl _, List.prefix_append _ _, List.prefix_refl _⟩

theorem performAll_append_cons (d : RecordDraft) (before : List DraftCall) (call : DraftCall)
    (after : List DraftCall) :
    d.performAll (before ++ call :: after) = (call.perform (d.performAll before)).performAll after := by
  unfold performAll
  rw [List.foldl_append, List.foldl_cons]

theorem extends_performAll (d : RecordDraft) (calls : List DraftCall) :
    d.Extends (d.performAll calls) := by
  induction calls generalizing d with
  | nil => exact .refl d
  | cons call calls ih => exact (extends_perform d call).trans (ih (call.perform d))

/-- What a draft holds after the calls `calls`, and nothing else. -/
structure MadeBy (calls : List DraftCall) (d : RecordDraft) : Prop where
  symbols : FirstUses (calls.flatMap DraftCall.symbols) d.symbols
  literals : FirstUses (calls.flatMap DraftCall.literals) d.literals
  children : d.children = calls.flatMap DraftCall.children
  instructions : ∀ item ∈ d.code.toList, item.instruction?.isSome

theorem MadeBy.fresh (registers locals catchHandlers : UInt16) :
    MadeBy [] { registers, locals, catchHandlers } :=
  ⟨.nil, .nil, rfl, by simp⟩

theorem isSome_of_mem_push {code : Array CodeItem} (h : ∀ item ∈ code.toList, item.instruction?.isSome)
    (i : Instruction) : ∀ item ∈ (code.push (.instruction i)).toList, item.instruction?.isSome := by
  intro item hitem
  rw [Array.toList_push, List.mem_append, List.mem_singleton] at hitem
  rcases hitem with hitem | rfl
  · exact h item hitem
  · rfl

/-- **One call** adds what it uses. -/
theorem MadeBy.perform {calls : List DraftCall} {d : RecordDraft} (h : d.MadeBy calls)
    (call : DraftCall) : (call.perform d).MadeBy (calls ++ [call]) := by
  obtain ⟨hsymbols, hliterals, hchildren, hinstructions⟩ := h
  constructor
  · rw [List.flatMap_append, List.flatMap_singleton]
    cases call with
    | send op a name argc => exact (internText_spec d.symbols name).2.2 _ hsymbols
    | symbol name => exact (internText_spec d.symbols name).2.2 _ hsymbols
    | _ => exact (List.append_nil _).symm ▸ hsymbols
  · rw [List.flatMap_append, List.flatMap_singleton]
    cases call with
    | literal text => exact (internText_spec d.literals text).2.2 _ hliterals
    | _ => exact (List.append_nil _).symm ▸ hliterals
  · rw [List.flatMap_append, List.flatMap_singleton, ← hchildren]
    cases call with
    | child c => rfl
    | _ => exact (List.append_nil _).symm
  · cases call with
    | emit i => exact isSome_of_mem_push hinstructions i
    | send op a name argc => exact isSome_of_mem_push hinstructions _
    | _ => exact hinstructions

theorem MadeBy.performAll {calls : List DraftCall} {d : RecordDraft} (h : d.MadeBy calls)
    (more : List DraftCall) : (d.performAll more).MadeBy (calls ++ more) := by
  induction more generalizing calls d with
  | nil => rwa [List.append_nil]
  | cons call more ih =>
    have hall := ih (h.perform call)
    rwa [List.append_assoc] at hall

end RecordDraft

/-! ## Resolution -/

/-- A place that was answered as a byte is still a place of the longer row, if that row has not more
places than a byte can count. -/
theorem getElem?_of_answer {α : Type} {row longer : List α} {place : Nat} {x : α}
    (h : row[place]? = some x) (hlonger : row <+: longer) (hfew : longer.length ≤ 256) :
    longer[(UInt8.ofNat place).toNat]? = some x := by
  obtain ⟨more, rfl⟩ := hlonger
  obtain ⟨hlt, _⟩ := List.getElem?_eq_some_iff.mp h
  rw [List.length_append] at hfew
  rw [UInt8.toNat_ofNat', Nat.mod_eq_of_lt (by omega), List.getElem?_append_left hlt, h]

namespace RecordDraft

/-- Where an emitted instruction stands in the loaded code. -/
theorem instructions_of_extends {d final : RecordDraft} {i : Instruction} (hown : final.OwnStorable)
    (h : (d.emit i).Extends final) :
    final.toRecord.code.instructions[d.emitted.length]? = some i.canonical := by
  have hcode : final.toRecord.code.instructions = final.emitted.map Instruction.canonical := by
    rw [toRecord_eq]
    dsimp only
    rw [loadedCode_eq hown, Code.instructions_ofInstructions]
  obtain ⟨more, hmore⟩ := h.emitted
  rw [hcode, ← hmore, emitted_emit, List.append_assoc, List.map_append,
    List.getElem?_append_right (by simp)]
  simp

theorem toBytes_ofRecord_length (d : RecordDraft) :
    (ImageDraft.ofRecord d).toBytes.length = 40 + d.encode.length := by
  rw [ImageDraft.length_toBytes]
  have hbody : (ImageDraft.ofRecord d).bodyBytes = Part.encode (.record d) ++ ImageDraft.endBytes := by
    simp [ImageDraft.bodyBytes, ImageDraft.ofRecord]
  rw [hbody, List.length_append, Part.length_encode_record,
    show ImageDraft.endBytes.length = 8 from rfl, show Format.headerSize = 20 from rfl]
  omega

/-- The image of a storable record is loaded as that record. -/
theorem ofBytes_ofRecord {d : RecordDraft} (h : d.Storable)
    (hsize : (ImageDraft.ofRecord d).toBytes.length < 2 ^ 32) :
    Image.ofBytes (ImageDraft.ofRecord d).toBytes = .ok (ImageDraft.ofRecord d).toImage := by
  refine (Image.ofBytes_eq_ok_iff _ _).mpr (ImageDraft.imageOf_toBytes (fun p hp => ?_) hsize)
  obtain rfl := List.mem_singleton.mp hp
  exact h

/-- A nested record is shorter than the one it is nested in. -/
theorem length_encode_le_of_mem {d c : RecordDraft} (hc : c ∈ d.children) :
    c.encode.length ≤ d.encode.length := by
  have hle : c.encode.length ≤ (d.children.flatMap encode).length :=
    (List.sublist_flatten_of_mem (List.mem_map_of_mem hc)).length_le
  rw [encode_eq d, List.length_append]
  omega

/-- **Each call resolves** in the record of a draft that was made from it by more calls. -/
theorem resolvesIn_toRecord {d final : RecordDraft} {call : DraftCall}
    (hextends : (call.perform d).Extends final) (hstorable : final.Storable)
    (hsize : (ImageDraft.ofRecord final).toBytes.length < 2 ^ 32)
    (hsymbols : final.symbols.length ≤ 256) (hliterals : final.literals.length ≤ 256)
    (hchildren : final.children.length ≤ 256) : call.ResolvesIn final.toRecord d := by
  obtain ⟨hown, hnested⟩ := hstorable
  have hrecord := toRecord_eq final
  cases call with
  | emit i => exact instructions_of_extends hown hextends
  | send op a name argc =>
    intro hshape
    have hplaced := instructions_of_extends (d := (d.symbol name).1) hown hextends
    refine ⟨_, hplaced, ?_⟩
    simp only [Instruction.canonical, hshape, UInt8.toUInt8_toUInt16, UInt8.toNat_toUInt16, true_and]
    rw [hrecord]
    exact getElem?_of_answer (internText_spec d.symbols name).2.1 hextends.symbols hsymbols
  | symbol name =>
    show final.toRecord.symbols[_]? = some name
    rw [hrecord]
    exact getElem?_of_answer (internText_spec d.symbols name).2.1 hextends.symbols hsymbols
  | literal text =>
    show final.toRecord.literals[_]? = some text
    rw [hrecord]
    exact getElem?_of_answer (internText_spec d.literals text).2.1 hextends.literals hliterals
  | child c =>
    have hplace : (d.children ++ [c])[d.children.length]? = some c := List.getElem?_concat_length
    have hchild := getElem?_of_answer hplace hextends.children hchildren
    have hmem : c ∈ final.children := List.mem_of_getElem? hchild
    have hshorter := length_encode_le_of_mem hmem
    rw [toBytes_ofRecord_length] at hsize
    have hload := ofBytes_ofRecord (hnested c hmem) (by rw [toBytes_ofRecord_length]; omega)
    refine ⟨_, c.toRecord, hload, rfl, ?_⟩
    rw [hrecord]
    show (final.children.map toRecord)[_]? = some c.toRecord
    rw [List.getElem?_map]
    exact congrArg (Option.map toRecord) hchild

/-- A draft made by calls is storable, if what the calls use is. -/
theorem MadeBy.storable {calls : List DraftCall} {d : RecordDraft} (h : d.MadeBy calls)
    (htexts : ∀ call ∈ calls, ∀ text ∈ call.symbols ++ call.literals, StorableText text)
    (hchildren : ∀ call ∈ calls, ∀ c ∈ call.children, c.Storable)
    (hsymbolCount : d.symbols.length ≤ 256) (hliteralCount : d.literals.length ≤ 256)
    (hchildCount : d.children.length ≤ 256) : d.Storable := by
  refine .intro ⟨h.instructions, fun text ht => ?_, fun text ht => ?_, by omega, by omega, by omega⟩
    fun c hc => ?_
  · obtain ⟨call, hcall, ht⟩ := List.mem_flatMap.mp ((h.literals.mem_iff text).mp ht)
    exact htexts call hcall text (List.mem_append_right _ ht)
  · obtain ⟨call, hcall, ht⟩ := List.mem_flatMap.mp ((h.symbols.mem_iff text).mp ht)
    exact htexts call hcall text (List.mem_append_left _ ht)
  · rw [h.children] at hc
    obtain ⟨call, hcall, hc⟩ := List.mem_flatMap.mp hc
    exact hchildren call hcall c hc

end RecordDraft

/-- **Indices mean what they were asked for.**  Let a record be put together by any calls that use at
most 256 symbols, 256 string literals and 256 nested records, all of which can be stored.  Its image is
loaded as one record.  The tables of that record list what the calls used, each text once and in the
order of first use.  And every call has been answered rightly: the index of a symbol, of a literal or of
a nested record leads to that symbol, to that literal and to what the nested record is loaded as by
itself; the symbol operand of an emitted send leads to its name.  -/
theorem draft_indices_resolve (registers locals catchHandlers : UInt16) (calls : List DraftCall)
    (htexts : ∀ call ∈ calls, ∀ text ∈ call.symbols ++ call.literals, StorableText text)
    (hchildren : ∀ call ∈ calls, ∀ c ∈ call.children, c.Storable)
    (hsymbolCount : (calls.flatMap DraftCall.symbols).dedup.length ≤ 256)
    (hliteralCount : (calls.flatMap DraftCall.literals).dedup.length ≤ 256)
    (hchildCount : (calls.flatMap DraftCall.children).length ≤ 256)
    (hsize : (ImageDraft.ofRecord
      (RecordDraft.performAll { registers, locals, catchHandlers } calls)).toBytes.length < 2 ^ 32) :
    ∃ image record,
      Image.ofBytes (ImageDraft.ofRecord
        (RecordDraft.performAll { registers, locals, catchHandlers } calls)).toBytes = .ok image ∧
      image.records = [record] ∧
      FirstUses (calls.flatMap DraftCall.symbols) record.symbols ∧
      FirstUses (calls.flatMap DraftCall.literals) record.literals ∧
      ∀ before call after, calls = before ++ call :: after →
        call.ResolvesIn record
          (RecordDraft.performAll { registers, locals, catchHandlers } before) := by
  have hmade := (RecordDraft.MadeBy.fresh registers locals catchHandlers).performAll calls
  rw [List.nil_append] at hmade
  generalize hfinal : RecordDraft.performAll { registers, locals, catchHandlers } calls = final at *
  rw [← hmade.symbols.length_eq] at hsymbolCount
  rw [← hmade.literals.length_eq] at hliteralCount
  rw [← hmade.children] at hchildCount
  have hstorable := hmade.storable htexts hchildren hsymbolCount hliteralCount hchildCount
  refine ⟨_, final.toRecord, RecordDraft.ofBytes_ofRecord hstorable hsize, rfl, ?_, ?_, ?_⟩
  · rw [RecordDraft.toRecord_eq]
    exact hmade.symbols
  · rw [RecordDraft.toRecord_eq]
    exact hmade.literals
  · rintro before call after rfl
    refine RecordDraft.resolvesIn_toRecord ?_ hstorable hsize hsymbolCount hliteralCount hchildCount
    rw [← hfinal, RecordDraft.performAll_append_cons]
    exact RecordDraft.extends_performAll _ after

/-- Names, a literal and nested records that are asked for in turn, most of them twice. -/
def mixedCalls : List DraftCall :=
  [.symbol "puts", .child { registers := 2, code := #[.instruction { op := .stop }] },
   .send .send 1 "size" 0, .literal "é", .symbol "size", .send .selfSend 2 "puts" 1, .literal "é",
   .child {}]

/-- The second send is the second instruction, and its operand leads back to the first symbol. -/
theorem draft_indices_resolve_mixedCalls :
    ∃ image record,
      Image.ofBytes (ImageDraft.ofRecord
        (RecordDraft.performAll { registers := 4 } mixedCalls)).toBytes = .ok image ∧
      image.records = [record] ∧ record.symbols.Nodup ∧
      ∃ i, record.code.instructions[1]? = some i ∧ i.op = .selfSend ∧
        record.symbols[i.b.toNat]? = some "puts" := by
  have hleaf : ∀ d : RecordDraft, d.OwnStorable → d.children = [] → d.Storable := by
    intro d hown hnone
    refine .intro hown fun c hc => ?_
    rw [hnone] at hc
    cases hc
  have hchildren : ∀ call ∈ mixedCalls, ∀ c ∈ call.children, c.Storable := by
    intro call hcall c hc
    have hc : c ∈ mixedCalls.flatMap DraftCall.children := List.mem_flatMap.mpr ⟨call, hcall, hc⟩
    simp only [mixedCalls, DraftCall.children, List.flatMap_cons, List.flatMap_nil, List.nil_append,
      List.append_nil, List.cons_append, List.mem_cons, List.not_mem_nil, or_false] at hc
    rcases hc with rfl | rfl
    · exact hleaf _ ⟨by decide, by decide, by decide, by decide, by decide, by decide⟩ rfl
    · exact hleaf _ ⟨by decide, by decide, by decide, by decide, by decide, by decide⟩ rfl
  obtain ⟨image, record, hload, hrecords, hsymbols, _, hall⟩ :=
    draft_indices_resolve 4 0 0 mixedCalls (by decide) hchildren (by decide) (by decide) (by decide)
      (by decide +kernel)
  obtain ⟨i, hplaced, hop, _, _, hname⟩ :=
    hall (mixedCalls.take 5) (.send .selfSend 2 "puts" 1) (mixedCalls.drop 6) rfl rfl
  have hcount : (RecordDraft.performAll { registers := 4 } (mixedCalls.take 5)).emitted.length = 1 := by
    decide +kernel
  rw [hcount] at hplaced
  exact ⟨image, record, hload, hrecords, hsymbols.nodup, i, hplaced, hop, hname⟩

end Rite

import Mathlib.Data.List.TakeWhile
import Rite.Proofs.Decoding
import Rite.Proofs.ForwardCode
import Rite.Proofs.Utf8

/-!
# Loading is bounded by the input

An image says of itself how many records, literals and symbols it has, and none of these counts can be
trusted.  What bounds the work of the loader is the number of bytes that it is given: every record takes
at least twenty of them before its first child, every section at least eight, every instruction at least
one.

So there are three things to say.  Whatever the loader reads before it goes deeper or on to the next
round has taken bytes (`Reading.Progress`).  The loader recurs on a depth and on numbers of rounds, which
it sets to the number of bytes that are left; with more of them it would do exactly the same, so they are
never what ends a load (`Reading.recordWithin_eq`, `Reading.sectionsWithin_eq`).  And what has been loaded
cannot be larger than the input: `Format.ImageOf.sum_le` counts the bytes that each record and each
section must have had.
-/

namespace Rite

variable {α β : Type}

namespace Reading

/-! ## Depth and rounds -/

theorem Reads.remaining_le {r : Reading α} {G : Nat → Bytes → α → Prop} (h : Reads r G) {c c' : Cursor}
    {x : α} (hread : r c = .ok x c') : c'.remaining ≤ c.remaining := by
  obtain ⟨b, rest, hrest, rfl, _⟩ := (h _ _ _ _).mp hread
  show rest.length ≤ c.rest.length
  rw [show c.rest = b ++ rest from hrest, List.length_append]
  exact Nat.le_add_left _ _

/-- Two continuations of one reading need to agree only on what the reading can give. -/
theorem bind_congr {r : Reading α} {f g : α → Reading β} {c : Cursor}
    (h : ∀ x c', r c = .ok x c' → f x c' = g x c') : (r >>= f) c = (r >>= g) c := by
  change EStateM.bind r f c = EStateM.bind r g c
  unfold EStateM.bind
  cases hread : r c with
  | ok x c' => exact h x c' hread
  | error e c' => rfl

theorem bind_congr_left {r r' : Reading α} {c : Cursor} (h : r c = r' c) (f : α → Reading β) :
    (r >>= f) c = (r' >>= f) c := by
  change EStateM.bind r f c = EStateM.bind r' f c
  unfold EStateM.bind
  rw [h]

/-- Items that agree wherever at most `n` bytes are left agree in rows. -/
theorem times_congr {item item' : Reading α} {G : Nat → Bytes → α → Prop} (hreads : Reads item G)
    {n : Nat} (h : ∀ c, c.remaining ≤ n → item c = item' c) (count : Nat) {c : Cursor}
    (hc : c.remaining ≤ n) : times count item c = times count item' c := by
  induction count generalizing c with
  | zero => rfl
  | succ count ih =>
    have hrest : times (count + 1) item c =
        (item >>= fun x => times count item' >>= fun xs => pure (x :: xs)) c :=
      bind_congr fun x c' hread =>
        bind_congr_left (ih (Nat.le_trans (hreads.remaining_le hread) hc)) _
    rw [hrest]
    exact bind_congr_left (h c hc) _

theorem remaining_of_recordHead {c c' : Cursor} {head : RecordHead}
    (h : recordHead c = .ok head c') : c'.remaining + 16 = c.remaining := by
  obtain ⟨b, rest, hrest, rfl, declared, locals, registers, children, catches, codeSize, rfl, _⟩ :=
    (reads_recordHead _ _ _ _).mp h
  have hlength : c.rest.length = _ := congrArg List.length hrest
  simp only [List.length_append, BigEndian.length_word16, BigEndian.length_word32] at hlength
  show rest.length + 16 = c.rest.length
  omega

theorem remaining_of_sectionHead {c c' : Cursor} {head : SectionHead}
    (h : sectionHead c = .ok head c') : c'.remaining + 8 = c.remaining := by
  obtain ⟨b, rest, hrest, rfl, name, declared, hname, rfl, _⟩ := (reads_sectionHead _ _ _ _).mp h
  have hlength : c.rest.length = _ := congrArg List.length hrest
  simp only [List.length_append, hname, BigEndian.length_word32] at hlength
  show rest.length + 8 = c.rest.length
  omega

theorem remaining_lt_of_instruction {c c' : Cursor} {i : Instruction}
    (h : instruction c = .ok i c') : c'.remaining < c.remaining := by
  obtain ⟨b, rest, hrest, rfl, _, rfl⟩ := (reads_instruction _ _ _ _).mp h
  have hlength : c.rest.length = _ := congrArg List.length hrest
  have hpos := i.encodedSize_pos
  rw [List.length_append, i.length_encode] at hlength
  show rest.length < c.rest.length
  omega

/-- One level more makes no difference to a record that has as many levels as bytes. -/
theorem recordWithin_succ {n : Nat} {c : Cursor} (hc : c.remaining ≤ n) :
    recordWithin (n + 1) c = recordWithin n c := by
  induction n generalizing c with
  | zero =>
    -- Nothing is left, and both say that the header is missing.
    obtain ⟨offset, rest⟩ := c
    obtain rfl : rest = [] := List.length_eq_zero_iff.mp (Nat.le_zero.mp hc)
    rfl
  | succ n ih =>
    refine bind_congr fun start c₁ hstart => bind_congr fun head c₂ hhead => ?_
    refine bind_congr fun code c₃ hcode => bind_congr fun literals c₄ hliterals => ?_
    refine bind_congr fun symbols c₅ hsymbols => bind_congr fun stop c₆ hstop => ?_
    -- The header is gone, so the children have fewer bytes than their parent had.
    have h₁ := reads_offset.remaining_le hstart
    have h₂ := remaining_of_recordHead hhead
    have h₃ := (reads_code _).remaining_le hcode
    have h₄ := reads_literalPool.remaining_le hliterals
    have h₅ := reads_symbolTable.remaining_le hsymbols
    have h₆ := reads_offset.remaining_le hstop
    exact bind_congr_left
      (times_congr (reads_recordWithin (n + 1)) (fun _ => ih) head.childCount (by omega)) _

/-- **The depth of a tree is bounded by the input.**  Any depth from the number of remaining bytes on
gives the same result, be it a record or an error. -/
theorem recordWithin_eq {n : Nat} {c : Cursor} (hn : c.remaining ≤ n) :
    recordWithin n c = record c := by
  induction n, hn using Nat.le_induction with
  | base => rfl
  | succ n hn ih => rw [recordWithin_succ hn, ih]

/-- One round more makes no difference to sections that have as many rounds as bytes. -/
theorem sectionsWithin_succ {n : Nat} {c : Cursor} (hc : c.remaining ≤ n) :
    sectionsWithin (n + 1) c = sectionsWithin n c := by
  induction n generalizing c with
  | zero =>
    obtain ⟨offset, rest⟩ := c
    obtain rfl : rest = [] := List.length_eq_zero_iff.mp (Nat.le_zero.mp hc)
    rfl
  | succ n ih =>
    refine bind_congr fun finished c₁ hfinished => ?_
    obtain ⟨_, rfl⟩ := EStateM.Result.ok.inj hfinished
    by_cases hend : finished = true
    · rw [if_pos hend, if_pos hend]
    rw [if_neg hend, if_neg hend]
    refine bind_congr fun start c₂ hstart => bind_congr fun head c₃ hhead => ?_
    have h₂ := reads_offset.remaining_le hstart
    have h₃ := remaining_of_sectionHead hhead
    by_cases hrecord : head.name = Format.recordSection
    · rw [if_pos hrecord, if_pos hrecord]
      refine bind_congr fun _ c₄ htag => bind_congr fun root c₅ hroot => ?_
      refine bind_congr fun stop c₆ hstop => ?_
      have h₄ := (reads_skip 4).remaining_le htag
      have h₅ := reads_record.remaining_le hroot
      have h₆ := reads_offset.remaining_le hstop
      exact bind_congr_left (ih (by omega)) _
    rw [if_neg hrecord, if_neg hrecord]
    by_cases hlocals : head.name = Format.localsSection
    · rw [if_pos hlocals, if_pos hlocals]
      refine bind_congr fun _ c₄ hskip => ?_
      have h₄ := (reads_skip _).remaining_le hskip
      exact ih (by omega)
    rw [if_neg hlocals, if_neg hlocals]

/-- **The number of sections is bounded by the input.** -/
theorem sectionsWithin_eq {n : Nat} {c : Cursor} (hn : c.remaining ≤ n) :
    sectionsWithin n c = sectionsWithin c.remaining c := by
  induction n, hn using Nat.le_induction with
  | base => rfl
  | succ n hn ih => rw [sectionsWithin_succ hn, ih]

end Reading

/-- **The number of instructions is bounded by the section.** -/
theorem Code.scanFrom_eq {bytes : Bytes} {rounds : Nat} (hrounds : bytes.length ≤ rounds) (base : Nat) :
    Code.scanFrom base bytes.length rounds (.start bytes base) = Code.scan bytes base := by
  obtain ⟨is, done, rest, rfl, his, hblocked⟩ := Code.exists_blocked bytes
  have hrounds := Code.scanFrom_blocked base (done ++ rest).length his hblocked rounds hrounds 0
  have hlength := Code.scanFrom_blocked base (done ++ rest).length his hblocked _ (Nat.le_refl _) 0
  exact hrounds.trans hlength.symm

/-! ## The bytes of what was loaded -/

mutual

/-- Bytes of code in a tree of records. -/
def Record.codeTotal : Record → Nat
  | ⟨_, _, _, code, _, _, children⟩ => code.size + Record.forestCodeTotal children

/-- Bytes of code in a list of trees. -/
def Record.forestCodeTotal : List Record → Nat
  | [] => 0
  | record :: records => record.codeTotal + Record.forestCodeTotal records

end

theorem Record.treeSize_pos (r : Record) : 0 < r.treeSize := by
  obtain ⟨⟩ := r
  rw [Record.treeSize]
  omega

namespace Format

open BigEndian (word16 word32)

/-- A record's own bytes hold its header, the lengths of its tables and its code. -/
theorem RecordOwn.codeSize_le {own : Bytes} {declared : UInt32} {r : Record}
    (h : RecordOwn own declared r) : 20 + r.code.size ≤ own.length := by
  obtain ⟨childCount, codeSize, is, code, pool, table, rfl, _, _, his, hcode, hpool, htable⟩ := h
  have hsize : r.code.size = code.length := by
    rw [hcode, his.2]
    rfl
  have hpool := hpool.length
  have htable := htable.length
  simp only [List.length_append, BigEndian.length_word16, BigEndian.length_word32]
  omega

/-- A row of trees takes the bytes of its trees. -/
theorem Row.forest_le {G : Nat → Bytes → Record × List Discrepancy → Prop} {base : Nat} {b : Bytes}
    {kids : List (Record × List Discrepancy)} (h : Row G base b kids)
    (htree : ∀ base b x, G base b x → 20 * x.1.treeSize + x.1.codeTotal ≤ b.length) :
    20 * Record.forestSize (kids.map (·.1)) + Record.forestCodeTotal (kids.map (·.1)) ≤ b.length := by
  induction h with
  | nil => exact Nat.le_refl 0
  | cons hfirst _ ih =>
    have hfirst := htree _ _ _ hfirst
    rw [List.map_cons, Record.forestSize, Record.forestCodeTotal, List.length_append]
    omega

/-- **A tree of records takes at least twenty bytes for each of its records, and its code.** -/
theorem RecordWithin.tree_le {depth base : Nat} {b : Bytes} {x : Record × List Discrepancy}
    (h : RecordWithin depth base b x) : 20 * x.1.treeSize + x.1.codeTotal ≤ b.length := by
  induction depth generalizing base b x with
  | zero => exact h.elim
  | succ depth ih =>
    obtain ⟨⟨locals, registers, catches, code, literals, symbols, children⟩, notes⟩ := x
    obtain ⟨own, inner, declared, kids, rfl, hown, hrow, hkids, _⟩ := h
    have hcode : 20 + code.size ≤ own.length := hown.codeSize_le
    have hinner := hrow.forest_le fun _ _ _ => ih
    rw [show kids.map (·.1) = children from hkids.symm] at hinner
    rw [Record.treeSize, Record.codeTotal, List.length_append]
    omega

/-- A root record has a section header and a format tag in front of it. -/
theorem SectionsAt.sum_le {base : Nat} {b : Bytes} {roots : List Record} {notes : List Discrepancy}
    (h : SectionsAt base b roots notes) :
    (roots.map fun root => 12 + 20 * root.treeSize + root.codeTotal).sum ≤ b.length := by
  induction h with
  | done => exact Nat.le_refl 0
  | stop => exact Nat.zero_le _
  | locals _ _ ih =>
    simp only [List.length_append]
    omega
  | record hformat hroot _ ih =>
    have htree := hroot.tree_le
    simp only [List.map_cons, List.sum_cons, List.length_append, hformat,
      BigEndian.length_word32, show recordSection.length = 4 from rfl] at htree ⊢
    omega

theorem ImageOf.sum_le {bytes : Bytes} {image : Image} (h : ImageOf bytes image) :
    headerSize + (image.records.map fun root => 12 + 20 * root.treeSize + root.codeTotal).sum ≤
      bytes.length := by
  obtain ⟨body, notes, rfl, hcompiler, hversion, hsections, _⟩ := h
  have hbody := hsections.sum_le
  simp only [List.length_append, BigEndian.length_word16, BigEndian.length_word32, hcompiler, hversion,
    show magic.length = 4 from rfl, headerSize]
  omega

end Format

/-- How many bytes it takes from `c` to `c'` to read what the loader recurs after: the header of a record
before the records inside it, a record before the next one, the header of a section before the next section,
an instruction before the next one. -/
structure Reading.Progress (c c' : Cursor) : Prop where
  recordHead : ∀ head, Reading.recordHead c = .ok head c' → c'.remaining + 16 = c.remaining
  record : ∀ depth x, Reading.recordWithin depth c = .ok x c' → c'.remaining + 20 ≤ c.remaining
  sectionHead : ∀ head, Reading.sectionHead c = .ok head c' → c'.remaining + 8 = c.remaining
  instruction : ∀ i, Reading.instruction c = .ok i c' → c'.remaining < c.remaining

theorem Reading.progress (c c' : Cursor) : Progress c c' where
  recordHead _ := remaining_of_recordHead
  record depth x h := by
    obtain ⟨b, rest, hrest, rfl, hrecord⟩ := (reads_recordWithin depth _ _ _ _).mp h
    have htree := hrecord.tree_le
    have hpos := x.1.treeSize_pos
    have hlength : c.rest.length = _ := congrArg List.length hrest
    rw [List.length_append] at hlength
    show rest.length + 20 ≤ c.rest.length
    omega
  sectionHead _ := remaining_of_sectionHead
  instruction _ := remaining_lt_of_instruction

namespace Format

/-! ## Texts -/

theorem TextEntry.nul_not_mem {b : Bytes} {text : String} (h : TextEntry b text) :
    '\x00' ∉ text.toList := by
  obtain ⟨_, slot, _, _, _, rfl⟩ := h
  apply Utf8.nul_not_mem_decode
  intro hzero
  simpa using List.mem_takeWhile_imp hzero

theorem LiteralEntry.nul_not_mem {b : Bytes} {text : String} (h : LiteralEntry b text) :
    '\x00' ∉ text.toList := by
  obtain ⟨_, _, hentry⟩ := h
  exact hentry.nul_not_mem

theorem TableOf.exists_of_mem {G : Bytes → String → Prop} {b : Bytes} {texts : List String}
    (h : TableOf G b texts) {text : String} (ht : text ∈ texts) : ∃ b', G b' text := by
  obtain ⟨_, _, _, _, hrow⟩ := h
  obtain ⟨_, b', hentry⟩ := hrow.exists_of_mem ht
  exact ⟨b', hentry⟩

theorem RecordOwn.nul_not_mem {own : Bytes} {declared : UInt32} {r : Record}
    (h : RecordOwn own declared r) {text : String} (ht : text ∈ r.literals ++ r.symbols) :
    '\x00' ∉ text.toList := by
  obtain ⟨_, _, _, _, _, _, _, _, _, _, _, hpool, htable⟩ := h
  rcases List.mem_append.mp ht with ht | ht
  · obtain ⟨_, hentry⟩ := hpool.exists_of_mem ht
    exact hentry.nul_not_mem
  · obtain ⟨_, hentry⟩ := htable.exists_of_mem ht
    exact hentry.nul_not_mem

end Format

/-- **Loading is bounded by the input.**  Whatever the input declares, loading comes to an end within
it: each record, section and instruction takes bytes, and the depth of records and the numbers of
sections and of instructions by which the loader recurs could be any numbers from that of the remaining
bytes on, and nothing would be different, neither a record nor an error.  An image that was loaded is no
larger than the input: header, section headers, twenty bytes for each record at any depth and the code
of all of them fit into it.  And no text in it has a NUL. -/
theorem loading_bounded (bs : Bytes) :
    (∀ c c' : Cursor, Reading.Progress c c') ∧
    (∀ (c : Cursor) (n : Nat), c.remaining ≤ n →
      Reading.recordWithin n c = Reading.record c ∧
      Reading.sectionsWithin n c = Reading.sectionsWithin c.remaining c) ∧
    (∀ (bytes : Bytes) (base n : Nat), bytes.length ≤ n →
      Code.scanFrom base bytes.length n (.start bytes base) = Code.scan bytes base) ∧
    ∀ image, Image.ofBytes bs = .ok image →
      20 + (image.records.map fun root => 12 + 20 * root.treeSize + root.codeTotal).sum ≤ bs.length ∧
      ∀ root ∈ image.records, ∀ r : Record, r.Within root →
        ∀ text ∈ r.literals ++ r.symbols, '\x00' ∉ text.toList := by
  refine ⟨Reading.progress, fun c n hn => ⟨Reading.recordWithin_eq hn, Reading.sectionsWithin_eq hn⟩,
    fun bytes base n hn => Code.scanFrom_eq hn base, fun image hload => ⟨?_, ?_⟩⟩
  · exact ((Image.ofBytes_eq_ok_iff bs image).mp hload).sum_le
  · intro root hroot r hr text ht
    obtain ⟨own, declared, hown⟩ := Image.exists_own_of_ofBytes hload hroot hr
    exact hown.nul_not_mem ht

/-- An image with one record in another.  The literal of the inner one has a NUL in the middle of its
slot, and all declared sizes are zero. -/
def slackImage : Bytes :=
  Format.magic ++ List.replicate 16 0 ++ Format.recordSection ++ List.replicate 8 0 ++
    -- The outer record: one child, two bytes of code, no tables.
    (List.replicate 8 0 ++ [0, 1, 0, 0, 0, 0, 0, 2] ++ [0x11, 0x01] ++ [0, 0, 0, 0]) ++
    -- The inner record: no code, one literal, no symbols.
    (List.replicate 16 0 ++ [0, 1, 0, 0, 3, 97, 0, 98, 0] ++ [0, 0])

theorem loading_bounded_slackImage :
    ∃ image, Image.ofBytes slackImage = .ok image ∧
      image.records.map (fun root => root.children.map (·.literals)) = [[["a"]]] ∧
      20 + (image.records.map fun root => 12 + 20 * root.treeSize + root.codeTotal).sum ≤
        slackImage.length ∧
      ∀ root ∈ image.records, ∀ r : Record, r.Within root →
        ∀ text ∈ r.literals ++ r.symbols, '\x00' ∉ text.toList := by
  have hliterals : ((Image.ofBytes slackImage).toOption.map fun image =>
      image.records.map fun root => root.children.map (·.literals)) = some [[["a"]]] := by
    decide +kernel
  obtain ⟨image, hsome, hliterals⟩ := Option.map_eq_some_iff.mp hliterals
  have hload : Image.ofBytes slackImage = .ok image := by
    cases hresult : Image.ofBytes slackImage with
    | ok x => simpa [hresult, Except.toOption] using hsome
    | error e => simp [hresult, Except.toOption] at hsome
  exact ⟨image, hload, hliterals, (loading_bounded slackImage).2.2.2 image hload⟩

end Rite

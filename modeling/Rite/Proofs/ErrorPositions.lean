import Rite.Proofs.CodeCodec
import Rite.Proofs.Headers

/-!
# Load errors point at the bytes that are to blame

A load error carries offsets and bytes.  `LoadError.Blames` says what makes them right about an
input: the offset is a position of the input, what stands there is what the error names, and it is
indeed wrong.  `load_error_blames` is the main result: whenever an image fails to load, the error is
right about it.

The proof follows the cursor.  `Locates` keeps two things along every reading: the cursor shows the
part of the input that its offset says, and every error so far is right.  Code sections are the one
place where bytes are read through a cursor of their own; `Code.exists_stop_of_scanFrom` says where
such a scan stops and why.
-/

namespace Rite

variable {α β : Type}

/-! ## What errors say -/

/-- The `size` bytes from `start` on are a code section, and the position `offset` in it is reached by
decoding: the size stands in front of the section, and the bytes from `start` to `offset` are a list
of encoded instructions. -/
structure CodeSectionAt (bs : Bytes) (start size offset : Nat) : Prop where
  declared : 4 ≤ start ∧ BigEndian.slice bs (start - 4) 4 = size
  inside : start + size ≤ bs.length
  reached : start ≤ offset ∧ offset < start + size
  decoded : ∃ is, Encodes is ((bs.drop start).take (offset - start))

/-- The error is right about the input `bs`. -/
def LoadError.Blames (bs : Bytes) : LoadError → Prop
  | .truncatedInput offset needed available => offset + available = bs.length ∧ available < needed
  | .invalidMagic found => found = bs.take 4 ∧ found.length = 4 ∧ found ≠ Format.magic
  | .unknownSection offset tag =>
    (bs.drop offset).take 4 = tag ∧ tag.length = 4 ∧
      tag ∉ [Format.recordSection, Format.localsSection, Format.debugSection, Format.endSection]
  | .unsupportedSection offset tag =>
    (bs.drop offset).take 4 = tag ∧ tag = Format.debugSection
  | .unsupportedLiteralType offset tag => bs[offset]? = some tag ∧ tag ≠ 0
  | .unknownOpcode offset byte =>
    bs[offset]? = some byte ∧ 0x6A ≤ byte ∧ ∃ start size, CodeSectionAt bs start size offset
  | .codeOverrun offset declared =>
    ∃ start, CodeSectionAt bs start declared offset ∧
      ∃ op : Opcode, bs[offset]? = some op.toByte ∧ start + declared < offset + op.encodedSize
  | .layoutOverflow _ _ => False

/-- The bytes from `0x6A` on are no opcodes. -/
theorem Opcode.ofByte?_eq_none_iff (byte : UInt8) : Opcode.ofByte? byte = none ↔ 0x6A ≤ byte := by
  have hcount : Opcode.all.length = 0x6A := by decide
  unfold Opcode.ofByte?
  rw [List.getElem?_eq_none_iff, hcount, UInt8.le_iff_toNat_le]
  rfl

namespace Reading

/-! ## Readings of a fixed number of bytes -/

/-- `r` takes exactly `n` bytes if they are there, and otherwise fails for want of bytes. -/
def Takes (r : Reading α) (n : Nat) : Prop :=
  ∀ c : Cursor, (n ≤ c.remaining ∧ ∃ x, r c = .ok x ⟨c.offset + n, c.rest.drop n⟩) ∨
    (c.remaining < n ∧ ∃ offset needed available c', r c =
      .error (.truncatedInput offset needed available) c')

theorem takes_pure (x : α) : Takes (pure x) 0 := by
  intro c
  exact .inl ⟨Nat.zero_le _, x, rfl⟩

theorem takes_take (n : Nat) : Takes (take n) n := by
  intro c
  unfold Reading.take
  by_cases hheld : c.holds n = true
  · rw [if_pos hheld]
    exact .inl ⟨(c.holds_iff n).mp hheld, _, rfl⟩
  · rw [if_neg hheld]
    have hshort : c.remaining < n := Nat.lt_of_not_le fun h => hheld ((c.holds_iff n).mpr h)
    exact .inr ⟨hshort, _, _, _, _, rfl⟩

theorem Takes.bind {r : Reading α} {f : α → Reading β} {n k : Nat} (hr : Takes r n)
    (hf : ∀ x, Takes (f x) k) : Takes (r >>= f) (n + k) := by
  intro c
  change (_ ∧ ∃ y, EStateM.bind r f c = _) ∨ (_ ∧ ∃ _ _ _ _, EStateM.bind r f c = _)
  unfold EStateM.bind
  rcases hr c with ⟨hn, x, hx⟩ | ⟨hn, offset, needed, available, c', hx⟩
  · have hleft : (c.rest.drop n).length = c.remaining - n := List.length_drop
    rw [hx]
    rcases hf x ⟨c.offset + n, c.rest.drop n⟩ with ⟨hk, y, hy⟩ | ⟨hk, hy⟩
    · refine .inl ⟨?_, y, ?_⟩
      · change k ≤ (c.rest.drop n).length at hk
        omega
      · show f x _ = _
        rw [hy, List.drop_drop, Nat.add_assoc]
    · refine .inr ⟨?_, hy⟩
      change (c.rest.drop n).length < k at hk
      omega
  · rw [hx]
    exact .inr ⟨by omega, offset, needed, available, c', rfl⟩

theorem takes_u8 : Takes u8 1 := (takes_take 1).bind fun _ => takes_pure _

theorem takes_u16 : Takes u16 2 := (takes_take 2).bind fun _ => takes_pure _

theorem takes_operand8 : Takes operand8 1 := takes_u8.bind fun _ => takes_pure _

/-- The operands of an instruction take the width of its shape. -/
theorem takes_operands (op : Opcode) : Takes (operands op) op.shape.width := by
  unfold Reading.operands
  cases op.shape with
  | z => exact takes_pure _
  | b => exact takes_operand8.bind fun _ => takes_pure _
  | bb => exact takes_operand8.bind fun _ => takes_operand8.bind fun _ => takes_pure _
  | bbb =>
    exact takes_operand8.bind fun _ => takes_operand8.bind fun _ => takes_operand8.bind fun _ =>
      takes_pure _
  | bs => exact takes_operand8.bind fun _ => takes_u16.bind fun _ => takes_pure _
  | bss =>
    exact takes_operand8.bind fun _ => takes_u16.bind fun _ => takes_u16.bind fun _ => takes_pure _
  | s => exact takes_u16.bind fun _ => takes_pure _

end Reading

/-! ## Where a scan stops -/

/-- Why decoding stops in front of `rest`, at absolute offset `offset` in a section of `size`
bytes. -/
inductive Code.Stops (size offset : Nat) : Bytes → LoadError → Prop
  | unknown {byte : UInt8} {rest : Bytes} (h : Opcode.ofByte? byte = none) :
      Stops size offset (byte :: rest) (.unknownOpcode offset byte)
  | overrun {op : Opcode} {rest : Bytes} (h : rest.length < op.shape.width) :
      Stops size offset (op.toByte :: rest) (.codeOverrun offset size)

/-- A byte is not read as an instruction when it is no opcode or when operands are missing. -/
theorem Code.stops_of_instruction {c c' : Cursor} {e : LoadError} (hmore : c.atEnd = false)
    (hread : Reading.instruction c = .error e c') (size : Nat) :
    Code.Stops size c.offset c.rest (Code.sectionError c.offset size e) := by
  obtain ⟨offset, bytes⟩ := c
  cases bytes with
  | nil => cases hmore
  | cons byte rest =>
    have hbyte : Reading.u8 ⟨offset, byte :: rest⟩ = .ok byte ⟨offset + 1, rest⟩ :=
      Reading.reads_u8.accepts rfl rest
    unfold Reading.instruction at hread
    rw [Reading.bind_of_ok (Reading.offset_eq _), Reading.bind_of_ok hbyte] at hread
    cases hop : Opcode.ofByte? byte with
    | none =>
      rw [hop] at hread
      obtain ⟨rfl, _⟩ := EStateM.Result.error.inj hread
      exact .unknown hop
    | some op =>
      rw [hop] at hread
      dsimp only at hread
      rw [(Opcode.ofByte?_eq_some_iff byte op).mp hop]
      rcases Reading.takes_operands op ⟨offset + 1, rest⟩ with ⟨_, x, hx⟩ | ⟨hshort, _, _, _, _, hx⟩
      · rw [hx] at hread
        cases hread
      · rw [hx] at hread
        obtain ⟨rfl, _⟩ := EStateM.Result.error.inj hread
        exact .overrun hshort

/-- **Where a scan stops.**  The bytes before the error are a list of encoded instructions, and the
error is about what comes next. -/
theorem Code.exists_stop_of_scanFrom {base size rounds : Nat} {c : Cursor} {placed : List Placed}
    {e : LoadError} (hscan : Code.scanFrom base size rounds c = (placed, some e)) :
    ∃ is done rest, c.rest = done ++ rest ∧ Encodes is done ∧
      Code.Stops size (c.offset + done.length) rest e := by
  induction rounds generalizing c placed with
  | zero => cases hscan
  | succ rounds ih =>
    rw [Code.scanFrom] at hscan
    by_cases hend : c.atEnd = true
    · rw [if_pos hend] at hscan
      cases hscan
    · rw [if_neg hend] at hscan
      have hmore : c.atEnd = false := Bool.eq_false_iff.mpr hend
      split at hscan
      case h_1 i next hread =>
        obtain ⟨b, rest, hinput, rfl, hfits, rfl⟩ := (Reading.reads_instruction _ _ _ _).mp hread
        have hstop : Code.scanFrom base size rounds ⟨c.offset + i.encode.length, rest⟩ =
            ((Code.scanFrom base size rounds ⟨c.offset + i.encode.length, rest⟩).1, some e) :=
          Prod.ext rfl (Prod.mk.inj hscan).2
        obtain ⟨is, done, left, hrest, ⟨hall, hdone⟩, hstops⟩ := ih hstop
        change rest = done ++ left at hrest
        refine ⟨i :: is, i.encode ++ done, left, ?_, ⟨?_, ?_⟩, ?_⟩
        · rw [hinput, hrest, List.append_assoc]
        · exact List.forall_mem_cons.mpr ⟨hfits, hall⟩
        · rw [List.flatMap_cons, ← hdone]
        · rw [List.length_append, ← Nat.add_assoc]
          exact hstops
      case h_2 e' next hread =>
        obtain ⟨_, he⟩ := Prod.mk.inj hscan
        obtain rfl := Option.some.inj he
        refine ⟨[], [], c.rest, rfl, ⟨by simp, rfl⟩, ?_⟩
        exact Code.stops_of_instruction hmore hread size

/-- An error in a code section is right about the input that the section is a part of. -/
theorem Code.Stops.blames {bs : Bytes} {start size : Nat} {is : List Instruction}
    {done rest : Bytes} {e : LoadError} (hstops : Code.Stops size (start + done.length) rest e)
    (hdeclared : 4 ≤ start ∧ BigEndian.slice bs (start - 4) 4 = size)
    (hinside : start + size ≤ bs.length) (hbytes : (bs.drop start).take size = done ++ rest)
    (his : Encodes is done) : e.Blames bs := by
  have hsize : size = done.length + rest.length := by
    have hlength := congrArg List.length hbytes
    rw [List.length_take, List.length_drop, List.length_append] at hlength
    omega
  have hdone : (bs.drop start).take (start + done.length - start) = done := by
    have htaken := congrArg (List.take done.length) hbytes
    rw [List.take_take, List.take_left, Nat.min_eq_left (by omega)] at htaken
    rw [Nat.add_sub_cancel_left]
    exact htaken
  have hnext : 0 < rest.length → bs[start + done.length]? = rest[0]? := by
    intro hrest
    calc bs[start + done.length]?
        = ((bs.drop start).take size)[done.length]? := by
          rw [List.getElem?_take_of_lt (by omega), List.getElem?_drop]
      _ = rest[0]? := by
          rw [hbytes, List.getElem?_append_right (Nat.le_refl _), Nat.sub_self]
  have hsection : 0 < rest.length → CodeSectionAt bs start size (start + done.length) := by
    intro hrest
    exact ⟨hdeclared, hinside, by omega, is, by rw [hdone]; exact his⟩
  cases hstops with
  | @unknown byte rest h =>
    have hrest := Nat.succ_pos rest.length
    exact ⟨hnext hrest, (Opcode.ofByte?_eq_none_iff _).mp h, start, size, hsection hrest⟩
  | @overrun op rest h =>
    have hrest := Nat.succ_pos rest.length
    refine ⟨start, hsection hrest, op, hnext hrest, ?_⟩
    unfold Opcode.encodedSize
    rw [hsize, List.length_cons]
    omega

/-! ## Following the cursor -/

/-- How a reading that set off at position `p` of `bs` ends: at a later position, with a value that
`Q` allows there, or with an error that is right about `bs`. -/
inductive Located (bs : Bytes) (p : Nat) (Q : Nat → α → Prop) :
    EStateM.Result LoadError Cursor α → Prop
  | ok {x : α} {q : Nat} (hp : p ≤ q) (hq : q ≤ bs.length) (hx : Q q x) :
      Located bs p Q (.ok x ⟨q, bs.drop q⟩)
  | error {e : LoadError} {c : Cursor} (he : e.Blames bs) : Located bs p Q (.error e c)

/-- The reading `r`, set off at position `p` of `bs`, stays on `bs` and fails for good reason. -/
def Locates (bs : Bytes) (p : Nat) (r : Reading α) (Q : Nat → α → Prop) : Prop :=
  Located bs p Q (r ⟨p, bs.drop p⟩)

namespace Locates

variable {bs : Bytes} {p : Nat} {Q : Nat → α → Prop} {W : Nat → β → Prop}

theorem pure (hp : p ≤ bs.length) {x : α} (hx : Q p x) : Locates bs p (Pure.pure x) Q :=
  .ok (Nat.le_refl p) hp hx

theorem throw {e : LoadError} (he : e.Blames bs) : Locates bs p (throw e : Reading α) Q :=
  .error he

/-- Nothing that is written behind a failure is done. -/
theorem throwBefore {e : LoadError} (he : e.Blames bs) (k : β → Reading α) :
    Locates bs p (MonadExcept.throw e >>= k) Q :=
  .error he

theorem bind {r : Reading α} {f : α → Reading β} (hr : Locates bs p r Q)
    (hf : ∀ q x, p ≤ q → q ≤ bs.length → Q q x → Locates bs q (f x) W) :
    Locates bs p (r >>= f) W := by
  unfold Locates at *
  change Located bs p W (EStateM.bind r f _)
  unfold EStateM.bind
  generalize r ⟨p, bs.drop p⟩ = result at hr
  cases hr with
  | error he => exact .error he
  | @ok x q hp hq hx =>
    dsimp only
    have hs := hf q x hp hq hx
    generalize f x ⟨q, bs.drop q⟩ = result at hs
    cases hs with
    | error he => exact .error he
    | ok hp' hq' hy => exact .ok (Nat.le_trans hp hp') hq' hy

theorem offset (hp : p ≤ bs.length) : Locates bs p Reading.offset fun q x => q = p ∧ x = p :=
  .ok (Nat.le_refl p) hp ⟨rfl, rfl⟩

theorem get (hp : p ≤ bs.length) :
    Locates bs p (MonadState.get : Reading Cursor) fun q c => q = p ∧ c = ⟨p, bs.drop p⟩ :=
  .ok (Nat.le_refl p) hp ⟨rfl, rfl⟩

theorem atEnd (hp : p ≤ bs.length) : Locates bs p Reading.atEnd fun _ _ => True :=
  (get hp).bind fun _ _ _ hq _ => pure hq trivial

/-- The one place where bytes are taken from the input. -/
theorem take (hp : p ≤ bs.length) (n : Nat) :
    Locates bs p (Reading.take n) fun q x => q = p + n ∧ x = (bs.drop p).take n := by
  have hleft : (bs.drop p).length = bs.length - p := List.length_drop
  unfold Locates Reading.take
  by_cases hheld : Cursor.holds ⟨p, bs.drop p⟩ n = true
  · have hn : n ≤ (bs.drop p).length := (Cursor.holds_iff _ _).mp hheld
    rw [if_pos hheld]
    dsimp only
    rw [List.drop_drop]
    exact .ok (by omega) (by omega) ⟨rfl, rfl⟩
  · have hn : ¬ n ≤ (bs.drop p).length := fun h => hheld ((Cursor.holds_iff _ _).mpr h)
    rw [if_neg hheld]
    refine .error ⟨?_, ?_⟩
    · show p + (bs.drop p).length = bs.length
      omega
    · show (bs.drop p).length < n
      omega

theorem u8 (hp : p ≤ bs.length) :
    Locates bs p Reading.u8 fun q x => q = p + 1 ∧ bs[p]? = some x := by
  refine (take hp 1).bind fun q x _ hq hx => pure hq ⟨hx.1, ?_⟩
  have hlt : p < bs.length := by omega
  have hbyte : (bs.drop p).take 1 = [bs[p]] := by
    rw [List.drop_eq_getElem_cons hlt]
    rfl
  rw [hx.2, hbyte, List.getElem?_eq_getElem hlt]
  simp [BigEndian.toNat]

/-- Bytes of which only the number matters. -/
theorem mapTake (hp : p ≤ bs.length) (n : Nat) (f : Bytes → α) :
    Locates bs p (do return f (← Reading.take n)) fun _ _ => True := by
  apply (take hp n).bind
  intro q x _ hq _
  exact pure hq trivial

theorem u16 (hp : p ≤ bs.length) : Locates bs p Reading.u16 fun _ _ => True := mapTake hp 2 _

theorem text (hp : p ≤ bs.length) (n : Nat) : Locates bs p (Reading.text n) fun _ _ => True :=
  mapTake hp n _

theorem skip (hp : p ≤ bs.length) (n : Nat) : Locates bs p (Reading.skip n) fun _ _ => True :=
  mapTake hp n _

/-- Items that are read one after the other, each from where the last one ended. -/
theorem times {item : Reading α} (hitem : ∀ q, p ≤ q → q ≤ bs.length →
    Locates bs q item fun _ _ => True) (n : Nat) (hp : p ≤ bs.length) :
    Locates bs p (Reading.times n item) fun _ _ => True := by
  induction n generalizing p with
  | zero => exact pure hp trivial
  | succ n ih =>
    apply (hitem p (Nat.le_refl p) hp).bind
    intro q x hpq hq _
    have hlater : ∀ q', q ≤ q' → q' ≤ bs.length → Locates bs q' item fun _ _ => True := by
      intro q' hqq'
      exact hitem q' (Nat.le_trans hpq hqq')
    apply (ih hlater hq).bind
    intro q' xs _ hq' _
    exact pure hq' trivial

/-! ## The parts of an image -/

/-- The rest of an entry whose length has been read. -/
theorem textBody (hp : p ≤ bs.length) (n : Nat) :
    Locates bs p (do let s ← Reading.text n; Reading.skip 1; return s) fun _ _ => True := by
  apply (text hp n).bind
  intro q s _ hq _
  apply (skip hq 1).bind
  intro q' _ _ hq' _
  exact pure hq' trivial

theorem literal (hp : p ≤ bs.length) : Locates bs p Reading.literal fun _ _ => True := by
  apply (offset hp).bind
  rintro _ start _ _ ⟨rfl, rfl⟩
  apply (u8 hp).bind
  intro q kind _ hq hkind
  apply (u16 hq).bind
  intro q' length _ hq' _
  by_cases hstring : kind ≠ Format.stringLiteral
  · rw [if_pos hstring]
    have hblames : (LoadError.unsupportedLiteralType start kind).Blames bs := ⟨hkind.2, hstring⟩
    exact throwBefore hblames _
  · rw [if_neg hstring]
    exact textBody hq' _

theorem symbol (hp : p ≤ bs.length) : Locates bs p Reading.symbol fun _ _ => True := by
  apply (u16 hp).bind
  intro q length _ hq _
  exact textBody hq _

/-- A counted table of entries. -/
theorem table {entry : Reading String}
    (hentry : ∀ q, q ≤ bs.length → Locates bs q entry fun _ _ => True) (hp : p ≤ bs.length) :
    Locates bs p (do let count ← Reading.u16; Reading.times count.toNat entry) fun _ _ => True := by
  apply (u16 hp).bind
  intro q count _ hq _
  exact times (fun q' _ hq' => hentry q' hq') _ hq

theorem literalPool (hp : p ≤ bs.length) : Locates bs p Reading.literalPool fun _ _ => True :=
  table (fun _ hq => literal hq) hp

theorem symbolTable (hp : p ≤ bs.length) : Locates bs p Reading.symbolTable fun _ _ => True :=
  table (fun _ hq => symbol hq) hp

/-- The header of a record ends with the size of the code that follows it. -/
theorem recordHead (hp : p ≤ bs.length) :
    Locates bs p Reading.recordHead fun q head =>
      q = p + 16 ∧ BigEndian.slice bs (q - 4) 4 = head.codeSize := by
  rw [Reading.recordHead_eq]
  apply (take hp Format.recordHeaderSize).bind
  rintro _ window _ hq ⟨rfl, rfl⟩
  refine pure hq ⟨rfl, ?_⟩
  show BigEndian.slice bs (p + 16 - 4) 4 = BigEndian.slice ((bs.drop p).take 16) 12 4
  unfold BigEndian.slice
  rw [List.drop_take, List.drop_drop, List.take_take]
  rfl

/-- A code section whose size was read from the four bytes in front of it. -/
theorem code (hp : p ≤ bs.length) {size : Nat}
    (hdeclared : 4 ≤ p ∧ BigEndian.slice bs (p - 4) 4 = size) :
    Locates bs p (Reading.code size) fun _ _ => True := by
  apply (offset hp).bind
  rintro _ start _ _ ⟨rfl, rfl⟩
  apply (take hp size).bind
  rintro _ bytes _ hq ⟨rfl, rfl⟩
  have hlength : ((bs.drop start).take size).length = size := by
    rw [List.length_take, List.length_drop]
    omega
  cases hscan : Code.scan ((bs.drop start).take size) start with
  | mk placed stop =>
    cases stop with
    | none => exact pure hq trivial
    | some e =>
      unfold Code.scan at hscan
      rw [hlength] at hscan
      obtain ⟨is, done, rest, hrest, his, hstops⟩ := Code.exists_stop_of_scanFrom hscan
      exact throw (hstops.blames hdeclared hq hrest his)

/-- A record that may be nested as deep as there are bytes. -/
theorem recordWithin {depth : Nat} (hp : p ≤ bs.length) (hdepth : bs.length - p ≤ depth) :
    Locates bs p (Reading.recordWithin depth) fun _ _ => True := by
  induction depth generalizing p with
  | zero =>
    have hleft : (bs.drop p).length = bs.length - p := List.length_drop
    refine .error ⟨?_, ?_⟩
    · show p + (bs.drop p).length = bs.length
      omega
    · show (bs.drop p).length < 16
      omega
  | succ depth ih =>
    apply (offset hp).bind
    rintro _ start _ _ ⟨rfl, rfl⟩
    apply (recordHead hp).bind
    intro q head _ hq hhead
    apply (code hq ⟨by omega, hhead.2⟩).bind
    intro q₁ code hq₁ hq₁' _
    apply (literalPool hq₁').bind
    intro q₂ literals hq₂ hq₂' _
    apply (symbolTable hq₂').bind
    intro q₃ symbols hq₃ hq₃' _
    apply (offset hq₃').bind
    intro q₄ stop hq₄ hq₄' _
    -- The header alone took sixteen bytes, so the children have fewer left than this record had.
    have hchild : ∀ q', q₄ ≤ q' → q' ≤ bs.length →
        Locates bs q' (Reading.recordWithin depth) fun _ _ => True := by
      intro q' hle hq'
      exact ih hq' (by omega)
    apply (times hchild _ hq₄').bind
    intro q₅ children _ hq₅ _
    exact pure hq₅ trivial

theorem record (hp : p ≤ bs.length) : Locates bs p Reading.record fun _ _ => True := by
  apply (get hp).bind
  rintro _ c _ _ ⟨rfl, rfl⟩
  apply recordWithin hp
  exact Nat.le_of_eq List.length_drop.symm

/-- A record section behind its header, and the sections that follow it. -/
theorem recordSection (hp : p ≤ bs.length) {more : Reading (List Record × List Discrepancy)}
    (finish : Record × List Discrepancy → Nat → List Record × List Discrepancy →
      List Record × List Discrepancy)
    (hmore : ∀ q, q ≤ bs.length → Locates bs q more fun _ _ => True) :
    Locates bs p
      (do
        discard Reading.tag
        let root ← Reading.record
        let stop ← Reading.offset
        let rest ← more
        return finish root stop rest) fun _ _ => True := by
  apply (skip hp 4).bind
  intro q₁ _ _ hq₁ _
  apply (record hq₁).bind
  intro q₂ root _ hq₂ _
  apply (offset hq₂).bind
  intro q₃ stop _ hq₃ _
  apply (hmore q₃ hq₃).bind
  intro q₄ rest _ hq₄ _
  exact pure hq₄ trivial

/-- The tag of a section, as it stands in the input. -/
theorem sectionHead (hp : p ≤ bs.length) :
    Locates bs p Reading.sectionHead fun q head => q = p + 8 ∧ head.name = (bs.drop p).take 4 := by
  rw [Reading.sectionHead_eq]
  apply (take hp Format.sectionHeaderSize).bind
  rintro _ window _ hq ⟨rfl, rfl⟩
  refine pure hq ⟨rfl, ?_⟩
  show ((bs.drop p).take Format.sectionHeaderSize).take 4 = _
  rw [List.take_take]
  rfl

theorem sectionsWithin (hp : p ≤ bs.length) (rounds : Nat) :
    Locates bs p (Reading.sectionsWithin rounds) fun _ _ => True := by
  induction rounds generalizing p with
  | zero => exact pure hp trivial
  | succ rounds ih =>
    apply (atEnd hp).bind
    intro q finished _ hq _
    by_cases hfinished : finished = true
    · rw [if_pos hfinished]
      exact pure hq trivial
    rw [if_neg hfinished]
    apply (offset hq).bind
    rintro _ start _ _ ⟨rfl, rfl⟩
    apply (sectionHead hq).bind
    rintro _ head _ hq' ⟨rfl, htag⟩
    have hlength : ((bs.drop start).take 4).length = 4 := by
      have hroom : start + 8 ≤ bs.length := hq'
      rw [List.length_take, List.length_drop]
      omega
    dsimp only
    rw [htag]
    by_cases hrecord : (bs.drop start).take 4 = Format.recordSection
    · rw [if_pos hrecord]
      exact recordSection hq' _ fun _ hq => ih hq
    rw [if_neg hrecord]
    by_cases hlocals : (bs.drop start).take 4 = Format.localsSection
    · rw [if_pos hlocals]
      apply (skip hq' _).bind
      intro q₁ _ _ hq₁ _
      exact ih hq₁
    rw [if_neg hlocals]
    by_cases hdebug : (bs.drop start).take 4 = Format.debugSection
    · rw [if_pos hdebug]
      have hblames : (LoadError.unsupportedSection start ((bs.drop start).take 4)).Blames bs :=
        ⟨rfl, hdebug⟩
      exact throw hblames
    rw [if_neg hdebug]
    by_cases hend : (bs.drop start).take 4 = Format.endSection
    · rw [if_pos hend]
      exact pure hq' trivial
    rw [if_neg hend]
    have hblames : (LoadError.unknownSection start ((bs.drop start).take 4)).Blames bs := by
      refine ⟨rfl, hlength, ?_⟩
      simp only [List.mem_cons, List.not_mem_nil, or_false, not_or]
      exact ⟨hrecord, hlocals, hdebug, hend⟩
    exact throw hblames

theorem imageHead (hp : p ≤ bs.length) : Locates bs p Reading.imageHead fun _ _ => True := by
  rw [Reading.imageHead_eq]
  apply (take hp (Format.headerSize - 4)).bind
  intro _ window _ hq _
  exact pure hq trivial

theorem image (bs : Bytes) : Locates bs 0 Reading.image fun _ _ => True := by
  apply (get (Nat.zero_le _)).bind
  rintro _ c _ _ ⟨rfl, rfl⟩
  apply (take (Nat.zero_le _) 4).bind
  rintro _ found _ hq ⟨rfl, rfl⟩
  by_cases hmagic : (bs.drop 0).take 4 ≠ Format.magic
  · rw [if_pos hmagic]
    have hblames : (LoadError.invalidMagic ((bs.drop 0).take 4)).Blames bs := by
      refine ⟨rfl, ?_, hmagic⟩
      rw [List.length_take, List.length_drop]
      omega
    exact throwBefore hblames _
  · rw [if_neg hmagic]
    apply (imageHead hq).bind
    intro q₁ head _ hq₁ _
    apply (get hq₁).bind
    intro q₂ c _ hq₂ _
    apply (sectionsWithin hq₂ _).bind
    intro q₃ sections _ hq₃ _
    exact pure hq₃ trivial

end Locates

/-- **Load errors point at the bytes that are to blame.**  Whatever the input, if it fails to load
then the error is right about it: bytes are missing where and as it says; the magic number, tag,
literal kind or opcode that it names stands at the offset that it names, and is not one that can be
loaded; or the instruction at its offset does not fit into its code section.  It is never about a
layout. -/
theorem load_error_blames (bs : Bytes) (e : LoadError) (h : Image.ofBytes bs = .error e) :
    e.Blames bs := by
  have himage := Locates.image bs
  unfold Locates at himage
  unfold Image.ofBytes Cursor.start at h
  rw [List.drop_zero] at himage
  generalize Reading.image ⟨0, bs⟩ = result at himage h
  cases himage with
  | ok _ _ _ => cases h
  | error he =>
    cases h
    exact he

/-- An image whose only record has three bytes of code: a `NOP`, and a `MOVE` that lacks its second
operand. -/
def overrunImage : Bytes :=
  Format.magic ++ List.replicate 16 0 ++ Format.recordSection ++ List.replicate 20 0 ++
    BigEndian.word32 3 ++ [0x00, 0x01, 0x05]

theorem load_error_blames_overrunImage :
    Image.ofBytes overrunImage = .error (.codeOverrun 49 3) ∧
    (LoadError.codeOverrun 49 3).Blames overrunImage := by
  have hload : Image.ofBytes overrunImage = .error (.codeOverrun 49 3) := by rfl
  exact ⟨hload, load_error_blames overrunImage (.codeOverrun 49 3) hload⟩

end Rite

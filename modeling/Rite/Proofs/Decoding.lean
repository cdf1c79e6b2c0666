import Rite.Proofs.ErrorPositions

/-!
# Decoding to the end

Any bytes can be decoded: decoding goes on as long as instructions can be read and then stops, at the
end of the section or at the first place where no instruction stands.  `Decoder` goes through a section
one item at a time, as a reader of the section does who wants to look at each instruction before the
next is decoded.  It gives the items of `Code.scan`, which decodes the whole section at once, and gives
nothing more after an error (`Decoder.items_eq_scan`).

What the items are is said without a decoder.  A byte string has one longest part at its front that is
a concatenation of encoded instructions; behind it stands a byte that is no opcode, or an instruction
that the section cuts off.  `decoding_stops` says that decoding gives exactly the instructions of that
part, and that its error is about what stands behind it.
-/

namespace Rite

variable {α β : Type}

/-! ## Where the cursor goes -/

/-- `c'` is `c` moved over some of its bytes. -/
def Cursor.LeadsTo (c c' : Cursor) : Prop :=
  ∃ passed, c.rest = passed ++ c'.rest ∧ c'.offset = c.offset + passed.length

theorem Cursor.LeadsTo.refl (c : Cursor) : c.LeadsTo c := ⟨[], rfl, rfl⟩

theorem Cursor.LeadsTo.trans {c₁ c₂ c₃ : Cursor} (h : c₁.LeadsTo c₂) (h' : c₂.LeadsTo c₃) :
    c₁.LeadsTo c₃ := by
  obtain ⟨passed, hrest, hoffset⟩ := h
  obtain ⟨passed', hrest', hoffset'⟩ := h'
  refine ⟨passed ++ passed', by rw [hrest, hrest', List.append_assoc], ?_⟩
  rw [hoffset', hoffset, List.length_append, Nat.add_assoc]

/-- Offset and remaining length keep their sum. -/
theorem Cursor.LeadsTo.sum_eq {c c' : Cursor} (h : c.LeadsTo c') :
    c.offset ≤ c'.offset ∧ c'.offset + c'.remaining = c.offset + c.remaining := by
  obtain ⟨passed, hrest, hoffset⟩ := h
  unfold Cursor.remaining
  rw [hrest, hoffset, List.length_append]
  omega

namespace Reading

/-- However `r` ends, its cursor has only moved forward over the bytes that were there. -/
def Forward (r : Reading α) : Prop :=
  ∀ c, (∀ x c', r c = .ok x c' → c.LeadsTo c') ∧ ∀ e c', r c = .error e c' → c.LeadsTo c'

theorem forward_pure (x : α) : Forward (pure x) := by
  intro c
  constructor
  · intro y c' h
    obtain ⟨_, rfl⟩ := EStateM.Result.ok.inj h
    exact .refl c
  · intro e c' h
    cases h

theorem forward_throw (e : LoadError) : Forward (throw e : Reading α) := by
  intro c
  constructor
  · intro y c' h
    cases h
  · intro e' c' h
    obtain ⟨_, rfl⟩ := EStateM.Result.error.inj h
    exact .refl c

theorem Forward.bind {r : Reading α} {f : α → Reading β} (hr : Forward r)
    (hf : ∀ x, Forward (f x)) : Forward (r >>= f) := by
  intro c
  change (∀ y c'', EStateM.bind r f c = _ → _) ∧ ∀ e c'', EStateM.bind r f c = _ → _
  unfold EStateM.bind
  cases hfirst : r c with
  | ok x c' =>
    have hmoved := (hr c).1 x c' hfirst
    exact ⟨fun y c'' h => hmoved.trans ((hf x c').1 y c'' h),
      fun e c'' h => hmoved.trans ((hf x c').2 e c'' h)⟩
  | error e c' =>
    constructor
    · intro y c'' h
      cases h
    · intro e' c'' h
      obtain ⟨rfl, rfl⟩ := EStateM.Result.error.inj h
      exact (hr c).2 e c' hfirst

theorem forward_offset : Forward offset := by
  intro c
  constructor
  · intro x c' h
    obtain ⟨_, rfl⟩ := EStateM.Result.ok.inj h
    exact .refl c
  · intro e c' h
    cases h

theorem forward_take (n : Nat) : Forward (take n) := by
  intro c
  constructor
  · intro x c' h
    obtain ⟨b, rest, hrest, rfl, _, _⟩ := (reads_take n _ _ _ _).mp h
    exact ⟨b, hrest, rfl⟩
  · intro e c' h
    unfold Reading.take at h
    split at h
    · cases h
    · obtain ⟨_, rfl⟩ := EStateM.Result.error.inj h
      exact .refl c

theorem forward_u8 : Forward u8 := (forward_take 1).bind fun _ => forward_pure _

theorem forward_u16 : Forward u16 := (forward_take 2).bind fun _ => forward_pure _

theorem forward_operand8 : Forward operand8 := forward_u8.bind fun _ => forward_pure _

theorem forward_operands (op : Opcode) : Forward (operands op) := by
  unfold Reading.operands
  cases op.shape with
  | z => exact forward_pure _
  | b => exact forward_operand8.bind fun _ => forward_pure _
  | bb => exact forward_operand8.bind fun _ => forward_operand8.bind fun _ => forward_pure _
  | bbb =>
    exact forward_operand8.bind fun _ => forward_operand8.bind fun _ => forward_operand8.bind fun _ =>
      forward_pure _
  | bs => exact forward_operand8.bind fun _ => forward_u16.bind fun _ => forward_pure _
  | bss =>
    exact forward_operand8.bind fun _ => forward_u16.bind fun _ => forward_u16.bind fun _ =>
      forward_pure _
  | s => exact forward_u16.bind fun _ => forward_pure _

/-- An instruction that cannot be read may leave the cursor between its operands, but not further. -/
theorem forward_instruction : Forward instruction := by
  refine forward_offset.bind fun start => forward_u8.bind fun byte => ?_
  cases Opcode.ofByte? byte with
  | some op => exact forward_operands op
  | none => exact forward_throw _

end Reading

/-! ## One item at a time -/

/-- A code section on the way through it. -/
structure Decoder where
  /-- What is still to be decoded. -/
  cursor : Cursor
  /-- Absolute offset at which the section starts. -/
  base : Nat
  /-- Whether there has been an error. -/
  failed : Bool := false

namespace Decoder

/-- In front of the first instruction. -/
def start (bytes : Bytes) (base : Nat) : Decoder := { cursor := Cursor.start bytes base, base }

/-- Length of the whole section, reckoned from where the cursor stands. -/
def sectionSize (d : Decoder) : Nat := d.cursor.offset - d.base + d.cursor.remaining

/-- The next instruction with its offset in the section, or the error; nothing at the end of the
section and nothing after an error. -/
def next? (d : Decoder) : Option (Except LoadError Placed × Decoder) :=
  if d.failed || d.cursor.atEnd then none
  else
    match Reading.instruction d.cursor with
    | .ok instruction cursor =>
      some (.ok ⟨d.cursor.offset - d.base, instruction⟩, { d with cursor })
    | .error e cursor =>
      let stopped := { d with cursor, failed := true }
      some (.error (Code.sectionError d.cursor.offset stopped.sectionSize e), stopped)

theorem next?_of_failed {d : Decoder} (h : d.failed = true) : d.next? = none := by
  unfold next?
  rw [h, Bool.true_or, if_pos rfl]

theorem next?_of_atEnd {d : Decoder} (h : d.cursor.atEnd = true) : d.next? = none := by
  unfold next?
  rw [h, Bool.or_true, if_pos rfl]

theorem next?_of_ok {d : Decoder} (hgoing : d.failed = false) (hmore : d.cursor.atEnd = false)
    {i : Instruction} {c : Cursor} (hread : Reading.instruction d.cursor = .ok i c) :
    d.next? = some (.ok ⟨d.cursor.offset - d.base, i⟩, { d with cursor := c }) := by
  unfold next?
  rw [hgoing, hmore, hread]
  rfl

/-- The section has the same length wherever its cursor stands, so an error carries its true size. -/
theorem next?_of_error {d : Decoder} (hgoing : d.failed = false) (hmore : d.cursor.atEnd = false)
    (hbase : d.base ≤ d.cursor.offset) {e : LoadError} {c : Cursor}
    (hread : Reading.instruction d.cursor = .error e c) :
    d.next? = some (.error (Code.sectionError d.cursor.offset d.sectionSize e),
      { d with cursor := c, failed := true }) := by
  have hmoved := ((Reading.forward_instruction d.cursor).2 e c hread).sum_eq
  have hsize : sectionSize { d with cursor := c, failed := true } = d.sectionSize := by
    unfold sectionSize
    dsimp only
    omega
  unfold next?
  rw [hgoing, hmore, hread]
  dsimp only
  rw [hsize]
  rfl

/-- How many bytes are still ahead of a decoder that has not failed. -/
def pending (d : Decoder) : Nat := if d.failed then 0 else d.cursor.remaining

/-- An instruction takes at least one byte, and an error ends the decoding. -/
theorem pending_lt_of_next? {d d' : Decoder} {x : Except LoadError Placed}
    (h : d.next? = some (x, d')) : d'.pending < d.pending := by
  have hgoing : d.failed = false := by
    by_contra hfailed
    rw [next?_of_failed (by simpa using hfailed)] at h
    cases h
  have hmore : d.cursor.atEnd = false := by
    by_contra hend
    rw [next?_of_atEnd (by simpa using hend)] at h
    cases h
  have hpos : 0 < d.cursor.remaining := by
    unfold Cursor.atEnd at hmore
    exact List.length_pos_iff.mpr (by simpa using hmore)
  unfold next? at h
  rw [hgoing, hmore] at h
  cases hread : Reading.instruction d.cursor with
  | ok i c =>
    rw [hread] at h
    cases h
    obtain ⟨b, rest, hrest, rfl, _, rfl⟩ := (Reading.reads_instruction _ _ _ _).mp hread
    have hlength : d.cursor.rest.length = (i.encode ++ rest).length := congrArg List.length hrest
    rw [List.length_append, Instruction.length_encode] at hlength
    have hsize := i.encodedSize_pos
    simp only [pending, hgoing, Bool.false_eq_true, if_false]
    show rest.length < d.cursor.rest.length
    omega
  | error e c =>
    rw [hread] at h
    cases h
    simpa [pending, hgoing] using hpos

/-- All items from here on, until there is none. -/
def items (d : Decoder) : List (Except LoadError Placed) :=
  match _hnext : d.next? with
  | none => []
  | some (x, later) => x :: later.items
termination_by d.pending
decreasing_by exact pending_lt_of_next? _hnext

theorem items_of_none {d : Decoder} (h : d.next? = none) : d.items = [] := by
  rw [items]
  split
  · rfl
  · next x later hsome =>
    rw [h] at hsome
    cases hsome

theorem items_of_some {d later : Decoder} {x : Except LoadError Placed}
    (h : d.next? = some (x, later)) : d.items = x :: later.items := by
  rw [items]
  split
  · next hnone =>
    rw [h] at hnone
    cases hnone
  · next hsome =>
    rw [h] at hsome
    cases hsome
    rfl

/-- The items of a scan: its instructions, and its error if there is one. -/
def ofScan (scanned : List Placed × Option LoadError) : List (Except LoadError Placed) :=
  scanned.1.map .ok ++ scanned.2.toList.map .error

/-- From any place on, given as many rounds as there are bytes. -/
theorem items_eq_scanFrom {rounds : Nat} {d : Decoder} (hgoing : d.failed = false)
    (hbase : d.base ≤ d.cursor.offset) (hrounds : d.cursor.remaining ≤ rounds) :
    d.items = ofScan (Code.scanFrom d.base d.sectionSize rounds d.cursor) := by
  induction rounds generalizing d with
  | zero =>
    have hend : d.cursor.atEnd = true :=
      List.isEmpty_iff.mpr (List.length_eq_zero_iff.mp (Nat.le_zero.mp hrounds))
    rw [items_of_none (next?_of_atEnd hend)]
    rfl
  | succ rounds ih =>
    rw [Code.scanFrom]
    by_cases hend : d.cursor.atEnd = true
    · rw [if_pos hend, items_of_none (next?_of_atEnd hend)]
      rfl
    rw [if_neg hend]
    have hmore : d.cursor.atEnd = false := Bool.eq_false_iff.mpr hend
    cases hread : Reading.instruction d.cursor with
    | ok i c =>
      have hmoved := ((Reading.forward_instruction d.cursor).1 i c hread).sum_eq
      have hnext := next?_of_ok hgoing hmore hread
      -- A byte has been read, so one round less is enough for the rest.
      have hless := pending_lt_of_next? hnext
      simp only [pending, hgoing, Bool.false_eq_true, if_false] at hless
      have hsize : sectionSize { d with cursor := c } = d.sectionSize := by
        unfold sectionSize
        dsimp only
        omega
      have hlater : items { d with cursor := c } =
          ofScan (Code.scanFrom d.base d.sectionSize rounds c) := by
        rw [← hsize]
        exact ih hgoing (Nat.le_trans hbase hmoved.1) (by dsimp only; omega)
      rw [items_of_some hnext, hlater]
      rfl
    | error e c =>
      rw [items_of_some (next?_of_error hgoing hmore hbase hread),
        items_of_none (next?_of_failed rfl)]
      rfl

/-- **Decoding one by one is decoding at once.** -/
theorem items_eq_scan (bytes : Bytes) (base : Nat) :
    (start bytes base).items = ofScan (Code.scan bytes base) := by
  have hsize : (start bytes base).sectionSize = bytes.length := by
    show base - base + bytes.length = bytes.length
    omega
  have hall : (start bytes base).items =
      ofScan (Code.scanFrom base (start bytes base).sectionSize bytes.length (.start bytes base)) :=
    items_eq_scanFrom rfl (Nat.le_refl _) (Nat.le_refl _)
  rw [hsize] at hall
  exact hall

end Decoder

/-! ## The longest encoded part -/

/-- Two instructions at the front of the same bytes are the same. -/
theorem Instruction.eq_of_encode_append {i j : Instruction} (hi : i.Fits) (hj : j.Fits)
    {rest rest' : Bytes} (h : i.encode ++ rest = j.encode ++ rest') : i = j ∧ rest = rest' := by
  have hread : Reading.instruction ⟨0, i.encode ++ rest⟩ = .ok i ⟨0 + i.encode.length, rest⟩ :=
    Reading.reads_instruction.accepts ⟨hi, rfl⟩ rest
  have hread' : Reading.instruction ⟨0, j.encode ++ rest'⟩ = .ok j ⟨0 + j.encode.length, rest'⟩ :=
    Reading.reads_instruction.accepts ⟨hj, rfl⟩ rest'
  rw [h, hread'] at hread
  obtain ⟨rfl, hcursor⟩ := EStateM.Result.ok.inj hread
  exact ⟨rfl, List.append_cancel_left h⟩

theorem Encodes.cons {i : Instruction} {is : List Instruction} {b : Bytes} (hi : i.Fits)
    (his : Encodes is b) : Encodes (i :: is) (i.encode ++ b) :=
  ⟨List.forall_mem_cons.mpr ⟨hi, his.1⟩, by rw [List.flatMap_cons, ← his.2]⟩

namespace Code

/-- No instruction stands at the front of `rest`. -/
def Blocked (rest : Bytes) : Prop := ∀ i : Instruction, i.Fits → ¬ i.encode <+: rest

/-- Taking instructions off the front comes to an end. -/
theorem exists_blocked (bs : Bytes) :
    ∃ is done rest, bs = done ++ rest ∧ Encodes is done ∧ Blocked rest := by
  induction hlength : bs.length using Nat.strongRecOn generalizing bs with
  | _ n ih =>
    by_cases hblocked : Blocked bs
    · exact ⟨[], [], bs, rfl, ⟨by simp, rfl⟩, hblocked⟩
    · unfold Blocked at hblocked
      push Not at hblocked
      obtain ⟨i, hfits, rest, rfl⟩ := hblocked
      rw [List.length_append, Instruction.length_encode] at hlength
      have hpos := i.encodedSize_pos
      obtain ⟨is, done, left, rfl, his, hleft⟩ := ih rest.length (by omega) rest rfl
      exact ⟨i :: is, i.encode ++ done, left, by rw [List.append_assoc], his.cons hfits, hleft⟩

/-- **What is blocked is the longest.**  Instructions at the front can be taken in one way only, so any
other list of them is used up before or where the first one is. -/
theorem Blocked.length_le {is js : List Instruction} {done rest other : Bytes} (hblocked : Blocked rest)
    (his : Encodes is done) (hjs : Encodes js other) (hother : other <+: done ++ rest) :
    other.length ≤ done.length := by
  obtain ⟨hjs, rfl⟩ := hjs
  obtain ⟨his, rfl⟩ := his
  induction js generalizing is with
  | nil => exact Nat.zero_le _
  | cons j js ih =>
    obtain ⟨left, hleft⟩ := hother
    rw [List.flatMap_cons, List.append_assoc] at hleft
    have hj := hjs j (by simp)
    cases is with
    | nil => exact absurd ⟨_, hleft⟩ (hblocked j hj)
    | cons i is =>
      rw [List.flatMap_cons, List.append_assoc] at hleft
      obtain ⟨rfl, hbehind⟩ := Instruction.eq_of_encode_append hj (his i (by simp)) hleft
      have hshorter := ih (fun x hx => hjs x (by simp [hx])) (fun x hx => his x (by simp [hx]))
        ⟨left, hbehind⟩
      rw [List.flatMap_cons, List.flatMap_cons, List.length_append, List.length_append]
      omega

/-- Why decoding stops in front of `rest`, at absolute offset `offset` in a section of `size` bytes: for
a byte that is no opcode, or for an opcode whose operands are cut off; not at all at the end. -/
def stop? (offset size : Nat) : Bytes → Option LoadError
  | [] => none
  | byte :: _ =>
    if Opcode.ofByte? byte = none then some (.unknownOpcode offset byte)
    else some (.codeOverrun offset size)

theorem Stops.stop?_eq {offset size : Nat} {rest : Bytes} {e : LoadError}
    (h : Stops size offset rest e) : stop? offset size rest = some e := by
  cases h with
  | unknown hnone => exact if_pos hnone
  | @overrun op rest _ => exact if_neg (by rw [Opcode.ofByte?_toByte]; exact Option.some_ne_none op)

theorem stop?_ne_truncatedInput {offset size : Nat} {rest : Bytes} {at_ needed available : Nat} :
    stop? offset size rest ≠ some (.truncatedInput at_ needed available) := by
  cases rest with
  | nil => simp [stop?]
  | cons byte rest => by_cases hop : Opcode.ofByte? byte = none <;> simp [stop?, hop]

/-- A scan goes through encoded instructions and stops where it is blocked. -/
theorem scanFrom_blocked (base size : Nat) {is : List Instruction} {done rest : Bytes}
    (his : Encodes is done) (hblocked : Blocked rest) (rounds : Nat)
    (hrounds : (done ++ rest).length ≤ rounds) (start : Nat) :
    scanFrom base size rounds ⟨base + start, done ++ rest⟩ =
      (placeFrom start is, stop? (base + start + done.length) size rest) := by
  obtain ⟨hfits, rfl⟩ := his
  induction is generalizing rounds start with
  | nil =>
    rw [List.flatMap_nil, List.nil_append] at hrounds ⊢
    cases rest with
    | nil => cases rounds <;> rfl
    | cons byte rest =>
      obtain ⟨rounds, rfl⟩ : ∃ n, rounds = n + 1 :=
        ⟨rounds - 1, by rw [List.length_cons] at hrounds; omega⟩
      rw [scanFrom, if_neg (by simp [Cursor.atEnd])]
      cases hread : Reading.instruction ⟨base + start, byte :: rest⟩ with
      | ok i c =>
        obtain ⟨b, left, hinput, _, hi, rfl⟩ := (Reading.reads_instruction _ _ _ _).mp hread
        exact absurd ⟨left, hinput.symm⟩ (hblocked i hi)
      | error e c =>
        have hstops := stops_of_instruction rfl hread size
        exact congrArg (Prod.mk []) hstops.stop?_eq.symm
  | cons i is ih =>
    rw [List.flatMap_cons, List.append_assoc] at hrounds ⊢
    rw [List.length_append, Instruction.length_encode] at hrounds
    have hpos := i.encodedSize_pos
    obtain ⟨rounds, rfl⟩ : ∃ n, rounds = n + 1 := ⟨rounds - 1, by omega⟩
    have hread : Reading.instruction
        ⟨base + start, i.encode ++ (is.flatMap Instruction.encode ++ rest)⟩ =
          .ok i ⟨base + (start + i.encodedSize), is.flatMap Instruction.encode ++ rest⟩ := by
      rw [Reading.reads_instruction.accepts ⟨hfits i (by simp), rfl⟩, Instruction.length_encode,
        Nat.add_assoc]
    have hrest := ih rounds (start + i.encodedSize) (fun j hj => hfits j (by simp [hj])) (by omega)
    rw [scanFrom, if_neg (by simp [Cursor.atEnd, Instruction.encode])]
    simp only [hread, hrest, placeFrom, Nat.add_sub_cancel_left, List.length_append,
      Instruction.length_encode, Nat.add_assoc]

end Code

/-- A section that stops with an error is not read as code, for the same reason.  Its bytes have been
taken by then. -/
theorem Reading.code_of_stop {bytes : Bytes} {base : Nat} {placed : List Placed} {e : LoadError}
    (h : Code.scan bytes base = (placed, some e)) (rest : Bytes) :
    Reading.code bytes.length ⟨base, bytes ++ rest⟩ = .error e ⟨base + bytes.length, rest⟩ := by
  have htake : take bytes.length ⟨base, bytes ++ rest⟩ =
      .ok bytes ⟨base + bytes.length, rest⟩ := (reads_take _).accepts ⟨rfl, rfl⟩ rest
  unfold Reading.code
  rw [bind_of_ok (offset_eq _), bind_of_ok htake, h]
  rfl

/-- **Decoding stops at the first place where no instruction stands.**  Whatever bytes a section holds,
`done` is the longest part at its front that is a concatenation of encoded instructions, and `rest` is
what lies behind it.  Decoding gives the instructions of `done`, each with its offset in the section,
and then, unless nothing is left, one error and nothing more: the next byte is no opcode, or else it is
one whose operands reach past the end of the section.  Offsets lie within the section.  The error is
never that the input is truncated, and reading the section as a whole fails with the same error. -/
theorem decoding_stops (bs : Bytes) (base : Nat) :
    ∃ (is : List Instruction) (done rest : Bytes), bs = done ++ rest ∧ Encodes is done ∧
      (∀ js other, Encodes js other → other <+: bs → other.length ≤ done.length) ∧
      Code.scan bs base = (Code.placeFrom 0 is, Code.stop? (base + done.length) bs.length rest) ∧
      (Decoder.start bs base).items =
        (Code.placeFrom 0 is).map .ok ++
          (Code.stop? (base + done.length) bs.length rest).toList.map .error ∧
      (∀ p ∈ Code.placeFrom 0 is, p.offset < bs.length) ∧
      ∀ e, Except.error e ∈ (Decoder.start bs base).items →
        (∀ offset needed available, e ≠ .truncatedInput offset needed available) ∧
        ∀ behind, Reading.code bs.length ⟨base, bs ++ behind⟩ =
          .error e ⟨base + bs.length, behind⟩ := by
  obtain ⟨is, done, rest, rfl, his, hblocked⟩ := Code.exists_blocked bs
  have hscan : Code.scan (done ++ rest) base =
      (Code.placeFrom 0 is, Code.stop? (base + done.length) (done ++ rest).length rest) :=
    Code.scanFrom_blocked base _ his hblocked _ (Nat.le_refl _) 0
  have hitems := Decoder.items_eq_scan (done ++ rest) base
  rw [hscan] at hitems
  refine ⟨is, done, rest, rfl, his, fun js other hjs hother => hblocked.length_le his hjs hother,
    hscan, hitems, ?_, ?_⟩
  · intro p hp
    have hend : p.offset + p.instruction.encodedSize ≤ 0 + (is.flatMap Instruction.encode).length :=
      Code.end_le_of_mem_placeFrom hp
    have hpos := p.instruction.encodedSize_pos
    rw [← his.2] at hend
    rw [List.length_append]
    omega
  · intro e he
    rw [hitems] at he
    have hstop : Code.stop? (base + done.length) (done ++ rest).length rest = some e := by
      simpa [Decoder.ofScan] using he
    refine ⟨?_, Reading.code_of_stop (by rw [hscan, hstop])⟩
    rintro offset needed available rfl
    exact Code.stop?_ne_truncatedInput hstop

-- The second instruction has an operand too few.
example : Code.scan [0x00, 0x01, 0x05] 7 = ([⟨0, { op := .nop }⟩], some (.codeOverrun 8 3)) := by rfl

end Rite

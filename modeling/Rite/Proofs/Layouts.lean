import Mathlib.Data.List.Induction
import Rite.Proofs.Decoding
import Rite.Proofs.Headers

/-!
# Layouts and the cursor

There are two ways to read the fields of a header: in one go, from a window of fixed size, or one field
after the other, each by the reading of its kind.  `Reading.layout` is the first way.  The second is
`Reading.fieldwise`, which passes over what is left of the window at the end.  The two agree wherever the
window is there and holds the fields, whatever the fields are and however much room the window leaves
behind them.

Both ways rest on one elementary reading that takes so many bytes or none (`TakesAs`).  So a reading that
fails leaves the cursor where it was, with one exception: an instruction is read piece by piece, and its
first pieces stay read where a later one is missing.  Even so the cursor only moves forward, and along any
sequence of readings offset and remaining length make up the same sum (`readings_accounted`).
-/

namespace Rite

variable {α β : Type}

/-! ## Readings that take all or nothing -/

/-- The cursor `n` bytes further on. -/
def Cursor.advance (c : Cursor) (n : Nat) : Cursor := ⟨c.offset + n, c.rest.drop n⟩

theorem Cursor.remaining_advance (c : Cursor) (n : Nat) :
    (c.advance n).remaining = c.remaining - n := List.length_drop

theorem Cursor.advance_advance (c : Cursor) (n k : Nat) :
    (c.advance n).advance k = c.advance (n + k) := by
  unfold advance
  rw [List.drop_drop, Nat.add_assoc]

theorem Cursor.leadsTo_advance {c : Cursor} {n : Nat} (h : n ≤ c.remaining) :
    c.LeadsTo (c.advance n) := by
  have hlength : (c.rest.take n).length = n := List.length_take_of_le h
  exact ⟨c.rest.take n, (List.take_append_drop n c.rest).symm, by rw [hlength]; rfl⟩

/-- The number that `n` bytes spell has `n` digits to the base 256. -/
theorem BigEndian.toNat_lt {raw : Bytes} {n : Nat} (h : raw.length = n) : toNat raw < 256 ^ n := by
  subst h
  induction raw using List.reverseRecOn with
  | nil => decide
  | append_singleton raw byte ih =>
    have hbyte := byte.toNat_lt
    have hlast : toNat (raw ++ [byte]) = toNat raw * 256 + byte.toNat := by
      unfold toNat
      rw [List.foldl_append]
      rfl
    rw [hlast, List.length_append, List.length_singleton, pow_succ]
    omega

namespace Reading

/-- `r` takes the next `n` bytes and makes `f` of them.  Where there are fewer, it says so and takes
none. -/
structure TakesAs (r : Reading α) (n : Nat) (f : Bytes → α) : Prop where
  enough : ∀ c, n ≤ c.remaining → r c = .ok (f (c.rest.take n)) (c.advance n)
  short : ∀ c, c.remaining < n → r c = .error (.truncatedInput c.offset n c.remaining) c

theorem takesAs_take (n : Nat) : TakesAs (take n) n id where
  enough c h := if_pos ((c.holds_iff n).mpr h)
  short c h := if_neg (mt (c.holds_iff n).mp (Nat.not_le_of_lt h))

/-- What is made of the bytes is a matter of its own. -/
theorem TakesAs.map {r : Reading α} {n : Nat} {f : Bytes → α} (h : TakesAs r n f) (g : α → β) :
    TakesAs (do return g (← r)) n (g ∘ f) where
  enough c hc := by
    rw [bind_of_ok (h.enough c hc)]
    rfl
  short c hc := by
    show EStateM.bind r _ c = _
    unfold EStateM.bind
    rw [h.short c hc]

/-- Only what is made of `n` bytes matters. -/
theorem TakesAs.congr {r : Reading α} {n : Nat} {f g : Bytes → α} (h : TakesAs r n f)
    (hfg : ∀ raw, raw.length = n → f raw = g raw) : TakesAs r n g where
  enough c hc := by rw [h.enough c hc, hfg _ (List.length_take_of_le hc)]
  short := h.short

theorem takesAs_skip (n : Nat) : TakesAs (skip n) n fun _ => () := by
  show TakesAs (do let _ ← take n; return ()) n _
  exact (takesAs_take n).map fun _ => ()

end Reading

/-! ## Field by field -/

/-- Read a field by the reading of its kind. -/
def Field.read : Field → Reading FieldValue
  | .u8 => do return .int (← Reading.u8).toNat
  | .u16 => do return .int (← Reading.u16).toNat
  | .u32 => do return .int (← Reading.u32).toNat
  | .bytes n => do return .bytes (← Reading.take n)
  | .text n => do return .text (← Reading.text n)

/-- A field by itself has the value that it has in a window. -/
theorem Field.takesAs_read (field : Field) : Reading.TakesAs field.read field.width field.value := by
  cases field with
  -- A word of `n` bytes holds every number that `n` bytes spell, so nothing is cut off.
  | u8 =>
    refine (((Reading.takesAs_take 1).map _).map _).congr fun raw hraw => ?_
    exact congrArg FieldValue.int (UInt8.toNat_ofNat_of_lt' (BigEndian.toNat_lt hraw))
  | u16 =>
    refine (((Reading.takesAs_take 2).map _).map _).congr fun raw hraw => ?_
    exact congrArg FieldValue.int (UInt16.toNat_ofNat_of_lt' (BigEndian.toNat_lt hraw))
  | u32 =>
    refine (((Reading.takesAs_take 4).map _).map _).congr fun raw hraw => ?_
    exact congrArg FieldValue.int (UInt32.toNat_ofNat_of_lt' (BigEndian.toNat_lt hraw))
  | bytes n => exact (Reading.takesAs_take n).map _
  | text n => exact ((Reading.takesAs_take n).map _).map _

namespace Reading

/-- Read fields one after the other. -/
def inOrder : List Field → Reading (List FieldValue)
  | [] => return []
  | field :: fields => do
    let value ← field.read
    let values ← inOrder fields
    return value :: values

/-- Read fields one after the other, and pass over what is left of a window of `n` bytes. -/
def fieldwise (n : Nat) (fields : List Field) : Reading (List FieldValue) := do
  let values ← inOrder fields
  skip (n - Layout.width fields)
  return values

end Reading

namespace Layout

/-- Bytes behind the fields do not matter to their values. -/
theorem values_take {fields : List Field} {n : Nat} (h : width fields ≤ n) (window : Bytes) :
    values fields (window.take n) = values fields window := by
  induction fields generalizing n window with
  | nil => rfl
  | cons field fields ih =>
    have hwidth : field.width + width fields ≤ n := h
    rw [values, values, List.take_take, Nat.min_eq_left (by omega), List.drop_take, ih (by omega)]

end Layout

namespace Reading

theorem inOrder_of_le {fields : List Field} {c : Cursor} (h : Layout.width fields ≤ c.remaining) :
    inOrder fields c = .ok (Layout.values fields c.rest) (c.advance (Layout.width fields)) := by
  induction fields generalizing c with
  | nil => rfl
  | cons field fields ih =>
    have hwidth : field.width + Layout.width fields ≤ c.remaining := h
    have hrest : Layout.width fields ≤ (c.advance field.width).remaining := by
      rw [c.remaining_advance]
      omega
    rw [inOrder, bind_of_ok (field.takesAs_read.enough c (by omega)), bind_of_ok (ih hrest),
      c.advance_advance]
    rfl

theorem fieldwise_of_le {n : Nat} {fields : List Field} {c : Cursor} (hwidth : Layout.width fields ≤ n)
    (hn : n ≤ c.remaining) :
    fieldwise n fields c = .ok (Layout.values fields c.rest) (c.advance n) := by
  have hskip : n - Layout.width fields ≤ (c.advance (Layout.width fields)).remaining := by
    rw [c.remaining_advance]
    omega
  rw [fieldwise, bind_of_ok (inOrder_of_le (by omega)), bind_of_ok ((takesAs_skip _).enough _ hskip),
    c.advance_advance, Nat.add_sub_cancel' hwidth]
  rfl

theorem layout_of_overflow {n : Nat} {fields : List Field} (h : n < Layout.width fields) (c : Cursor) :
    layout n fields c = .error (.layoutOverflow (Layout.width fields) n) c := by
  unfold layout
  rw [if_pos h]
  rfl

/-- A window that has room for its fields is taken like any other bytes. -/
theorem takesAs_layout {n : Nat} {fields : List Field} (h : Layout.width fields ≤ n) :
    TakesAs (layout n fields) n (Layout.values fields) := by
  rw [layout_of_fits h]
  exact (takesAs_take n).map _

theorem layout_eq_overflow_iff (c : Cursor) (n : Nat) (fields : List Field) :
    layout n fields c = .error (.layoutOverflow (Layout.width fields) n) c ↔
      n < Layout.width fields := by
  refine ⟨fun h => ?_, fun h => layout_of_overflow h c⟩
  by_contra hroom
  have htakes := takesAs_layout (Nat.le_of_not_lt hroom)
  rcases Nat.lt_or_ge c.remaining n with hshort | henough
  · rw [htakes.short c hshort] at h
    cases h
  · rw [htakes.enough c henough] at h
    cases h

theorem layout_eq_truncated_iff (c : Cursor) (n : Nat) (fields : List Field) :
    layout n fields c = .error (.truncatedInput c.offset n c.remaining) c ↔
      Layout.width fields ≤ n ∧ c.remaining < n := by
  refine ⟨fun h => ?_, fun h => (takesAs_layout h.1).short c h.2⟩
  rcases Nat.lt_or_ge n (Layout.width fields) with hover | hroom
  · rw [layout_of_overflow hover] at h
    cases h
  · refine ⟨hroom, Nat.lt_of_not_le fun henough => ?_⟩
    rw [(takesAs_layout hroom).enough c henough] at h
    cases h

/-- **Reading a window is reading its fields.** -/
theorem layout_eq_fieldwise {n : Nat} {fields : List Field} {c : Cursor}
    (hwidth : Layout.width fields ≤ n) (hn : n ≤ c.remaining) :
    ∃ values c', layout n fields c = .ok values c' ∧ fieldwise n fields c = .ok values c' := by
  refine ⟨_, _, ?_, fieldwise_of_le hwidth hn⟩
  rw [(takesAs_layout hwidth).enough c hn, Layout.values_take hwidth]

end Reading

/-! ## Sequences of calls -/

/-- A call that reads from a cursor. -/
inductive ReadCall where
  /-- A single field, by the reading of its kind. -/
  | field (f : Field)
  | tag
  | skip (n : Nat)
  | layout (n : Nat) (fields : List Field)
  | instruction

/-- What a call answers. -/
inductive Reply where
  | value (v : FieldValue)
  | tag (raw : Bytes)
  | nothing
  | values (vs : List FieldValue)
  | instruction (i : Instruction)

namespace ReadCall

/-- Carry out a call. -/
def perform : ReadCall → Reading Reply
  | .field f => do return .value (← f.read)
  | .tag => do return .tag (← Reading.tag)
  | .skip n => do
    Reading.skip n
    return .nothing
  | .layout n fields => do return .values (← Reading.layout n fields)
  | .instruction => do return .instruction (← Reading.instruction)

/-- How many bytes a call that was answered stands for. -/
def extent : ReadCall → Reply → Nat
  | .field f, _ => f.width
  | .tag, _ => 4
  | .skip n, _ | .layout n _, _ => n
  | .instruction, .instruction i => i.encodedSize
  | .instruction, _ => 0

end ReadCall

/-- Where the cursor stands after a call, whether that fails or not. -/
def Cursor.after (c : Cursor) (call : ReadCall) : Cursor :=
  match call.perform c with
  | .ok _ c' => c'
  | .error _ c' => c'

/-- Where the cursor stands after calls, of which any may fail. -/
def Cursor.afterAll (c : Cursor) (calls : List ReadCall) : Cursor := calls.foldl Cursor.after c

namespace Reading

/-- `r` moves over `n` bytes that are there, or fails and stays. -/
def Steady (r : Reading α) (n : Nat) : Prop :=
  ∀ c, (∃ x, n ≤ c.remaining ∧ r c = .ok x (c.advance n)) ∨ ∃ e, r c = .error e c

theorem TakesAs.steady {r : Reading α} {n : Nat} {f : Bytes → α} (h : TakesAs r n f) : Steady r n := by
  intro c
  rcases Nat.lt_or_ge c.remaining n with hshort | henough
  · exact .inr ⟨_, h.short c hshort⟩
  · exact .inl ⟨_, henough, h.enough c henough⟩

theorem Steady.map {r : Reading α} {n : Nat} (h : Steady r n) (g : α → β) :
    Steady (do return g (← r)) n := by
  intro c
  rcases h c with ⟨x, hn, hx⟩ | ⟨e, he⟩
  · exact .inl ⟨g x, hn, bind_of_ok hx _⟩
  · refine .inr ⟨e, ?_⟩
    show EStateM.bind r _ c = _
    unfold EStateM.bind
    rw [he]

theorem steady_layout (n : Nat) (fields : List Field) : Steady (layout n fields) n := by
  rcases Nat.lt_or_ge n (Layout.width fields) with hover | hroom
  · exact fun c => .inr ⟨_, layout_of_overflow hover c⟩
  · exact (takesAs_layout hroom).steady

end Reading

namespace ReadCall

open Reading

/-- All calls but one move over the bytes they stand for or stay. -/
theorem steady_perform {call : ReadCall} (h : call ≠ .instruction) (reply : Reply) :
    Steady call.perform (call.extent reply) := by
  cases call with
  | field f => exact f.takesAs_read.steady.map _
  | tag => exact (takesAs_take 4).steady.map _
  | skip n => exact (takesAs_skip n).steady.map _
  | layout n fields => exact (steady_layout n fields).map _
  | instruction => exact absurd rfl h

/-- An instruction takes as many bytes as its encoding has. -/
theorem instruction_eq_ok {c c' : Cursor} {i : Instruction} (h : Reading.instruction c = .ok i c') :
    i.encodedSize ≤ c.remaining ∧ c' = c.advance i.encodedSize := by
  obtain ⟨offset, input⟩ := c
  obtain ⟨_, rest, rfl, rfl, _, rfl⟩ := (reads_instruction _ _ _ _).mp h
  unfold Cursor.remaining Cursor.advance
  dsimp only
  rw [List.length_append, ← i.length_encode, List.drop_left]
  exact ⟨Nat.le_add_right _ _, rfl⟩

/-- An answered call has moved over the bytes it stands for. -/
theorem perform_eq_ok {call : ReadCall} {c c' : Cursor} {reply : Reply}
    (h : call.perform c = .ok reply c') :
    call.extent reply ≤ c.remaining ∧ c' = c.advance (call.extent reply) := by
  by_cases hcall : call = .instruction
  · subst hcall
    obtain ⟨i, c₁, hread, hreply⟩ := (bind_eq_ok_iff _ _ _ _ _).mp h
    obtain ⟨rfl, rfl⟩ := EStateM.Result.ok.inj hreply
    exact instruction_eq_ok hread
  · rcases steady_perform hcall reply c with ⟨x, hn, hx⟩ | ⟨e, he⟩
    · rw [hx] at h
      obtain ⟨rfl, rfl⟩ := EStateM.Result.ok.inj h
      exact ⟨hn, rfl⟩
    · rw [he] at h
      cases h

theorem perform_eq_error {call : ReadCall} {c c' : Cursor} {e : LoadError} (hcall : call ≠ .instruction)
    (h : call.perform c = .error e c') : c' = c := by
  rcases steady_perform hcall .nothing c with ⟨x, _, hx⟩ | ⟨e', he⟩
  · rw [hx] at h
    cases h
  · rw [he] at h
    exact (EStateM.Result.error.inj h).2.symm

end ReadCall

namespace Cursor

/-- No call moves the cursor back or past the end, whether it fails or not. -/
theorem leadsTo_after (c : Cursor) (call : ReadCall) : c.LeadsTo (c.after call) := by
  unfold after
  cases hperform : call.perform c with
  | ok reply c' =>
    obtain ⟨hextent, rfl⟩ := ReadCall.perform_eq_ok hperform
    exact leadsTo_advance hextent
  | error e c' =>
    by_cases hcall : call = .instruction
    · -- The pieces of the instruction that were there stay read: the cursor may have moved.
      subst hcall
      have hforward : Reading.Forward (ReadCall.perform .instruction) :=
        Reading.forward_instruction.bind fun _ => Reading.forward_pure _
      exact (hforward c).2 e c' hperform
    · rw [ReadCall.perform_eq_error hcall hperform]
      exact .refl c

theorem leadsTo_afterAll (c : Cursor) (calls : List ReadCall) : c.LeadsTo (c.afterAll calls) := by
  induction calls generalizing c with
  | nil => exact .refl c
  | cons call calls ih => exact (c.leadsTo_after call).trans (ih (c.after call))

/-- A cursor that has moved on shows the bytes that its offset says. -/
theorem LeadsTo.rest_eq {c c' : Cursor} (h : c.LeadsTo c') :
    c'.rest = c.rest.drop (c'.offset - c.offset) := by
  obtain ⟨passed, hrest, hoffset⟩ := h
  rw [hrest, hoffset, Nat.add_sub_cancel_left, List.drop_left]

end Cursor

/-- **Readings account for every byte.**  A layout is refused exactly if its fields do not fit into the
window, and else fails exactly if the window is not there.  Otherwise it gives the values that the readings
of the single fields give one after the other, and leaves the cursor where these and the passing over of the
rest of the window leave it.

Along any sequence of calls, of which any may fail, offset and remaining length make up the same sum, and
what remains is the input from the offset on.  Wherever the cursor has got to, a call that is answered moves
it by the bytes it stands for, and a call that fails leaves it alone unless it was to read an instruction. -/
theorem readings_accounted :
    (∀ (c : Cursor) (n : Nat) (fields : List Field),
      (Reading.layout n fields c = .error (.layoutOverflow (Layout.width fields) n) c ↔
        n < Layout.width fields) ∧
      (Reading.layout n fields c = .error (.truncatedInput c.offset n c.remaining) c ↔
        Layout.width fields ≤ n ∧ c.remaining < n) ∧
      (Layout.width fields ≤ n ∧ n ≤ c.remaining →
        ∃ values c', Reading.layout n fields c = .ok values c' ∧
          Reading.fieldwise n fields c = .ok values c')) ∧
    ∀ (bytes : Bytes) (base : Nat) (calls : List ReadCall) (c : Cursor),
      (Cursor.start bytes base).afterAll calls = c →
        c.offset + c.remaining = base + bytes.length ∧ c.rest = bytes.drop (c.offset - base) ∧
        ∀ call : ReadCall,
          (∀ reply c', call.perform c = .ok reply c' → c'.offset = c.offset + call.extent reply) ∧
          ∀ e c', call.perform c = .error e c' → call ≠ .instruction → c' = c := by
  constructor
  · intro c n fields
    exact ⟨Reading.layout_eq_overflow_iff c n fields, Reading.layout_eq_truncated_iff c n fields,
      fun ⟨hwidth, hn⟩ => Reading.layout_eq_fieldwise hwidth hn⟩
  · rintro bytes base calls c rfl
    have hleads := (Cursor.start bytes base).leadsTo_afterAll calls
    refine ⟨hleads.sum_eq.2, hleads.rest_eq, fun call => ⟨fun reply c' h => ?_, fun e c' h hcall => ?_⟩⟩
    · rw [(ReadCall.perform_eq_ok h).2]
      rfl
    · exact ReadCall.perform_eq_error hcall h

/-- A magic number, a word, a string in a slot of five bytes and three bytes more. -/
def looseHeader : Bytes := [0x52, 0x49, 0x54, 0x45, 0, 3, 0x61, 0x62, 0x63, 0, 0, 0xFF, 0x74, 0x2F]

/-- A window of twelve bytes leaves one byte uncovered.  Behind it there are not four bytes for a word, and
the cursor stays.  The operands of the last instruction are missing, and its opcode is read all the same. -/
theorem readings_accounted_looseHeader :
    (∃ values c', Reading.layout 12 [.bytes 4, .u16, .text 5] (Cursor.start looseHeader 100) =
        .ok values c' ∧
      Reading.fieldwise 12 [.bytes 4, .u16, .text 5] (Cursor.start looseHeader 100) = .ok values c') ∧
    (Cursor.start looseHeader 100).afterAll
      [.layout 12 [.bytes 4, .u16, .text 5], .field .u32, .skip 1, .instruction] = ⟨114, []⟩ ∧
    ∀ e c', ReadCall.perform (.field .u8) ⟨114, []⟩ = .error e c' → c' = ⟨114, []⟩ := by
  have hcalls : (Cursor.start looseHeader 100).afterAll
      [.layout 12 [.bytes 4, .u16, .text 5], .field .u32, .skip 1, .instruction] = ⟨114, []⟩ := by
    decide +kernel
  obtain ⟨hlayouts, haccounted⟩ := readings_accounted
  obtain ⟨_, _, hcall⟩ := haccounted _ _ _ _ hcalls
  refine ⟨(hlayouts _ _ _).2.2 ⟨by decide, by decide⟩, hcalls, fun e c' h => ?_⟩
  exact (hcall (.field .u8)).2 e c' h (by simp)

end Rite

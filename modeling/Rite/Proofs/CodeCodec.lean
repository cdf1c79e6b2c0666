import Mathlib.Tactic.FinCases
import Mathlib.Tactic.SplitIfs
import Rite.Code.Section
import Rite.Proofs.Reading

/-!
# The instruction codec

A code section is a concatenation of encoded instructions and nothing else: `Reading.code` accepts
exactly the byte strings that encode a list of instructions whose operands fit their shapes, and gives
back that list.  The list is unique, so encoder and decoder are inverse to each other on whole
sections, although instructions have different lengths and nothing separates them.

The argument is made once for a single instruction, by its seven shapes.  A section is then an
induction on the list in one direction and on the rounds of the scan in the other.
-/

namespace Rite

/-! ## Opcodes -/

namespace Opcode

theorem ofByte?_toByte (op : Opcode) : ofByte? op.toByte = some op := by
  cases op <;> rfl

theorem toByte_injective : Function.Injective toByte := by
  intro op op' h
  have hsome : some op = some op' := by rw [← ofByte?_toByte, ← ofByte?_toByte op', h]
  exact Option.some.inj hsome

theorem all_toByte : all.map toByte = (List.range 106).map UInt8.ofNat := by
  decide

/-- A byte has an opcode exactly when it is the byte of that opcode. -/
theorem ofByte?_eq_some_iff (byte : UInt8) (op : Opcode) :
    ofByte? byte = some op ↔ byte = op.toByte := by
  constructor
  · intro h
    -- The list of opcodes and their numbering agree position by position.
    have hmap : (all.map toByte)[byte.toNat]? = some op.toByte := by
      rw [List.getElem?_map, show all[byte.toNat]? = some op from h]
      rfl
    rw [all_toByte, List.getElem?_map] at hmap
    obtain ⟨n, hn, hop⟩ := Option.map_eq_some_iff.mp hmap
    have hbyte : n = byte.toNat := by
      rw [List.getElem?_eq_some_iff] at hn
      obtain ⟨_, hget⟩ := hn
      rw [← hget, List.getElem_range]
    rw [← hop, hbyte, UInt8.ofNat_toNat]
  · rintro rfl
    exact ofByte?_toByte op

end Opcode

/-! ## Operands -/

namespace Instruction

/-- The operands fit the shape of the opcode: eight bits where it has eight bits, and zero where it
has none. -/
def Fits (i : Instruction) : Prop :=
  match i.op.shape with
  | .z => i.a = 0 ∧ i.b = 0 ∧ i.c = 0
  | .b => i.a < 256 ∧ i.b = 0 ∧ i.c = 0
  | .bb => i.a < 256 ∧ i.b < 256 ∧ i.c = 0
  | .bbb => i.a < 256 ∧ i.b < 256 ∧ i.c < 256
  | .bs => i.a < 256 ∧ i.c = 0
  | .bss => i.a < 256
  | .s => i.b = 0 ∧ i.c = 0

instance (i : Instruction) : Decidable i.Fits := by
  unfold Fits
  split <;> infer_instance

theorem toUInt16_toUInt8_eq_iff (w : UInt16) : w.toUInt8.toUInt16 = w ↔ w < 256 := by
  rw [← UInt16.toNat_inj, UInt16.lt_iff_toNat_lt]
  simp

/-- Fitting instructions are those that reading back leaves alone. -/
theorem canonical_iff_fits (i : Instruction) : i.Canonical ↔ i.Fits := by
  obtain ⟨op, a, b, c⟩ := i
  simp only [Canonical, canonical, Fits]
  cases op.shape <;>
    simp only [mk.injEq, true_and, and_true, toUInt16_toUInt8_eq_iff, eq_comm (a := (0 : UInt16))]

@[simp] theorem length_encode (i : Instruction) : i.encode.length = i.encodedSize := by
  obtain ⟨op, a, b, c⟩ := i
  simp only [encode, operandBytes, encodedSize, Opcode.encodedSize, Shape.width]
  cases op.shape <;> rfl

theorem encodedSize_pos (i : Instruction) : 0 < i.encodedSize := by
  unfold encodedSize Opcode.encodedSize
  omega

end Instruction

/-! ## One instruction -/

namespace Reading

open Instruction (Fits)

theorem reads_operand8 : Reads operand8 (fun _ b x => x < 256 ∧ b = [x.toUInt8]) := by
  refine (reads_u8.bind fun _ => reads_pure _).congr fun base b x => ?_
  constructor
  · rintro ⟨_, _, y, rfl, rfl, rfl, rfl⟩
    refine ⟨?_, by simp⟩
    rw [← Instruction.toUInt16_toUInt8_eq_iff, UInt8.toUInt8_toUInt16]
  · rintro ⟨hx, rfl⟩
    refine ⟨[x.toUInt8], [], x.toUInt8, rfl, rfl, rfl, ?_⟩
    exact ((Instruction.toUInt16_toUInt8_eq_iff x).mpr hx).symm

/-- A reading of operands, given by the strings it accepts for each choice of operands. -/
theorem Reads.fitting {r : Reading Instruction} {G : Nat → Bytes → Instruction → Prop} {op : Opcode}
    (h : Reads r G)
    (hsound : ∀ base b i, G base b i → i.op = op ∧ i.Fits ∧ b = i.operandBytes)
    (hcomplete : ∀ base x y z, Fits ⟨op, x, y, z⟩ →
      G base (Instruction.operandBytes ⟨op, x, y, z⟩) ⟨op, x, y, z⟩) :
    Reads r (fun _ b i => i.op = op ∧ i.Fits ∧ b = i.operandBytes) := by
  refine h.congr fun base b i => ⟨hsound base b i, ?_⟩
  obtain ⟨op', x, y, z⟩ := i
  rintro ⟨rfl, hfits, rfl⟩
  exact hcomplete base x y z hfits

/-- The operands of an opcode are those that fit its shape, each in its own width. -/
theorem reads_operands (op : Opcode) :
    Reads (operands op) (fun _ b i => i.op = op ∧ i.Fits ∧ b = i.operandBytes) := by
  unfold Reading.operands
  cases hshape : op.shape with
  | z =>
    refine (reads_pure _).fitting ?_ fun base x y z hfits => ?_
    · rintro _ _ _ ⟨rfl, rfl⟩
      simp [Fits, Instruction.operandBytes, hshape]
    · simp only [Fits, hshape] at hfits
      simp [Instruction.operandBytes, hshape, hfits]
  | b =>
    refine (reads_operand8.bind fun _ => reads_pure _).fitting ?_ fun base x y z hfits => ?_
    · rintro _ _ _ ⟨_, _, x, rfl, ⟨hx, rfl⟩, rfl, rfl⟩
      simp [Fits, Instruction.operandBytes, hshape, hx]
    · simp only [Fits, hshape] at hfits
      simp [Instruction.operandBytes, hshape, hfits]
  | bb =>
    refine (reads_operand8.bind fun _ => reads_operand8.bind fun _ => reads_pure _).fitting ?_
      fun base x y z hfits => ?_
    · rintro _ _ _ ⟨_, _, x, rfl, ⟨hx, rfl⟩, _, _, y, rfl, ⟨hy, rfl⟩, rfl, rfl⟩
      simp [Fits, Instruction.operandBytes, hshape, hx, hy]
    · simp only [Fits, hshape] at hfits
      simp [Instruction.operandBytes, hshape, hfits]
  | bbb =>
    refine (reads_operand8.bind fun _ => reads_operand8.bind fun _ => reads_operand8.bind
      fun _ => reads_pure _).fitting ?_ fun base x y z hfits => ?_
    · rintro _ _ _ ⟨_, _, x, rfl, ⟨hx, rfl⟩, _, _, y, rfl, ⟨hy, rfl⟩, _, _, z, rfl, ⟨hz, rfl⟩, rfl, rfl⟩
      simp [Fits, Instruction.operandBytes, hshape, hx, hy, hz]
    · simp only [Fits, hshape] at hfits
      simp [Instruction.operandBytes, hshape, hfits]
  | bs =>
    refine (reads_operand8.bind fun _ => reads_u16.bind fun _ => reads_pure _).fitting ?_
      fun base x y z hfits => ?_
    · rintro _ _ _ ⟨_, _, x, rfl, ⟨hx, rfl⟩, _, _, y, rfl, rfl, rfl, rfl⟩
      simp [Fits, Instruction.operandBytes, hshape, hx]
    · simp only [Fits, hshape] at hfits
      simp [Instruction.operandBytes, hshape, hfits]
  | bss =>
    refine (reads_operand8.bind fun _ => reads_u16.bind fun _ => reads_u16.bind
      fun _ => reads_pure _).fitting ?_ fun base x y z hfits => ?_
    · rintro _ _ _ ⟨_, _, x, rfl, ⟨hx, rfl⟩, _, _, y, rfl, rfl, _, _, z, rfl, rfl, rfl, rfl⟩
      simp [Fits, Instruction.operandBytes, hshape, hx]
    · simp only [Fits, hshape] at hfits
      simp [Instruction.operandBytes, hshape, hfits]
  | s =>
    refine (reads_u16.bind fun _ => reads_pure _).fitting ?_ fun base x y z hfits => ?_
    · rintro _ _ _ ⟨_, _, x, rfl, rfl, rfl, rfl⟩
      simp [Fits, Instruction.operandBytes, hshape]
    · simp only [Fits, hshape] at hfits
      simp [Instruction.operandBytes, hshape, hfits]

/-- What follows an opcode byte: the operands of the opcode, and nothing if the byte is none. -/
theorem reads_afterByte (start : Nat) (byte : UInt8) :
    Reads
      (match Opcode.ofByte? byte with
        | some op => operands op
        | none => throw (.unknownOpcode start byte))
      (fun _ b i => i.op.toByte = byte ∧ i.Fits ∧ b = i.operandBytes) := by
  cases hop : Opcode.ofByte? byte with
  | some op =>
    refine (reads_operands op).congr fun base b i => ?_
    rw [(Opcode.ofByte?_eq_some_iff byte op).mp hop, Opcode.toByte_injective.eq_iff]
  | none =>
    refine (reads_throw _).congr fun base b i => ?_
    constructor
    · exact False.elim
    · rintro ⟨hbyte, _, _⟩
      rw [← hbyte, Opcode.ofByte?_toByte] at hop
      cases hop

/-- **One instruction.**  The strings that are read as one instruction are the encodings of fitting
instructions. -/
theorem reads_instruction : Reads instruction (fun _ b i => i.Fits ∧ b = i.encode) := by
  refine (reads_offset.bind fun start => reads_u8.bind fun byte => reads_afterByte start byte).congr
    fun base b i => ?_
  constructor
  · rintro ⟨_, _, start, rfl, ⟨rfl, rfl⟩, _, b, byte, rfl, rfl, rfl, hfits, rfl⟩
    exact ⟨hfits, rfl⟩
  · rintro ⟨hfits, rfl⟩
    exact ⟨[], i.encode, base, rfl, ⟨rfl, rfl⟩, [i.op.toByte], i.operandBytes, i.op.toByte, rfl, rfl,
      rfl, hfits, rfl⟩

end Reading

/-! ## Sections -/

/-- `b` is a concatenation of fitting instructions, namely of `is`. -/
def Encodes (is : List Instruction) (b : Bytes) : Prop :=
  (∀ i ∈ is, i.Fits) ∧ b = is.flatMap Instruction.encode

namespace Code

/-- Instructions laid out one behind the other, the first at offset `start`. -/
def placeFrom (start : Nat) : List Instruction → List Placed
  | [] => []
  | i :: is => ⟨start, i⟩ :: placeFrom (start + i.encodedSize) is

/-- The code section that holds the given instructions and nothing else. -/
def ofInstructions (is : List Instruction) : Code where
  placed := (placeFrom 0 is).toArray
  size := (is.flatMap Instruction.encode).length

@[simp] theorem instructions_ofInstructions (is : List Instruction) :
    (ofInstructions is).instructions = is := by
  have hplace : ∀ start, (placeFrom start is).map (·.instruction) = is := by
    induction is with
    | nil => exact fun _ => rfl
    | cons i is ih => exact fun start => by rw [placeFrom, List.map_cons, ih]
  simpa [instructions, ofInstructions] using hplace 0

/-- Each offset is the sum of the sizes of the instructions before it. -/
theorem offsets_ofInstructions (is : List Instruction) :
    (ofInstructions is).offsets =
      (List.range is.length).map fun k => ((is.take k).map Instruction.encodedSize).sum := by
  have hplace : ∀ start, (placeFrom start is).map (·.offset) =
      (List.range is.length).map fun k =>
        start + ((is.take k).map Instruction.encodedSize).sum := by
    induction is with
    | nil => exact fun _ => rfl
    | cons i is ih =>
      intro start
      rw [placeFrom, List.map_cons, ih, List.length_cons, List.range_succ_eq_map, List.map_cons,
        List.map_map]
      simp [Nat.add_assoc]
  simpa [offsets, ofInstructions] using hplace 0

/-- An instruction ends where the section does, or before. -/
theorem end_le_of_mem_placeFrom {start : Nat} {is : List Instruction} {p : Placed}
    (hp : p ∈ placeFrom start is) :
    p.offset + p.instruction.encodedSize ≤ start + (is.flatMap Instruction.encode).length := by
  induction is generalizing start with
  | nil => cases hp
  | cons i is ih =>
    rw [List.flatMap_cons, List.length_append, Instruction.length_encode]
    rcases List.mem_cons.mp hp with rfl | hp
    · show start + i.encodedSize ≤ _
      omega
    · have hend := ih hp
      omega

/-- An encoded list is scanned to its end. -/
theorem scanFrom_encode (base size : Nat) {is : List Instruction} (hfits : ∀ i ∈ is, i.Fits)
    (rounds : Nat) (hrounds : (is.flatMap Instruction.encode).length ≤ rounds) (start : Nat) :
    scanFrom base size rounds ⟨base + start, is.flatMap Instruction.encode⟩ =
      (placeFrom start is, none) := by
  induction is generalizing rounds start with
  | nil => cases rounds <;> rfl
  | cons i is ih =>
    rw [List.flatMap_cons, List.length_append, Instruction.length_encode] at hrounds
    -- An instruction takes at least one byte, so there is a round for it.
    have hpos := i.encodedSize_pos
    obtain ⟨rounds, rfl⟩ : ∃ n, rounds = n + 1 := ⟨rounds - 1, by omega⟩
    have hread : Reading.instruction
        ⟨base + start, i.encode ++ is.flatMap Instruction.encode⟩ =
          .ok i ⟨base + (start + i.encodedSize), is.flatMap Instruction.encode⟩ := by
      rw [Reading.reads_instruction.accepts ⟨hfits i (by simp), rfl⟩, Instruction.length_encode,
        Nat.add_assoc]
    have hrest := ih (fun j hj => hfits j (by simp [hj])) rounds (by omega)
      (start + i.encodedSize)
    rw [List.flatMap_cons, scanFrom, if_neg (by simp [Cursor.atEnd, Instruction.encode])]
    simp only [hread, hrest, placeFrom, Nat.add_sub_cancel_left]

/-- Whatever is scanned to its end is an encoded list. -/
theorem exists_encodes_of_scanFrom {base size rounds : Nat} {c : Cursor} {placed : List Placed}
    (hscan : scanFrom base size rounds c = (placed, none)) (hrounds : c.rest.length ≤ rounds) :
    ∃ is, Encodes is c.rest := by
  induction rounds generalizing c placed with
  | zero => exact ⟨[], by simp, List.length_eq_zero_iff.mp (by omega)⟩
  | succ rounds ih =>
    rw [scanFrom] at hscan
    split at hscan
    case isTrue hend => exact ⟨[], by simp, by simpa [Cursor.atEnd] using hend⟩
    case isFalse =>
      split at hscan
      case h_1 i next hread =>
        obtain ⟨b, rest, hinput, rfl, hfits, rfl⟩ := (Reading.reads_instruction _ _ _ _).mp hread
        have hsize := congrArg List.length hinput
        rw [List.length_append, Instruction.length_encode] at hsize
        have hpos := i.encodedSize_pos
        -- An error in the rest would be the error of the whole.
        have hstop : scanFrom base size rounds ⟨c.offset + i.encode.length, rest⟩ =
            ((scanFrom base size rounds ⟨c.offset + i.encode.length, rest⟩).1, none) :=
          Prod.ext rfl (Prod.mk.inj hscan).2
        obtain ⟨is, hall, hrest⟩ := ih hstop (by simp only; omega)
        refine ⟨i :: is, List.forall_mem_cons.mpr ⟨hfits, hall⟩, ?_⟩
        rw [hinput, List.flatMap_cons, ← hrest]
      case h_2 => simp at hscan

theorem scan_eq_none_iff (bytes : Bytes) (base : Nat) (placed : List Placed) :
    scan bytes base = (placed, none) ↔
      ∃ is, Encodes is bytes ∧ placed = placeFrom 0 is := by
  constructor
  · intro hscan
    obtain ⟨is, hfits, hbytes⟩ := exists_encodes_of_scanFrom hscan (Nat.le_refl _)
    change bytes = _ at hbytes
    refine ⟨is, ⟨hfits, hbytes⟩, ?_⟩
    have hall := scanFrom_encode base bytes.length hfits bytes.length (by rw [← hbytes]) 0
    rw [← hbytes] at hall
    exact congrArg Prod.fst (hscan.symm.trans hall)
  · rintro ⟨is, ⟨hfits, rfl⟩, rfl⟩
    exact scanFrom_encode base _ hfits _ (Nat.le_refl _) 0

end Code

namespace Reading

/-- The outcome of a scan as a reading: it takes no bytes of its own. -/
theorem reads_scanned (bytes : Bytes) (start size : Nat) :
    Reads
      (match Code.scan bytes start with
        | (placed, none) => return (⟨placed.toArray, size⟩ : Code)
        | (_, some e) => throw e)
      (fun _ b code =>
        b = [] ∧ ∃ is, Encodes is bytes ∧ code = ⟨(Code.placeFrom 0 is).toArray, size⟩) := by
  cases hscan : Code.scan bytes start with
  | mk placed stop =>
    cases stop with
    | none =>
      refine (reads_pure _).congr fun base b code => and_congr_right fun _ => ?_
      constructor
      · rintro rfl
        obtain ⟨is, his, rfl⟩ := (Code.scan_eq_none_iff bytes start placed).mp hscan
        exact ⟨is, his, rfl⟩
      · rintro ⟨is, his, rfl⟩
        have hsame := (Code.scan_eq_none_iff bytes start _).mpr ⟨is, his, rfl⟩
        obtain ⟨rfl, _⟩ := Prod.mk.inj (hscan.symm.trans hsame)
        rfl
    | some e =>
      refine (reads_throw e).congr fun base b code => ?_
      constructor
      · exact False.elim
      · rintro ⟨_, is, his, _⟩
        have hsame := (Code.scan_eq_none_iff bytes start _).mpr ⟨is, his, rfl⟩
        cases (Prod.mk.inj (hscan.symm.trans hsame)).2

/-- **A code section.**  A section of `size` bytes is read exactly when it is an encoded list. -/
theorem reads_code (size : Nat) :
    Reads (code size) (fun _ b code =>
      b.length = size ∧ ∃ is, Encodes is b ∧ code = Code.ofInstructions is) := by
  refine (reads_offset.bind fun start => (reads_take size).bind fun bytes =>
    reads_scanned bytes start size).congr fun base b code => ?_
  constructor
  · rintro ⟨_, _, _, rfl, ⟨rfl, rfl⟩, b, _, _, rfl, ⟨rfl, rfl⟩, rfl, is, ⟨hfits, rfl⟩, rfl⟩
    refine ⟨by simp, is, ⟨hfits, by simp⟩, rfl⟩
  · rintro ⟨rfl, is, ⟨hfits, rfl⟩, rfl⟩
    exact ⟨[], _, base, rfl, ⟨rfl, rfl⟩, _, [], _, (List.append_nil _).symm, ⟨rfl, rfl⟩, rfl, is,
      ⟨hfits, rfl⟩, rfl⟩

end Reading

/-! ## The codec is a bijection -/

/-- Different lists have different encodings. -/
theorem Encodes.unique {is js : List Instruction} {b : Bytes} (his : Encodes is b)
    (hjs : Encodes js b) : is = js := by
  have hi : Reading.code b.length ⟨0, b ++ []⟩ = .ok (Code.ofInstructions is) _ :=
    (Reading.reads_code b.length).accepts ⟨rfl, is, his, rfl⟩ []
  have hj : Reading.code b.length ⟨0, b ++ []⟩ = .ok (Code.ofInstructions js) _ :=
    (Reading.reads_code b.length).accepts ⟨rfl, js, hjs, rfl⟩ []
  have hcode := (EStateM.Result.ok.inj (hi.symm.trans hj)).1
  rw [← Code.instructions_ofInstructions is, hcode, Code.instructions_ofInstructions]

/-- **The code section codec is a bijection.**  Over exactly `bytes`, decoding succeeds if and only if
they are a concatenation of encoded instructions whose operands fit.  That list is unique, and it is
what decoding gives, each instruction at the sum of the sizes before it, with the section's length and
the cursor behind its last byte.  `rest` is whatever follows the section. -/
theorem code_codec_bijective (base : Nat) (bytes rest : Bytes) :
    ((∃ code c', Reading.code bytes.length ⟨base, bytes ++ rest⟩ = .ok code c') ↔
      ∃ is : List Instruction, (∀ i ∈ is, i.Fits) ∧ bytes = is.flatMap Instruction.encode) ∧
    ∀ is : List Instruction, (∀ i ∈ is, i.Fits) → bytes = is.flatMap Instruction.encode →
      (∀ js : List Instruction, (∀ j ∈ js, j.Fits) → bytes = js.flatMap Instruction.encode →
        js = is) ∧
      ∃ code, Reading.code bytes.length ⟨base, bytes ++ rest⟩ =
          .ok code ⟨base + bytes.length, rest⟩ ∧
        code.instructions = is ∧
        code.offsets =
          (List.range is.length).map (fun k => ((is.take k).map Instruction.encodedSize).sum) ∧
        code.size = bytes.length := by
  constructor
  · constructor
    · rintro ⟨code, c', hread⟩
      obtain ⟨b, rest', hinput, rfl, hlen, is, his, rfl⟩ := (Reading.reads_code _ _ _ _ _).mp hread
      obtain ⟨rfl, rfl⟩ := List.append_inj hinput hlen.symm
      exact ⟨is, his⟩
    · rintro ⟨is, his⟩
      exact ⟨_, _, (Reading.reads_code _).accepts ⟨rfl, is, his, rfl⟩ rest⟩
  · intro is hfits hbytes
    refine ⟨fun js hjs hb => Encodes.unique ⟨hjs, hb⟩ ⟨hfits, hbytes⟩, Code.ofInstructions is,
      (Reading.reads_code _).accepts ⟨rfl, is, ⟨hfits, hbytes⟩, rfl⟩ rest,
      Code.instructions_ofInstructions is, Code.offsets_ofInstructions is, ?_⟩
    rw [hbytes]
    rfl

end Rite

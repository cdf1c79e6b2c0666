import Mathlib.Data.List.Basic
import Rite.Text.Utf8

/-!
# Decoding undoes encoding

`Utf8.chars` reads arbitrary bytes and never fails, so what it makes of *well-formed* bytes has to be
shown.  One lemma for each sequence length says when a prefix of the input is taken as one scalar
value; a character's own encoding always meets the condition of its length, whatever follows it.
Hence `decode (encode text) = text`, and a text without the NUL character has no zero byte.  Conversely,
whatever bytes are decoded, a NUL character in the text comes from a zero byte.
-/

namespace Rite.Utf8

/-- The bytes of a text are those of its characters, one after the other. -/
theorem encode_eq_flatMap (text : String) :
    encode text = text.toList.flatMap String.utf8EncodeChar := by
  have hbytes : text.toUTF8 = text.toList.utf8Encode := by
    rw [String.toUTF8_eq_toByteArray, String.utf8Encode_toList]
  rw [encode, hbytes, List.utf8Encode]
  simp

/-! ## One sequence at the front of the input -/

/-- A range test on bytes, as a statement about numbers. -/
theorem between_eq (lo hi b : UInt8) :
    (decide (lo ≤ b) && decide (b ≤ hi)) = decide (lo.toNat ≤ b.toNat ∧ b.toNat ≤ hi.toNat) := by
  simp only [UInt8.le_iff_toNat_le, Bool.decide_and]

theorem ascii_iff (lead : UInt8) : lead < 0x80 ↔ lead.toNat < 0x80 := UInt8.lt_iff_toNat_lt

theorem isContinuation_iff (b : UInt8) :
    isContinuation b = true ↔ 0x80 ≤ b.toNat ∧ b.toNat ≤ 0xBF := by
  rw [isContinuation, between_eq, decide_eq_true_iff]
  rfl

theorem chars_one {lead : UInt8} (hlead : lead.toNat < 0x80) (rest : Bytes) :
    chars (lead :: rest) = Char.ofNat lead.toNat :: chars rest := by
  rw [chars.eq_def]
  simp only [(ascii_iff lead).mpr hlead, if_true]

theorem chars_two {lead second : UInt8} (hlo : 0xC2 ≤ lead.toNat) (hhi : lead.toNat ≤ 0xDF)
    (h₂ : isContinuation second = true) (rest : Bytes) :
    chars (lead :: second :: rest) = scalar2 lead second :: chars rest := by
  have h1 : ¬ lead.toNat < 0x80 := by omega
  rw [chars.eq_def]
  simp only [ascii_iff, between_eq, UInt8.reduceToNat, h1, hlo, hhi, h₂, and_self, decide_true,
    if_true, if_false]

theorem chars_three {lead second third : UInt8} (hlo : 0xE0 ≤ lead.toNat)
    (hhi : lead.toNat ≤ 0xEF) (h₂ : second3 lead second = true)
    (h₃ : isContinuation third = true) (rest : Bytes) :
    chars (lead :: second :: third :: rest) = scalar3 lead second third :: chars rest := by
  have h1 : ¬ lead.toNat < 0x80 := by omega
  have h2 : ¬ lead.toNat ≤ 0xDF := by omega
  rw [chars.eq_def]
  simp only [ascii_iff, between_eq, UInt8.reduceToNat, h1, h2, hlo, hhi, h₂, h₃, and_false,
    and_self, decide_true, decide_false, if_true, if_false, Bool.false_eq_true]

theorem chars_four {lead second third fourth : UInt8} (hlo : 0xF0 ≤ lead.toNat)
    (hhi : lead.toNat ≤ 0xF4) (h₂ : second4 lead second = true)
    (h₃ : isContinuation third = true) (h₄ : isContinuation fourth = true) (rest : Bytes) :
    chars (lead :: second :: third :: fourth :: rest) =
      scalar4 lead second third fourth :: chars rest := by
  have h1 : ¬ lead.toNat < 0x80 := by omega
  have h2 : ¬ lead.toNat ≤ 0xDF := by omega
  have h3 : ¬ lead.toNat ≤ 0xEF := by omega
  rw [chars.eq_def]
  simp only [ascii_iff, between_eq, UInt8.reduceToNat, h1, h2, h3, hlo, hhi, h₂, h₃, h₄, and_false,
    and_self, decide_true, decide_false, if_true, if_false, Bool.false_eq_true]

/-! ## The encoding of one character -/

theorem toNat_ofNat {n : Nat} (h : n < 256) : (UInt8.ofNat n).toNat = n := by
  simp [Nat.mod_eq_of_lt h]

theorem eq_iff_toNat (a b : UInt8) : a = b ↔ a.toNat = b.toNat := UInt8.toNat_inj.symm

theorem second3_iff (lead second : UInt8) :
    second3 lead second = true ↔
      (if lead.toNat = 0xE0 then 0xA0 else 0x80) ≤ second.toNat ∧
        second.toNat ≤ (if lead.toNat = 0xED then 0x9F else 0xBF) := by
  simp only [second3, isContinuation, between_eq, eq_iff_toNat, UInt8.reduceToNat]
  split_ifs with h1 h2 <;> simp_all

theorem second4_iff (lead second : UInt8) :
    second4 lead second = true ↔
      (if lead.toNat = 0xF0 then 0x90 else 0x80) ≤ second.toNat ∧
        second.toNat ≤ (if lead.toNat = 0xF4 then 0x8F else 0xBF) := by
  simp only [second4, isContinuation, between_eq, eq_iff_toNat, UInt8.reduceToNat]
  split_ifs with h1 h2 <;> simp_all

/-- A scalar value is below the surrogates or above them, and at most U+10FFFF. -/
theorem scalar_bounds (c : Char) :
    c.val.toNat < 0xD800 ∨ 0xDFFF < c.val.toNat ∧ c.val.toNat < 0x110000 := c.valid

theorem eq_ofNat (c : Char) {n : Nat} (h : n = c.val.toNat) : Char.ofNat n = c := by
  rw [h]
  exact Char.ofNat_toNat c

/-- **One character.**  Whatever follows the encoding of a character, that character is read first. -/
theorem chars_encodeChar (c : Char) (rest : Bytes) :
    chars (String.utf8EncodeChar c ++ rest) = c :: chars rest := by
  have hc := scalar_bounds c
  simp only [String.utf8EncodeChar]
  generalize hv : c.val.toNat = v at hc
  -- One case for each length: the bytes as numbers, their ranges, and the value put together again.
  split_ifs with h1 h2 h3
  · have hb : (UInt8.ofNat v).toNat = v := toNat_ofNat (by omega)
    rw [List.cons_append, List.nil_append, chars_one (by omega), hb, eq_ofNat c hv.symm]
  · have hb₁ : (UInt8.ofNat (v / 64 % 0x20 + 0xc0)).toNat = v / 64 % 0x20 + 0xc0 :=
      toNat_ofNat (by omega)
    have hb₂ : (UInt8.ofNat (v % 0x40 + 0x80)).toNat = v % 0x40 + 0x80 := toNat_ofNat (by omega)
    simp only [List.cons_append, List.nil_append]
    rw [chars_two (by omega) (by omega) (by rw [isContinuation_iff]; omega), scalar2, payload,
      eq_ofNat c (by omega)]
  · have hb₁ : (UInt8.ofNat (v / 4096 % 0x10 + 0xe0)).toNat = v / 4096 % 0x10 + 0xe0 :=
      toNat_ofNat (by omega)
    have hb₂ : (UInt8.ofNat (v / 64 % 0x40 + 0x80)).toNat = v / 64 % 0x40 + 0x80 :=
      toNat_ofNat (by omega)
    have hb₃ : (UInt8.ofNat (v % 0x40 + 0x80)).toNat = v % 0x40 + 0x80 := toNat_ofNat (by omega)
    simp only [List.cons_append, List.nil_append]
    -- The bounds on the second byte exclude overlong sequences and surrogates; `hc` has the latter.
    rw [chars_three (by omega) (by omega) (by rw [second3_iff]; split_ifs <;> omega)
      (by rw [isContinuation_iff]; omega), scalar3, payload, payload, eq_ofNat c (by omega)]
  · have hb₁ : (UInt8.ofNat (v / 262144 % 0x08 + 0xf0)).toNat = v / 262144 % 0x08 + 0xf0 :=
      toNat_ofNat (by omega)
    have hb₂ : (UInt8.ofNat (v / 4096 % 0x40 + 0x80)).toNat = v / 4096 % 0x40 + 0x80 :=
      toNat_ofNat (by omega)
    have hb₃ : (UInt8.ofNat (v / 64 % 0x40 + 0x80)).toNat = v / 64 % 0x40 + 0x80 :=
      toNat_ofNat (by omega)
    have hb₄ : (UInt8.ofNat (v % 0x40 + 0x80)).toNat = v % 0x40 + 0x80 := toNat_ofNat (by omega)
    simp only [List.cons_append, List.nil_append]
    rw [chars_four (by omega) (by omega) (by rw [second4_iff]; split_ifs <;> omega)
      (by rw [isContinuation_iff]; omega) (by rw [isContinuation_iff]; omega), scalar4, payload,
      payload, payload, eq_ofNat c (by omega)]

/-- No byte of a character other than NUL is zero. -/
theorem ne_zero_of_mem_encodeChar {c : Char} (hc : c ≠ '\x00') {b : UInt8}
    (hb : b ∈ String.utf8EncodeChar c) : b ≠ 0 := by
  have hpos : c.val.toNat ≠ 0 := by
    intro h
    exact hc ((eq_ofNat c (n := 0) h.symm).symm.trans rfl)
  have hbound := scalar_bounds c
  rw [Ne, eq_iff_toNat, show (0 : UInt8).toNat = 0 from rfl]
  simp only [String.utf8EncodeChar] at hb
  split_ifs at hb <;> simp only [List.mem_cons, List.not_mem_nil, or_false] at hb <;>
    rcases hb with rfl | rfl | rfl | rfl <;> rw [toNat_ofNat (by omega)] <;> omega

/-! ## Texts -/

theorem chars_flatMap (cs : List Char) :
    chars (cs.flatMap String.utf8EncodeChar) = cs := by
  induction cs with
  | nil => rw [List.flatMap_nil, chars]
  | cons c cs ih => rw [List.flatMap_cons, chars_encodeChar, ih]

/-- **Decoding undoes encoding.** -/
theorem decode_encode (text : String) : decode (encode text) = text := by
  rw [decode, encode_eq_flatMap, chars_flatMap, String.ofList_toList]

/-- A text without the NUL character is stored without a zero byte. -/
theorem ne_zero_of_mem_encode {text : String} (h : '\x00' ∉ text.toList) {b : UInt8}
    (hb : b ∈ encode text) : b ≠ 0 := by
  rw [encode_eq_flatMap, List.mem_flatMap] at hb
  obtain ⟨c, hc, hb⟩ := hb
  exact ne_zero_of_mem_encodeChar (fun heq => h (heq ▸ hc)) hb

/-! ## Texts without NUL -/

/-- A scalar value other than zero is not the NUL character. -/
theorem nul_ne_ofNat {n : Nat} (hpos : 0 < n) (hscalar : n < 0xD800 ∨ 0xDFFF < n ∧ n < 0x110000) :
    '\x00' ≠ Char.ofNat n := by
  have hvalid : n.isValidChar := hscalar
  have hchar : Char.ofNat n = Char.ofNatAux n hvalid := dif_pos hvalid
  rw [hchar]
  intro h
  have hzero : 0 = n := congrArg Char.toNat h
  omega

theorem nul_ne_scalar2 {lead second : UInt8}
    (hlead : (decide (0xC2 ≤ lead) && decide (lead ≤ 0xDF)) = true) :
    '\x00' ≠ scalar2 lead second := by
  rw [between_eq, decide_eq_true_iff] at hlead
  simp only [UInt8.reduceToNat] at hlead
  unfold scalar2 payload
  apply nul_ne_ofNat <;> omega

theorem nul_ne_scalar3 {lead second third : UInt8}
    (hlead : (decide (0xE0 ≤ lead) && decide (lead ≤ 0xEF)) = true)
    (hsecond : second3 lead second = true) : '\x00' ≠ scalar3 lead second third := by
  rw [between_eq, decide_eq_true_iff] at hlead
  simp only [UInt8.reduceToNat] at hlead
  rw [second3_iff] at hsecond
  unfold scalar3 payload
  split_ifs at hsecond <;> apply nul_ne_ofNat <;> omega

theorem nul_ne_scalar4 {lead second third fourth : UInt8}
    (hlead : (decide (0xF0 ≤ lead) && decide (lead ≤ 0xF4)) = true)
    (hsecond : second4 lead second = true) : '\x00' ≠ scalar4 lead second third fourth := by
  rw [between_eq, decide_eq_true_iff] at hlead
  simp only [UInt8.reduceToNat] at hlead
  rw [second4_iff] at hsecond
  unfold scalar4 payload
  split_ifs at hsecond <;> apply nul_ne_ofNat <;> omega

/-- Bytes without a zero spell no NUL character, well formed or not. -/
theorem nul_not_mem_chars {bytes : Bytes} (h : 0 ∉ bytes) : '\x00' ∉ chars bytes := by
  have hreplacement : '\x00' ≠ replacement := by decide
  fun_induction chars bytes with
  | case1 => exact List.not_mem_nil
  | case2 lead rest hlead ih =>
    simp only [List.mem_cons, not_or] at h ⊢
    have hpos : 0 ≠ lead.toNat := fun hzero => h.1 (UInt8.toNat_inj.mp hzero)
    have hlead := (ascii_iff lead).mp hlead
    exact ⟨nul_ne_ofNat (by omega) (by omega), ih h.2⟩
  | case3 lead _ hlead second rest _ ih =>
    simp only [List.mem_cons, not_or] at h ⊢
    exact ⟨nul_ne_scalar2 hlead, ih h.2.2⟩
  | case6 lead _ _ hlead second hsecond third rest _ ih =>
    simp only [List.mem_cons, not_or] at h ⊢
    exact ⟨nul_ne_scalar3 hlead hsecond, ih h.2.2.2⟩
  | case11 lead _ _ _ hlead second hsecond third _ fourth rest _ ih =>
    simp only [List.mem_cons, not_or] at h ⊢
    exact ⟨nul_ne_scalar4 hlead hsecond, ih h.2.2.2.2⟩
  | _ => simp_all

theorem nul_not_mem_decode {bytes : Bytes} (h : 0 ∉ bytes) : '\x00' ∉ (decode bytes).toList := by
  rw [decode, String.toList_ofList]
  exact nul_not_mem_chars h

end Rite.Utf8

import Rite.Bytes.BigEndian

/-!
# UTF-8 text

Text is stored as UTF-8.  Encoding is exact.  Decoding never fails: a sequence that is not
well formed contributes one replacement character for each *maximal subpart*, the longest prefix
that could still have been continued into a scalar value, or a single byte where there is none.
-/

namespace Rite.Utf8

/-- U+FFFD, which stands for bytes that are no text. -/
def replacement : Char := Char.ofNat 0xFFFD

/-- The UTF-8 bytes of a text. -/
def encode (text : String) : Bytes := text.toUTF8.data.toList

/-- A byte that continues a multi-byte sequence. -/
def isContinuation (byte : UInt8) : Bool := 0x80 ≤ byte && byte ≤ 0xBF

/-- Whether `second` may follow the three-byte lead `lead`: no overlong forms, no surrogates. -/
def second3 (lead second : UInt8) : Bool :=
  if lead = 0xE0 then 0xA0 ≤ second && second ≤ 0xBF
  else if lead = 0xED then 0x80 ≤ second && second ≤ 0x9F
  else isContinuation second

/-- Whether `second` may follow the four-byte lead `lead`: no overlong forms, nothing above
U+10FFFF. -/
def second4 (lead second : UInt8) : Bool :=
  if lead = 0xF0 then 0x90 ≤ second && second ≤ 0xBF
  else if lead = 0xF4 then 0x80 ≤ second && second ≤ 0x8F
  else isContinuation second

/-- The six payload bits of a continuation byte. -/
def payload (byte : UInt8) : Nat := byte.toNat % 64

/-- The scalar of a two-byte sequence. -/
def scalar2 (lead second : UInt8) : Char :=
  Char.ofNat (lead.toNat % 32 * 64 + payload second)

/-- The scalar of a three-byte sequence. -/
def scalar3 (lead second third : UInt8) : Char :=
  Char.ofNat ((lead.toNat % 16 * 64 + payload second) * 64 + payload third)

/-- The scalar of a four-byte sequence. -/
def scalar4 (lead second third fourth : UInt8) : Char :=
  Char.ofNat (((lead.toNat % 8 * 64 + payload second) * 64 + payload third) * 64 + payload fourth)

/-- The characters that `bytes` spell, with one replacement character for each maximal subpart that
is not well formed. -/
def chars : Bytes → List Char
  | [] => []
  | lead :: rest =>
    if lead < 0x80 then
      Char.ofNat lead.toNat :: chars rest
    else if 0xC2 ≤ lead && lead ≤ 0xDF then
      match rest with
      | second :: rest₂ =>
        if isContinuation second then scalar2 lead second :: chars rest₂
        else replacement :: chars (second :: rest₂)
      | [] => [replacement]
    else if 0xE0 ≤ lead && lead ≤ 0xEF then
      match rest with
      | second :: rest₂ =>
        if second3 lead second then
          match rest₂ with
          | third :: rest₃ =>
            if isContinuation third then scalar3 lead second third :: chars rest₃
            else replacement :: chars (third :: rest₃)
          | [] => [replacement]
        else replacement :: chars (second :: rest₂)
      | [] => [replacement]
    else if 0xF0 ≤ lead && lead ≤ 0xF4 then
      match rest with
      | second :: rest₂ =>
        if second4 lead second then
          match rest₂ with
          | third :: rest₃ =>
            if isContinuation third then
              match rest₃ with
              | fourth :: rest₄ =>
                if isContinuation fourth then scalar4 lead second third fourth :: chars rest₄
                else replacement :: chars (fourth :: rest₄)
              | [] => [replacement]
            else replacement :: chars (third :: rest₃)
          | [] => [replacement]
        else replacement :: chars (second :: rest₂)
      | [] => [replacement]
    else
      replacement :: chars rest

/-- The text that `bytes` spell, with replacement characters where they spell none. -/
def decode (bytes : Bytes) : String := String.ofList (chars bytes)

end Rite.Utf8

import Mathlib.Data.List.Basic
import Mathlib.Tactic.Ring
import Rite.Bytes.Cursor

/-!
# What a reading accepts

A reading is given by the byte strings it accepts and the value it makes of each: `Reads r G` says
that `r` succeeds exactly when a prefix of the input is a string of `G`, that its value is the one `G`
gives to that prefix, and that the cursor moves by exactly the length of the prefix.  Both directions
are needed: the one from `G` to success is what a round trip uses, the other is what makes the
accepted strings *all* of them.

The value may depend on where the string starts, since a reading can ask for its offset.  `Reads`
is closed under sequencing, so the grammar of a compound reading is put together from its parts and
no later proof opens a reading again.
-/

namespace Rite

/-! ## Words -/

namespace BigEndian

@[simp] theorem length_word16 (w : UInt16) : (word16 w).length = 2 := rfl

@[simp] theorem length_word32 (w : UInt32) : (word32 w).length = 4 := rfl

@[simp] theorem toNat_word16 (w : UInt16) : toNat (word16 w) = w.toNat := by
  have hw := w.toNat_lt
  simp [toNat, word16, Nat.shiftRight_eq_div_pow]
  omega

@[simp] theorem toNat_word32 (w : UInt32) : toNat (word32 w) = w.toNat := by
  have hw := w.toNat_lt
  simp [toNat, word32, Nat.shiftRight_eq_div_pow]
  omega

theorem word16_ofNat_toNat (hi lo : UInt8) : word16 (UInt16.ofNat (toNat [hi, lo])) = [hi, lo] := by
  have hhi := hi.toNat_lt
  have hlo := lo.toNat_lt
  simp [toNat, word16, ← UInt8.toNat_inj, Nat.shiftRight_eq_div_pow]
  omega

end BigEndian

namespace Reading

variable {α β : Type}

/-- `r` accepts exactly the strings of `G` at the front of its input, with the values `G` gives them.
The number is the absolute offset at which the string starts. -/
def Reads (r : Reading α) (G : Nat → Bytes → α → Prop) : Prop :=
  ∀ base input x c', r ⟨base, input⟩ = .ok x c' ↔
    ∃ b rest, input = b ++ rest ∧ c' = ⟨base + b.length, rest⟩ ∧ G base b x

/-- A string of the grammar is read, whatever follows it. -/
theorem Reads.accepts {r : Reading α} {G : Nat → Bytes → α → Prop} (h : Reads r G) {base : Nat}
    {b : Bytes} {x : α} (hb : G base b x) (rest : Bytes) :
    r ⟨base, b ++ rest⟩ = .ok x ⟨base + b.length, rest⟩ :=
  (h base (b ++ rest) x _).mpr ⟨b, rest, rfl, rfl, hb⟩

/-- Only a grammar's extension matters. -/
theorem Reads.congr {r : Reading α} {G H : Nat → Bytes → α → Prop} (h : Reads r G)
    (hiff : ∀ base b x, G base b x ↔ H base b x) : Reads r H := by
  intro base input x c'
  rw [h base input x c']
  simp only [hiff]

/-! ## Sequencing -/

theorem bind_eq_ok_iff (r : Reading α) (f : α → Reading β) (c c'' : Cursor) (y : β) :
    (r >>= f) c = .ok y c'' ↔ ∃ x c', r c = .ok x c' ∧ f x c' = .ok y c'' := by
  change EStateM.bind r f c = _ ↔ _
  unfold EStateM.bind
  cases r c with
  | ok x c' => simp
  | error e c' => simp

theorem bind_of_ok {r : Reading α} {c c' : Cursor} {x : α} (h : r c = .ok x c')
    (f : α → Reading β) : (r >>= f) c = f x c' := by
  change EStateM.bind r f c = _
  unfold EStateM.bind
  rw [h]

theorem reads_pure (x : α) : Reads (pure x) (fun _ b y => b = [] ∧ y = x) := by
  intro base input y c'
  change EStateM.Result.ok x ⟨base, input⟩ = .ok y c' ↔ _
  constructor
  · intro h
    obtain ⟨rfl, rfl⟩ := EStateM.Result.ok.inj h
    exact ⟨[], input, rfl, rfl, rfl, rfl⟩
  · rintro ⟨b, rest, rfl, rfl, rfl, rfl⟩
    rfl

/-- **Sequencing.**  The strings of a sequence are a string of the first part followed by one of the
second, which starts where the first ends and may depend on its value. -/
theorem Reads.bind {r : Reading α} {f : α → Reading β} {G : Nat → Bytes → α → Prop}
    {H : α → Nat → Bytes → β → Prop} (hr : Reads r G) (hf : ∀ x, Reads (f x) (H x)) :
    Reads (r >>= f) (fun base b y => ∃ b₁ b₂ x, b = b₁ ++ b₂ ∧ G base b₁ x ∧
      H x (base + b₁.length) b₂ y) := by
  intro base input y c''
  rw [bind_eq_ok_iff]
  constructor
  · rintro ⟨x, c', h₁, h₂⟩
    obtain ⟨b₁, rest₁, rfl, rfl, hG⟩ := (hr base input x c').mp h₁
    obtain ⟨b₂, rest₂, rfl, rfl, hH⟩ := (hf x _ _ y c'').mp h₂
    refine ⟨b₁ ++ b₂, rest₂, by rw [List.append_assoc], ?_, b₁, b₂, x, rfl, hG, hH⟩
    rw [List.length_append, Nat.add_assoc]
  · rintro ⟨b, rest, rfl, rfl, b₁, b₂, x, rfl, hG, hH⟩
    refine ⟨x, ⟨base + b₁.length, b₂ ++ rest⟩, ?_, ?_⟩
    · rw [List.append_assoc]
      exact hr.accepts hG _
    · rw [(hf x).accepts hH rest, List.length_append, Nat.add_assoc]

/-- A reading that gives up accepts nothing. -/
theorem reads_throw (e : LoadError) : Reads (throw e : Reading α) (fun _ _ _ => False) := by
  intro base input x c'
  constructor
  · intro h
    cases h
  · rintro ⟨_, _, _, _, h⟩
    exact h.elim

/-- A check in front of a reading only removes strings. -/
theorem Reads.unless {r : Reading α} {G : Nat → Bytes → α → Prop} (h : Reads r G) {p : Prop}
    [Decidable p] (e : LoadError) (k : Unit → Reading α) :
    Reads (if p then throw e >>= k else r) (fun base b x => ¬p ∧ G base b x) := by
  by_cases hp : p
  · rw [if_pos hp]
    refine (reads_throw e).congr fun base b x => ?_
    simp [hp]
  · rw [if_neg hp]
    refine h.congr fun base b x => ?_
    simp [hp]

/-! ## Elementary readings -/

theorem get_eq (c : Cursor) : (get : Reading Cursor) c = .ok c c := rfl

theorem offset_eq (c : Cursor) : offset c = .ok c.offset c := rfl

theorem reads_offset : Reads offset (fun base b x => b = [] ∧ x = base) := by
  intro base input x c'
  change EStateM.Result.ok base ⟨base, input⟩ = .ok x c' ↔ _
  constructor
  · intro h
    obtain ⟨rfl, rfl⟩ := EStateM.Result.ok.inj h
    exact ⟨[], input, rfl, rfl, rfl, rfl⟩
  · rintro ⟨b, rest, rfl, rfl, rfl, rfl⟩
    rfl

theorem reads_take (n : Nat) : Reads (take n) (fun _ b x => b.length = n ∧ x = b) := by
  intro base input x c'
  unfold Reading.take
  split
  case isTrue hheld =>
    have hsize : n ≤ input.length := (Cursor.holds_iff _ _).mp hheld
    have hlen : (input.take n).length = n := by rw [List.length_take]; omega
    constructor
    · intro h
      obtain ⟨rfl, rfl⟩ := EStateM.Result.ok.inj h
      refine ⟨input.take n, input.drop n, (List.take_append_drop n input).symm, ?_, hlen, rfl⟩
      rw [hlen]
    · rintro ⟨b, rest, rfl, rfl, rfl, rfl⟩
      simp
  case isFalse hshort =>
    constructor
    · intro h
      cases h
    · rintro ⟨b, rest, rfl, rfl, rfl, rfl⟩
      refine absurd ((Cursor.holds_iff _ _).mpr ?_) hshort
      simp [Cursor.remaining]

theorem reads_u8 : Reads u8 (fun _ b x => b = [x]) := by
  refine ((reads_take 1).bind fun _ => reads_pure _).congr fun base b x => ?_
  constructor
  · rintro ⟨b₁, _, _, rfl, ⟨hlen, rfl⟩, rfl, rfl⟩
    obtain ⟨y, rfl⟩ := List.length_eq_one_iff.mp hlen
    simp [BigEndian.toNat]
  · rintro rfl
    exact ⟨[x], [], [x], rfl, ⟨rfl, rfl⟩, rfl, by simp [BigEndian.toNat]⟩

theorem reads_u16 : Reads u16 (fun _ b x => b = BigEndian.word16 x) := by
  refine ((reads_take 2).bind fun _ => reads_pure _).congr fun base b x => ?_
  constructor
  · rintro ⟨b₁, _, _, rfl, ⟨hlen, rfl⟩, rfl, rfl⟩
    obtain ⟨hi, lo, rfl⟩ := List.length_eq_two.mp hlen
    rw [BigEndian.word16_ofNat_toNat, List.append_nil]
  · rintro rfl
    exact ⟨BigEndian.word16 x, [], _, by rw [List.append_nil], ⟨rfl, rfl⟩, rfl, by simp⟩

end Reading

end Rite

import Rite.Proofs.Alike
import Rite.Proofs.FailedSteps
import Rite.Proofs.FloorDivision

/-!
# Powers

A power is computed by repeated squaring, and each product on the way is checked.  These products are
not the power: the squares run ahead of what has been multiplied together so far, so one of them could
leave the range of words while the power itself is a word.  That this never happens is the content of
this module.

`powerValues` lists what accumulator and base go through when nothing is bounded.  The checked loop
succeeds exactly if all these values are words (`powFrom_of_fits`, `powFrom_of_not_fits`), and they are
words exactly if the power is one (`powerValues_fit_iff`).  A square is formed only if a further bit of
the exponent needs it, so it divides the power; and where the power is the least word, which is negative
and larger than all others in absolute value, the square stays below it since 2 ^ 63 is no square.
-/

namespace Rite.Arithmetic

/-! ## Checked values -/

theorem inRange_iff {x : Int} :
    (Int64.minValue.toInt ≤ x ∧ x ≤ Int64.maxValue.toInt) ↔ Fits x := by
  show (-9223372036854775808 ≤ x ∧ x ≤ 9223372036854775807) ↔ _
  unfold Fits
  omega

theorem checked_of_fits {x : Int} (h : Fits x) : checked x = .ok (Int64.ofInt x) :=
  if_pos (inRange_iff.mpr h)

theorem checked_of_not_fits {x : Int} (h : ¬ Fits x) : checked x = .error .integerOverflow :=
  if_neg (mt inRange_iff.mp h)

theorem toInt_ofInt_of_fits {x : Int} (h : Fits x) : (Int64.ofInt x).toInt = x := by
  rw [Int64.toInt_ofInt]
  exact bmod_eq_of_fits h

/-! ## The values of the loop -/

/-- The values of accumulator and base on the way to `acc * base ^ exponent`, in the order in which they
are formed and without bounds. -/
def powerValues : (rounds : Nat) → (acc base : Int) → (exponent : Nat) → List Int
  | 0, _, _, _ => []
  | rounds + 1, acc, base, exponent =>
    let acc := acc * base ^ (exponent % 2)
    acc :: if exponent / 2 = 0 then []
      else base * base :: powerValues rounds acc (base * base) (exponent / 2)

section Values

variable {rounds exponent : Nat} {acc base : Int}

/-- The accumulator takes the lowest bit of the exponent, and the base is squared for the others. -/
theorem power_split (acc base : Int) (exponent : Nat) :
    acc * base ^ exponent = acc * base ^ (exponent % 2) * (base * base) ^ (exponent / 2) := by
  rw [← pow_two, ← pow_mul, mul_assoc, ← pow_add, Nat.mod_add_div]

/-- The last value of the accumulator is the power. -/
theorem power_mem_powerValues (acc base : Int) (h : exponent < 2 ^ (rounds + 1)) :
    acc * base ^ exponent ∈ powerValues (rounds + 1) acc base exponent := by
  induction rounds generalizing acc base exponent with
  | zero =>
    have hbit : exponent % 2 = exponent := Nat.mod_eq_of_lt h
    rw [powerValues, hbit]
    exact List.mem_cons_self
  | succ rounds ih =>
    rw [power_split acc base exponent, powerValues]
    by_cases hlast : exponent / 2 = 0
    · rw [hlast, pow_zero, mul_one]
      exact List.mem_cons_self
    · rw [if_neg hlast]
      refine List.mem_cons_of_mem _ (List.mem_cons_of_mem _ (ih _ _ ?_))
      rw [pow_succ] at h
      omega

/-- A factor of a word is a word if what it is multiplied by is positive. -/
theorem Fits.of_mul_pos {x p : Int} (h : Fits (x * p)) (hp : 0 < p) : Fits x := by
  obtain ⟨hlow, hhigh⟩ := h
  rcases le_or_gt 0 x with hx | hx
  · have hle : x ≤ x * p := le_mul_of_one_le_right hx hp
    exact ⟨by omega, by omega⟩
  · have hge : x * p ≤ x := mul_le_of_one_le_right hx.le hp
    exact ⟨by omega, by omega⟩

/-- The least word has no root, so a square does not lie just above the greatest word. -/
theorem fits_square {x : Int} (h : x * x ≤ 2 ^ 63) : Fits (x * x) := by
  refine ⟨by nlinarith [mul_self_nonneg x], ?_⟩
  rw [← abs_mul_abs_self] at h ⊢
  -- 3037000499 is the greatest number whose square is below 2 ^ 63, and the next one misses 2 ^ 63 itself.
  rcases le_or_gt |x| 3037000499 with hsmall | hlarge
  · nlinarith [abs_nonneg x]
  · nlinarith

/-- A square that divides a word other than zero is a word. -/
theorem Fits.square {x y : Int} (h : Fits (y * (x * x))) (hy : y ≠ 0) : Fits (x * x) := by
  apply fits_square
  have hword : |y * (x * x)| ≤ 2 ^ 63 := abs_le.mpr ⟨by have := h.1; omega, by have := h.2; omega⟩
  calc x * x = 1 * |x * x| := by rw [one_mul, abs_of_nonneg (mul_self_nonneg x)]
    _ ≤ |y| * |x * x| := mul_le_mul_of_nonneg_right (Int.one_le_abs hy) (abs_nonneg _)
    _ = |y * (x * x)| := (abs_mul _ _).symm
    _ ≤ 2 ^ 63 := hword

/-- The accumulator of the next round is a word if the power is one. -/
theorem Fits.accumulate {k : Nat} (hacc : Fits acc)
    (hpower : Fits (acc * base ^ (exponent % 2) * (base * base) ^ k)) :
    Fits (acc * base ^ (exponent % 2)) := by
  by_cases hbase : base = 0
  · rcases Nat.mod_two_eq_zero_or_one exponent with hbit | hbit
    · rwa [hbit, pow_zero, mul_one]
    · rw [hbit, pow_one, hbase, mul_zero]
      exact ⟨by decide, by decide⟩
  · exact hpower.of_mul_pos (pow_pos (mul_self_pos.mpr hbase) k)

/-- The base of the next round is a word if the power is one, as long as the exponent is not used up. -/
theorem Fits.squareBase {k : Nat} (hzero : acc = 0 → base = 0) (hk : k ≠ 0)
    (hpower : Fits (acc * (base * base) ^ k)) : Fits (base * base) := by
  by_cases hbase : base = 0
  · rw [hbase, mul_zero]
    exact ⟨by decide, by decide⟩
  · obtain ⟨j, rfl⟩ := Nat.exists_eq_succ_of_ne_zero hk
    rw [pow_succ, ← mul_assoc] at hpower
    refine hpower.square (mul_ne_zero (mt hzero hbase) (pow_ne_zero j ?_))
    exact mul_self_ne_zero.mpr hbase

/-- **If the power is a word, so is everything on the way to it.**  The accumulator is zero only if the
base is, for it is made of powers of the base. -/
theorem powerValues_fit (hacc : Fits acc) (hzero : acc = 0 → base = 0)
    (hpower : Fits (acc * base ^ exponent)) :
    ∀ x ∈ powerValues rounds acc base exponent, Fits x := by
  induction rounds generalizing acc base exponent with
  | zero => exact fun x hx => absurd hx List.not_mem_nil
  | succ rounds ih =>
    -- The round keeps the power, so all that is known of it is known again of the next round.
    rw [power_split] at hpower
    have hnext := hacc.accumulate hpower
    have hzero' : acc * base ^ (exponent % 2) = 0 → base = 0 := by
      intro h
      rcases mul_eq_zero.mp h with h | h
      · exact hzero h
      · exact eq_zero_of_pow_eq_zero h
    intro x hx
    rw [powerValues] at hx
    rcases List.mem_cons.mp hx with rfl | hx
    · exact hnext
    · by_cases hlast : exponent / 2 = 0
      · rw [if_pos hlast] at hx
        exact absurd hx List.not_mem_nil
      · rw [if_neg hlast] at hx
        rcases List.mem_cons.mp hx with rfl | hx
        · exact hpower.squareBase hzero' hlast
        · refine ih hnext (fun h => ?_) hpower x hx
          rw [hzero' h, mul_zero]

/-- What the loop goes through are words exactly if the power is one. -/
theorem powerValues_fit_iff (base : Int) (hexponent : exponent < 2 ^ 32) :
    (∀ x ∈ powerValues 32 1 base exponent, Fits x) ↔ Fits (base ^ exponent) := by
  have hone : Fits 1 := ⟨by decide, by decide⟩
  have hlast := power_mem_powerValues 1 base hexponent
  rw [one_mul] at hlast
  refine ⟨fun h => h _ hlast, fun h => powerValues_fit hone (fun h => absurd h (by decide)) ?_⟩
  rwa [one_mul]

end Values

/-! ## The loop -/

section Loop

variable {rounds exponent : Nat} {acc base : Int64}

/-- One round.  The accumulator is multiplied only if the lowest bit is set, and else stays the word that
it is. -/
theorem powFrom_succ (rounds : Nat) (acc base : Int64) (exponent : Nat) :
    powFrom (rounds + 1) acc base exponent = (do
      let acc ← checked (acc.toInt * base.toInt ^ (exponent % 2))
      if exponent / 2 = 0 then .ok acc
      else powFrom rounds acc (← checked (base.toInt * base.toInt)) (exponent / 2)) := by
  rw [powFrom]
  rcases Nat.mod_two_eq_zero_or_one exponent with hbit | hbit
  · rw [hbit, pow_zero, mul_one, checked_of_fits (fits_toInt acc), Int64.ofInt_toInt]
    rfl
  · rw [hbit, pow_one]
    rfl

/-- The loop succeeds if all its values are words, and then with the power. -/
theorem powFrom_of_fits (hexponent : exponent < 2 ^ rounds)
    (hvalues : ∀ x ∈ powerValues rounds acc.toInt base.toInt exponent, Fits x) :
    powFrom rounds acc base exponent = .ok (Int64.ofInt (acc.toInt * base.toInt ^ exponent)) := by
  induction rounds generalizing acc base exponent with
  | zero =>
    obtain rfl : exponent = 0 := Nat.lt_one_iff.mp hexponent
    rw [pow_zero, mul_one, Int64.ofInt_toInt]
    rfl
  | succ rounds ih =>
    rw [powerValues] at hvalues
    have hnext := hvalues _ List.mem_cons_self
    rw [power_split acc.toInt, powFrom_succ, checked_of_fits hnext]
    show (if exponent / 2 = 0 then _ else _) = _
    by_cases hlast : exponent / 2 = 0
    · rw [if_pos hlast, hlast, pow_zero, mul_one]
    · rw [if_neg hlast] at hvalues ⊢
      have hsquare := hvalues _ (List.mem_cons_of_mem _ List.mem_cons_self)
      rw [checked_of_fits hsquare]
      show powFrom rounds _ _ (exponent / 2) = _
      rw [pow_succ] at hexponent
      rw [ih (by omega), toInt_ofInt_of_fits hnext, toInt_ofInt_of_fits hsquare]
      rw [toInt_ofInt_of_fits hnext, toInt_ofInt_of_fits hsquare]
      exact fun x hx => hvalues x (List.mem_cons_of_mem _ (List.mem_cons_of_mem _ hx))

/-- The loop overflows at the first of its values that is not a word. -/
theorem powFrom_of_not_fits
    (hvalues : ¬ ∀ x ∈ powerValues rounds acc.toInt base.toInt exponent, Fits x) :
    powFrom rounds acc base exponent = .error .integerOverflow := by
  induction rounds generalizing acc base exponent with
  | zero => exact absurd (fun x hx => absurd hx List.not_mem_nil) hvalues
  | succ rounds ih =>
    rw [powerValues, List.forall_mem_cons] at hvalues
    rw [powFrom_succ]
    by_cases hnext : Fits (acc.toInt * base.toInt ^ (exponent % 2))
    · rw [checked_of_fits hnext]
      show (if exponent / 2 = 0 then _ else _) = _
      by_cases hlast : exponent / 2 = 0
      · rw [if_pos hlast] at hvalues
        exact absurd ⟨hnext, fun x hx => absurd hx List.not_mem_nil⟩ hvalues
      · rw [if_neg hlast, List.forall_mem_cons] at hvalues
        rw [if_neg hlast]
        by_cases hsquare : Fits (base.toInt * base.toInt)
        · rw [checked_of_fits hsquare]
          show powFrom rounds _ _ (exponent / 2) = _
          apply ih
          rw [toInt_ofInt_of_fits hnext, toInt_ofInt_of_fits hsquare]
          exact fun h => hvalues ⟨hnext, hsquare, h⟩
        · rw [checked_of_not_fits hsquare]
          rfl
    · rw [checked_of_not_fits hnext]
      rfl

/-- **The loop is one checked power.** -/
theorem powNat_eq {a : Int64} (hexponent : exponent < 2 ^ 32) :
    powNat a exponent = checked (a.toInt ^ exponent) := by
  have hone : (1 : Int64).toInt = 1 := rfl
  have hiff := powerValues_fit_iff a.toInt hexponent
  unfold powNat
  by_cases hpower : Fits (a.toInt ^ exponent)
  · rw [checked_of_fits hpower, powFrom_of_fits hexponent, hone, one_mul]
    exact hiff.mpr hpower
  · rw [checked_of_not_fits hpower]
    exact powFrom_of_not_fits (mt hiff.mp hpower)

/-- An exponent that is a number of 32 bits is taken as it is. -/
theorem pow_of_lt {a b : Int64} (hb : b.toInt = exponent) (hexponent : exponent < 2 ^ 32) :
    pow a b = checked (a.toInt ^ exponent) := by
  unfold pow
  rw [hb, if_pos ⟨by omega, by omega⟩, Int.toNat_natCast, powNat_eq hexponent]

theorem pow_of_outside {a b : Int64} (hb : b.toInt < 0 ∨ 2 ^ 32 ≤ b.toInt) :
    pow a b = .error (.typeMismatch "non-negative Integer" (toString b.toInt)) :=
  if_neg (by omega)

end Loop

end Rite.Arithmetic

namespace Rite

/-! ## The method -/

/-- What an arithmetic method makes of two integers. -/
theorem Integers.arithmetic_of_read {m : Machine} {receiver other : Handle} {a b : Int64}
    (f : Int64 → Int64 → Except Fault Int64) (ha : m.integer receiver = .ok a)
    (hb : m.integer other = .ok b) :
    Integers.arithmetic f receiver [other] m =
      (Action.ofExcept (f a b) >>= Action.newInteger) m := by
  have hargument : Action.argument [other] 0 m = .ok other m := rfl
  have hoperands : Integers.operands receiver [other] m = .ok (a, b) m := by
    unfold Integers.operands
    rw [Action.demand_bind_of_ok ha, carryOn_of_ok hargument, Action.demand_bind_of_ok hb]
    rfl
  exact carryOn_of_ok hoperands

/-- Integers that are made on the same machine are told apart by their values. -/
theorem Action.newInteger_inj {m : Machine} {w w' : Int64}
    (h : Action.newInteger w m = Action.newInteger w' m) : w = w' := by
  have hheap := congrArg Machine.heap (EStateM.Result.ok.inj h).2
  have hobject := (Array.push_eq_push.mp (congrArg Heap.objects hheap)).1
  exact Payload.integer.inj (congrArg Object.payload hobject)

section Calls

open Arithmetic

variable {m : Machine} {receiver other : Handle} {a b : Int64} {n : Nat}

theorem Integers.perform_pow_of_outside (ha : m.integer receiver = .ok a)
    (hb : m.integer other = .ok b) (houtside : b.toInt < 0 ∨ 2 ^ 32 ≤ b.toInt) :
    Integers.perform .pow receiver [other] m =
      .error (.fault (.typeMismatch "non-negative Integer" (toString b.toInt))) m := by
  show Integers.arithmetic pow receiver [other] m = _
  rw [arithmetic_of_read pow ha hb, pow_of_outside houtside]
  rfl

theorem Integers.perform_pow_of_fits (ha : m.integer receiver = .ok a)
    (hb : m.integer other = .ok b) (hn : b.toInt = n) (hlt : n < 2 ^ 32)
    (hfits : Fits (a.toInt ^ n)) :
    Integers.perform .pow receiver [other] m =
      Action.newInteger (Int64.ofInt (a.toInt ^ n)) m := by
  show Integers.arithmetic pow receiver [other] m = _
  rw [arithmetic_of_read pow ha hb, pow_of_lt hn hlt, checked_of_fits hfits]
  rfl

theorem Integers.perform_pow_of_not_fits (ha : m.integer receiver = .ok a)
    (hb : m.integer other = .ok b) (hn : b.toInt = n) (hlt : n < 2 ^ 32)
    (hfits : ¬ Fits (a.toInt ^ n)) :
    Integers.perform .pow receiver [other] m = .error (.fault .integerOverflow) m := by
  show Integers.arithmetic pow receiver [other] m = _
  rw [arithmetic_of_read pow ha hb, pow_of_lt hn hlt, checked_of_not_fits hfits]
  rfl

/-- **Powers are exact.**  Whatever integers `a` and `b` a call has as receiver and argument:

* the call is refused for its exponent exactly if that is negative or too large for 32 bits;
* for any other exponent the answer is a new integer exactly if the power is a word, and that integer is
  the power;
* otherwise, and only then, the call overflows;
* all that the squaring goes through are words exactly if the power is one, so no square on the way
  overflows where the power does not. -/
theorem powers_exact (ha : m.integer receiver = .ok a) (hb : m.integer other = .ok b) :
    (Integers.perform .pow receiver [other] m =
        .error (.fault (.typeMismatch "non-negative Integer" (toString b.toInt))) m ↔
      b.toInt < 0 ∨ 2 ^ 32 ≤ b.toInt) ∧
    ∀ n : Nat, b.toInt = n → n < 2 ^ 32 →
      (∀ w, Integers.perform .pow receiver [other] m = Action.newInteger w m ↔
        w.toInt = a.toInt ^ n) ∧
      ((∃ w, Integers.perform .pow receiver [other] m = Action.newInteger w m) ↔
        Fits (a.toInt ^ n)) ∧
      (Integers.perform .pow receiver [other] m = .error (.fault .integerOverflow) m ↔
        ¬ Fits (a.toInt ^ n)) ∧
      ((∀ x ∈ powerValues 32 1 a.toInt n, Fits x) ↔ Fits (a.toInt ^ n)) := by
  have hworks {n : Nat} := Integers.perform_pow_of_fits (n := n) ha hb
  have hfails {n : Nat} := Integers.perform_pow_of_not_fits (n := n) ha hb
  refine ⟨⟨fun h => ?_, Integers.perform_pow_of_outside ha hb⟩, fun n hn hlt => ⟨fun w => ⟨fun h => ?_,
    fun h => ?_⟩, ⟨fun ⟨w, h⟩ => ?_, fun h => ⟨_, hworks hn hlt h⟩⟩, ⟨fun h hfits => ?_, hfails hn hlt⟩,
    powerValues_fit_iff a.toInt hlt⟩⟩
  · by_contra hinside
    obtain ⟨n, hn⟩ := Int.eq_ofNat_of_zero_le (show 0 ≤ b.toInt by omega)
    by_cases hfits : Fits (a.toInt ^ n)
    · rw [hworks hn (by omega) hfits] at h
      cases h
    · rw [hfails hn (by omega) hfits] at h
      cases h
  · by_cases hfits : Fits (a.toInt ^ n)
    · rw [hworks hn hlt hfits] at h
      rw [← Action.newInteger_inj h, toInt_ofInt_of_fits hfits]
    · rw [hfails hn hlt hfits] at h
      cases h
  · rw [hworks hn hlt (h ▸ fits_toInt w), ← h, Int64.ofInt_toInt]
  · by_contra hfits
    rw [hfails hn hlt hfits] at h
    cases h
  · rw [hworks hn hlt hfits] at h
    cases h

end Calls

/-- A machine with the integers -2, 2 and 63. -/
def powerOperands : Machine where
  heap := ⟨#[{ isa := Handle.integerClass, payload := .integer (-2) },
    { isa := Handle.integerClass, payload := .integer 2 },
    { isa := Handle.integerClass, payload := .integer 63 }]⟩

/-- The least word is a power of -2, and the power of 2 that is its absolute value is not a word. -/
theorem powers_exact_powerOperands :
    Integers.perform .pow ⟨0⟩ [⟨2⟩] powerOperands = Action.newInteger Int64.minValue powerOperands ∧
    Integers.perform .pow ⟨1⟩ [⟨2⟩] powerOperands = .error (.fault .integerOverflow) powerOperands := by
  have hminusTwo : powerOperands.integer ⟨0⟩ = .ok (-2) := rfl
  have htwo : powerOperands.integer ⟨1⟩ = .ok 2 := rfl
  have hexponent : powerOperands.integer ⟨2⟩ = .ok 63 := rfl
  obtain ⟨hleast, _⟩ := (powers_exact hminusTwo hexponent).2 63 rfl (by decide)
  obtain ⟨_, _, hbeyond, _⟩ := (powers_exact htwo hexponent).2 63 rfl (by decide)
  refine ⟨(hleast _).mpr rfl, hbeyond.mpr ?_⟩
  unfold Arithmetic.Fits
  decide

end Rite

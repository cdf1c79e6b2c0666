import Mathlib.Data.Rat.Floor
import Mathlib.Tactic.Linarith
import Rite.Machine.Arithmetic

/-!
# Division that rounds down

Words are divided by the machine's own division, which cuts the fraction off, and the outcome is put
right where that is not the same as rounding down.  Quotient and remainder are put right by two tests
that look at different words: the one at the dividend, the other at the remainder.  Where there is
something to put right the two have the same sign (`tmod_neg_iff`), so the tests agree, and quotient
and remainder belong together (`Floored`).

The machine's division is exact on all words but one pair, and the corrections stay in range because
they are made only where there is room: a quotient is lowered only if the divisor is neither 1 nor -1,
and a divisor is added only to a remainder of the other sign.
-/

namespace Rite.Arithmetic

/-- The integers that are words. -/
def Fits (x : Int) : Prop := -2 ^ 63 ≤ x ∧ x < 2 ^ 63

theorem fits_toInt (a : Int64) : Fits a.toInt := ⟨a.le_toInt, a.toInt_lt⟩

/-! ## Quotients and remainders of integers -/

/-- `q` is the quotient of `a` by `b`, rounded down, and `r` is what remains. -/
structure Floored (a b q r : Int) : Prop where
  floor : q = ⌊(a : ℚ) / b⌋
  exact : a = q * b + r
  small : |r| < |b|
  sign : r = 0 ∨ r.sign = b.sign

section Integers

variable {a b q r : Int}

/-- A remainder with the sign of the divisor makes the quotient the rounded one. -/
theorem Floored.of_remainder (hexact : a = q * b + r) (hsmall : |r| < |b|)
    (hsign : 0 < b ∧ 0 ≤ r ∨ b < 0 ∧ r ≤ 0) : Floored a b q r := by
  have hb : (b : ℚ) ≠ 0 := by
    have hne : b ≠ 0 := by omega
    exact_mod_cast hne
  have hquotient : (a : ℚ) / b = q + (r : ℚ) / b := by
    rw [hexact]
    push_cast
    field_simp
  have hfraction : 0 ≤ (r : ℚ) / b ∧ (r : ℚ) / b < 1 := by
    rcases hsign with ⟨hpos, hr⟩ | ⟨hneg, hr⟩
    · rw [abs_of_nonneg hr, abs_of_pos hpos] at hsmall
      have hposRat : (0 : ℚ) < b := by exact_mod_cast hpos
      exact ⟨div_nonneg (by exact_mod_cast hr) hposRat.le,
        (div_lt_one hposRat).mpr (by exact_mod_cast hsmall)⟩
    · rw [abs_of_nonpos hr, abs_of_neg hneg] at hsmall
      have hnegRat : (b : ℚ) < 0 := by exact_mod_cast hneg
      refine ⟨div_nonneg_of_nonpos (by exact_mod_cast hr) hnegRat.le, ?_⟩
      rw [div_lt_one_of_neg hnegRat]
      exact_mod_cast (by omega : b < r)
  refine ⟨?_, hexact, hsmall, ?_⟩
  · rw [hquotient, eq_comm, Int.floor_eq_iff]
    constructor <;> linarith [hfraction.1, hfraction.2]
  · rcases hsign with ⟨hpos, hr⟩ | ⟨hneg, hr⟩
    · rcases hr.eq_or_lt with hzero | hr
      · exact .inl hzero.symm
      · exact .inr (by rw [Int.sign_eq_one_of_pos hr, Int.sign_eq_one_of_pos hpos])
    · rcases hr.eq_or_lt with hzero | hr
      · exact .inl hzero
      · exact .inr (by rw [Int.sign_eq_neg_one_of_neg hr, Int.sign_eq_neg_one_of_neg hneg])

theorem abs_tmod_lt (hb : b ≠ 0) : |a.tmod b| < |b| := by
  rw [Int.abs_eq_natAbs, Int.abs_eq_natAbs, Int.natAbs_tmod]
  exact_mod_cast Nat.mod_lt _ (Int.natAbs_pos.mpr hb)

/-- Whatever remains when the fraction is cut off has the sign of the dividend. -/
theorem tmod_neg_iff (hr : a.tmod b ≠ 0) : a.tmod b < 0 ↔ a < 0 := by
  have hsign := Int.sign_tmod a b
  rw [if_neg fun hdvd => hr (Int.tmod_eq_zero_of_dvd hdvd)] at hsign
  rw [← Int.sign_eq_neg_one_iff_neg, ← Int.sign_eq_neg_one_iff_neg, hsign]

theorem tdiv_mul_add_tmod (a b : Int) : a = a.tdiv b * b + a.tmod b := by
  rw [mul_comm, Int.mul_tdiv_add_tmod]

/-- Cutting the fraction off is rounding down, unless something remains that has not the sign of the
divisor. -/
theorem Floored.cut (hb : b ≠ 0) (hkeep : a.tmod b = 0 ∨ (a.tmod b < 0 ↔ b < 0)) :
    Floored a b (a.tdiv b) (a.tmod b) :=
  .of_remainder (tdiv_mul_add_tmod a b) (abs_tmod_lt hb) (by omega)

/-- In that case the quotient is one too high. -/
theorem Floored.lowered (hr : a.tmod b ≠ 0) (hdiffer : ¬ (a.tmod b < 0 ↔ b < 0)) (hb : b ≠ 0) :
    Floored a b (a.tdiv b - 1) (a.tmod b + b) := by
  have hsmall := abs_tmod_lt (a := a) hb
  have hsplit := tdiv_mul_add_tmod a b
  rw [abs_lt] at hsmall
  refine .of_remainder ?_ ?_ ?_
  · rw [sub_mul, one_mul]
    omega
  · rw [abs_lt]
    rcases abs_cases b with ⟨habs, _⟩ | ⟨habs, _⟩ <;> rw [habs] at hsmall ⊢ <;> omega
  · rcases abs_cases b with ⟨habs, _⟩ | ⟨habs, _⟩ <;> rw [habs] at hsmall <;> omega

/-- Where something remains, the divisor is neither 1 nor -1, and the quotient is far from the ends of
the range. -/
theorem abs_tdiv_le (ha : Fits a) (hb : b ≠ 0) (hr : a.tmod b ≠ 0) : |a.tdiv b| ≤ 2 ^ 62 := by
  have hone : b.natAbs ≠ 1 := by
    intro hone
    apply hr
    rw [← Int.natAbs_eq_zero, Int.natAbs_tmod, hone, Nat.mod_one]
  have hhalf : a.natAbs / b.natAbs ≤ a.natAbs / 2 := Nat.div_le_div_left (by omega) (by decide)
  have hdividend : a.natAbs ≤ 2 ^ 63 := by
    unfold Fits at ha
    omega
  rw [Int.abs_eq_natAbs, Int.natAbs_tdiv]
  show ((a.natAbs / b.natAbs : Nat) : Int) ≤ 2 ^ 62
  omega

end Integers

/-! ## Words -/

section Words

variable {a b : Int64}

theorem signsDiffer_iff : signsDiffer a b = true ↔ ¬ (a.toInt < 0 ↔ b.toInt < 0) := by
  unfold signsDiffer
  rw [bne_iff_ne, ne_eq, decide_eq_decide, Int64.lt_iff_toInt_lt, Int64.lt_iff_toInt_lt]
  rfl

theorem quotientOverflows_iff :
    quotientOverflows a b = true ↔ a.toInt = -2 ^ 63 ∧ b.toInt = -1 := by
  unfold quotientOverflows
  rw [Bool.and_eq_true, beq_iff_eq, beq_iff_eq, ← Int64.toInt_inj, ← Int64.toInt_inj]
  rfl

theorem eq_zero_iff_toInt : a = 0 ↔ a.toInt = 0 := by
  rw [← Int64.toInt_inj]
  rfl

theorem remainder_ne_zero_iff : a % b ≠ 0 ↔ a.toInt.tmod b.toInt ≠ 0 := by
  rw [ne_eq, eq_zero_iff_toInt, Int64.toInt_mod]

/-- Where something remains, the two tests for a correction agree. -/
theorem signsDiffer_remainder (hr : a % b ≠ 0) : signsDiffer (a % b) b = signsDiffer a b := by
  rw [Bool.eq_iff_iff, signsDiffer_iff, signsDiffer_iff, Int64.toInt_mod,
    tmod_neg_iff (remainder_ne_zero_iff.mp hr)]

theorem toInt_quotient (h : quotientOverflows a b = false) :
    (a / b).toInt = a.toInt.tdiv b.toInt := by
  by_cases ha : a = Int64.minValue
  · refine Int64.toInt_div_of_ne_right a b fun hb => ?_
    rw [ha, hb] at h
    exact absurd h (by decide)
  · exact Int64.toInt_div_of_ne_left a b ha

/-- Arithmetic on words is exact as long as the result is one. -/
theorem bmod_eq_of_fits {x : Int} (h : Fits x) : x.bmod (2 ^ 64) = x := by
  unfold Fits at h
  apply Int.bmod_eq_of_le <;> omega

/-- No operation on the way to quotient and remainder leaves the range of words: not the division
itself, nor the corrections where they are made. -/
structure StepsFit (a b : Int64) : Prop where
  quotient : Fits (a.toInt.tdiv b.toInt)
  remainder : Fits (a.toInt.tmod b.toInt)
  lowered : a % b ≠ 0 → signsDiffer a b = true → Fits ((a / b).toInt - 1)
  raised : a % b ≠ 0 → signsDiffer (a % b) b = true → Fits ((a % b).toInt + b.toInt)

theorem stepsFit (hb : b ≠ 0) (hfits : quotientOverflows a b = false) : StepsFit a b where
  quotient := toInt_quotient hfits ▸ fits_toInt (a / b)
  remainder := Int64.toInt_mod a b ▸ fits_toInt (a % b)
  lowered hr _ := by
    have hsmall := abs_tdiv_le (fits_toInt a) (mt eq_zero_iff_toInt.mpr hb)
      (remainder_ne_zero_iff.mp hr)
    rw [toInt_quotient hfits]
    unfold Fits
    rw [abs_le] at hsmall
    omega
  raised _ hdiffer := by
    have hdivisor := fits_toInt b
    have hremainder := fits_toInt (a % b)
    rw [signsDiffer_iff] at hdiffer
    unfold Fits at hdivisor hremainder ⊢
    omega

/-- Quotient and remainder where there are such, with one test for both. -/
theorem floored_words (hb : b ≠ 0) (hfits : quotientOverflows a b = false) :
    ∃ q r, floorDiv a b = .ok q ∧ floorMod a b = .ok r ∧
      Floored a.toInt b.toInt q.toInt r.toInt := by
  have hsteps := stepsFit hb hfits
  have hnonzero : b.toInt ≠ 0 := mt eq_zero_iff_toInt.mpr hb
  unfold floorDiv floorMod
  rw [if_neg hb, if_neg hb, hfits]
  by_cases hr : a % b = 0
  · refine ⟨a / b, a % b, by simp [hr], by simp [hr], ?_⟩
    rw [toInt_quotient hfits, Int64.toInt_mod]
    exact .cut hnonzero (.inl (by rwa [eq_zero_iff_toInt, Int64.toInt_mod] at hr))
  · have htests := signsDiffer_remainder hr
    have hremains := remainder_ne_zero_iff.mp hr
    cases hdiffer : signsDiffer a b with
    | false =>
      refine ⟨a / b, a % b, by simp, by simp [htests, hdiffer], ?_⟩
      rw [← htests, Bool.eq_false_iff, ne_eq, signsDiffer_iff, not_not, Int64.toInt_mod] at hdiffer
      rw [toInt_quotient hfits, Int64.toInt_mod]
      exact .cut hnonzero (.inr hdiffer)
    | true =>
      refine ⟨a / b - 1, a % b + b, by simp [hr], by simp [hr, htests, hdiffer], ?_⟩
      have hquotient : (a / b - 1).toInt = a.toInt.tdiv b.toInt - 1 := by
        rw [Int64.toInt_sub, ← toInt_quotient hfits]
        exact bmod_eq_of_fits (hsteps.lowered hr hdiffer)
      have hremainder : (a % b + b).toInt = a.toInt.tmod b.toInt + b.toInt := by
        rw [Int64.toInt_add, ← Int64.toInt_mod]
        exact bmod_eq_of_fits (hsteps.raised hr (htests.trans hdiffer))
      rw [← htests, signsDiffer_iff, Int64.toInt_mod] at hdiffer
      rw [hquotient, hremainder]
      exact .lowered hremains hdiffer hnonzero

end Words

/-- **Division rounds down, exactly.**  Quotient and remainder are refused for a divisor of 0 and for
the one pair of words whose quotient is no word, and for nothing else.  All other words have a quotient,
which is the rational one rounded down, and a remainder that goes with it and has the sign of the
divisor, and nothing on the way to them leaves the range of words. -/
theorem division_floors (a b : Int64) :
    (floorDiv a b = .error .zeroDivision ↔ b.toInt = 0) ∧
    (floorMod a b = .error .zeroDivision ↔ b.toInt = 0) ∧
    (floorDiv a b = .error .integerOverflow ↔ a.toInt = -2 ^ 63 ∧ b.toInt = -1) ∧
    (floorMod a b = .error .integerOverflow ↔ a.toInt = -2 ^ 63 ∧ b.toInt = -1) ∧
    (b.toInt ≠ 0 → ¬ (a.toInt = -2 ^ 63 ∧ b.toInt = -1) →
      StepsFit a b ∧ ∃ q r, floorDiv a b = .ok q ∧ floorMod a b = .ok r ∧
        Floored a.toInt b.toInt q.toInt r.toInt) := by
  rw [← eq_zero_iff_toInt, ← quotientOverflows_iff, Bool.not_eq_true]
  by_cases hb : b = 0
  · subst hb
    have hquotient : floorDiv a 0 = .error .zeroDivision := if_pos rfl
    have hremainder : floorMod a 0 = .error .zeroDivision := if_pos rfl
    have hfits : quotientOverflows a 0 = false := Bool.and_false _
    simp [hquotient, hremainder, hfits]
  · cases hfits : quotientOverflows a b with
    | true =>
      have hquotient : floorDiv a b = .error .integerOverflow := by simp [floorDiv, hb, hfits]
      have hremainder : floorMod a b = .error .integerOverflow := by simp [floorMod, hb, hfits]
      simp [hquotient, hremainder, hb]
    | false =>
      obtain ⟨q, r, hquotient, hremainder, hfloored⟩ := floored_words hb hfits
      simp [hquotient, hremainder, hb, stepsFit hb hfits, hfloored]

/-- At the lower end of the range the quotient by 3 is lowered, and the one by -1 is refused. -/
theorem division_floors_minValue :
    floorDiv Int64.minValue 3 = .ok (-3074457345618258603) ∧ floorMod Int64.minValue 3 = .ok 1 ∧
    Floored (-2 ^ 63) 3 (-3074457345618258603) 1 ∧
    floorDiv Int64.minValue (-1) = .error .integerOverflow := by
  have hquotient : floorDiv Int64.minValue 3 = .ok (-3074457345618258603) := by decide
  have hremainder : floorMod Int64.minValue 3 = .ok 1 := by decide
  obtain ⟨_, q, r, hq, hr, hfloored⟩ :=
    (division_floors Int64.minValue 3).2.2.2.2 (by decide) (by decide)
  cases hquotient.symm.trans hq
  cases hremainder.symm.trans hr
  exact ⟨hquotient, hremainder, hfloored, (division_floors Int64.minValue (-1)).2.2.1.mpr (by decide)⟩

end Rite.Arithmetic

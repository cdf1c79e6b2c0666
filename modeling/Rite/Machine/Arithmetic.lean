import Rite.Machine.Fault

/-!
# Integer arithmetic

Integers are signed 64-bit words.  An operation whose exact result is not such a word is a fault, so
no result ever wraps around.  Division rounds toward negative infinity and the remainder takes the
sign of the divisor; both are computed from the machine's truncating division and then corrected.
-/

namespace Rite.Arithmetic

/-- `x` as a word, or an overflow. -/
def checked (x : Int) : Except Fault Int64 :=
  if Int64.minValue.toInt ≤ x ∧ x ≤ Int64.maxValue.toInt then .ok (Int64.ofInt x)
  else .error .integerOverflow

/-- Sum. -/
def add (a b : Int64) : Except Fault Int64 := checked (a.toInt + b.toInt)

/-- Difference. -/
def sub (a b : Int64) : Except Fault Int64 := checked (a.toInt - b.toInt)

/-- Product. -/
def mul (a b : Int64) : Except Fault Int64 := checked (a.toInt * b.toInt)

/-- Negation. -/
def neg (a : Int64) : Except Fault Int64 := checked (-a.toInt)

/-- Whether two words have different signs; zero counts as positive. -/
def signsDiffer (a b : Int64) : Bool := decide (a < 0) != decide (b < 0)

/-- Whether dividing `a` by `b` leaves the range of words. -/
def quotientOverflows (a b : Int64) : Bool := a == Int64.minValue && b == -1

/-- Quotient, rounded toward negative infinity. -/
def floorDiv (a b : Int64) : Except Fault Int64 :=
  if b = 0 then .error .zeroDivision
  else if quotientOverflows a b then .error .integerOverflow
  else if a % b ≠ 0 && signsDiffer a b then .ok (a / b - 1)
  else .ok (a / b)

/-- Remainder with the sign of the divisor. -/
def floorMod (a b : Int64) : Except Fault Int64 :=
  if b = 0 then .error .zeroDivision
  else if quotientOverflows a b then .error .integerOverflow
  else if a % b ≠ 0 && signsDiffer (a % b) b then .ok (a % b + b)
  else .ok (a % b)

/-- `acc * base ^ exponent` by repeated squaring.  The base is squared only while a further bit of
the exponent needs it, so no product is formed that the result does not contain.  `rounds` bounds
the number of bits. -/
def powFrom : (rounds : Nat) → (acc base : Int64) → (exponent : Nat) → Except Fault Int64
  | 0, acc, _, _ => .ok acc
  | rounds + 1, acc, base, exponent => do
    let acc ← if exponent % 2 = 1 then mul acc base else .ok acc
    if exponent / 2 = 0 then .ok acc
    else powFrom rounds acc (← mul base base) (exponent / 2)

/-- Power with an exponent below 2^32. -/
def powNat (a : Int64) (exponent : Nat) : Except Fault Int64 := powFrom 32 1 a exponent

/-- Power.  The exponent must be at least 0 and less than 2^32. -/
def pow (a b : Int64) : Except Fault Int64 :=
  if 0 ≤ b.toInt ∧ b.toInt < 0x100000000 then powNat a b.toInt.toNat
  else .error (.typeMismatch "non-negative Integer" (toString b.toInt))

end Rite.Arithmetic

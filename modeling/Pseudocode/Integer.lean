import Pseudocode.Decimal.Digits
import Pseudocode.Power

/-!
The integers of the language: 64-bit signed words.

Arithmetic on them is exact or refused. Each operation computes the exact
result as an integer and `narrow?` keeps it when it fits.
-/

namespace Pseudocode

namespace Integer

/-- The least integer, `-2 ^ 63`. -/
def least : Int := -9223372036854775808

/-- The greatest integer, `2 ^ 63 - 1`. -/
def greatest : Int := 9223372036854775807

/-- The word whose value is `z`, when there is one. -/
def narrow? (z : Int) : Option Int64 :=
  if least ≤ z ∧ z ≤ greatest then some (Int64.ofInt z) else none

theorem toInt_bounds (n : Int64) : least ≤ n.toInt ∧ n.toInt ≤ greatest :=
  ⟨n.le_toInt, Int.le_of_lt_add_one n.toInt_lt⟩

theorem narrow?_eq_some_iff {z : Int} {n : Int64} : narrow? z = some n ↔ n.toInt = z := by
  unfold narrow?
  constructor
  · intro h
    split at h
    · rename_i bounds
      cases h
      exact Int64.toInt_ofInt_of_le bounds.1 (Int.lt_add_one_of_le bounds.2)
    · cases h
  · rintro rfl
    rw [if_pos (toInt_bounds n), Int64.ofInt_toInt]

theorem narrow?_eq_none_iff {z : Int} : narrow? z = none ↔ z < least ∨ greatest < z := by
  unfold narrow?
  split <;> rename_i h <;> simp <;> omega

@[simp] theorem narrow?_toInt (n : Int64) : narrow? n.toInt = some n :=
  narrow?_eq_some_iff.mpr rfl

/-- The word nearest to an integer. -/
def clamp (z : Int) : Int64 := Int64.ofInt (max least (min z greatest))

def add? (a b : Int64) : Option Int64 := narrow? (a.toInt + b.toInt)

def sub? (a b : Int64) : Option Int64 := narrow? (a.toInt - b.toInt)

def mul? (a b : Int64) : Option Int64 := narrow? (a.toInt * b.toInt)

def neg? (a : Int64) : Option Int64 := narrow? (-a.toInt)

/-- Quotient truncated toward zero. -/
def div? (a b : Int64) : Option Int64 := narrow? (a.toInt.tdiv b.toInt)

/-- Remainder of the truncated quotient. It is refused together with the
quotient: where the quotient does not fit, so is the remainder. -/
def mod? (a b : Int64) : Option Int64 :=
  (div? a b).bind fun _ => narrow? (a.toInt.tmod b.toInt)

/-- Power with a natural exponent below `2 ^ 32`; larger exponents are refused.
Past exponent 63 only the bases -1, 0 and 1 have a power that fits, and theirs
repeat with period two. -/
def pow? (a : Int64) (n : Nat) : Option Int64 :=
  if n < 64 then narrow? (Int.pow a.toInt n)
  else if n < twoPow 32 && a.toInt.natAbs ≤ 1 then narrow? (Int.pow a.toInt (2 + n % 2))
  else none

/-- Reads an optional sign and decimal digits as a word. Numbers of more than 19
digits do not fit. -/
def parse? (cs : List Char) : Option Int64 :=
  let (negative, ds) := Decimal.splitSign cs
  if Decimal.isDigits ds then
    (Decimal.valueWithin? 19 ds).bind fun n => narrow? (if negative then -(n : Int) else n)
  else none

/-- The decimal numeral of a word. -/
def text (n : Int64) : String := Decimal.numeral n.toInt

end Integer

end Pseudocode

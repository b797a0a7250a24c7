import Pseudocode.Operator
import Pseudocode.Proofs.Binary64.Power

/-!
Powers of integers.

A natural exponent gives the exact power or the refusal of one that does not fit, but the
exponent has to fit in 32 bits, also where the power would be 0, 1 or -1 (`Integer.pow?_eq`).
A negative exponent goes through floats, and a float that is whole counts as an integer. So
a power that is too small for a float is the integer 0, and exponents from `2 ^ 53` on have lost
their parity (`Operator.binary_pow`). This is so however floats are raised to powers, as long
as it is done by `PowerLaws`.
-/

namespace Pseudocode

open Binary64

/-! ### Natural exponents -/

namespace Integer

/-- The powers of 0, 1 and -1 repeat with period two. -/
theorem pow_of_unit {z : Int} (unit : z.natAbs ≤ 1) {n : Nat} (some : n ≠ 0) :
    z ^ (2 + n % 2) = z ^ n := by
  obtain rfl | rfl | rfl : z = 0 ∨ z = 1 ∨ z = -1 := by omega
  · rw [zero_pow some, zero_pow (by omega)]
  · rw [one_pow, one_pow]
  · rw [pow_add, neg_one_sq, one_mul, ← neg_one_pow_eq_pow_mod_two]

/-- A power with an exponent of 64 and more fits only for the bases 0, 1 and -1. -/
theorem narrow?_pow_eq_none {z : Int} (large : 2 ≤ z.natAbs) {n : Nat} (many : 64 ≤ n) :
    narrow? (z ^ n) = none := by
  have size : 2 ^ 64 ≤ (z ^ n).natAbs := by
    rw [Int.natAbs_pow]
    exact (Nat.pow_le_pow_right (by decide) many).trans (Nat.pow_le_pow_left large n)
  rw [narrow?_eq_none_iff]
  unfold least greatest
  omega

/-- The power of a natural exponent of 32 bits, when it fits. -/
theorem pow?_eq (a : Int64) (n : Nat) :
    pow? a n = if n < 2 ^ 32 then narrow? (a.toInt ^ n) else none := by
  change (if n < 64 then narrow? (a.toInt ^ n)
    else if (decide (n < 2 ^ 32) && decide (a.toInt.natAbs ≤ 1)) = true then narrow? (a.toInt ^ (2 + n % 2))
    else none) = _
  have guard : (decide (n < 2 ^ 32) && decide (a.toInt.natAbs ≤ 1)) = true ↔
      n < 2 ^ 32 ∧ a.toInt.natAbs ≤ 1 := by
    rw [Bool.and_eq_true, decide_eq_true_iff, decide_eq_true_iff]
  by_cases few : n < 64
  · rw [if_pos few, if_pos (by omega)]
  · rw [if_neg few]
    by_cases word : n < 2 ^ 32
    · rw [if_pos word]
      by_cases unit : a.toInt.natAbs ≤ 1
      · rw [if_pos (guard.mpr ⟨word, unit⟩), pow_of_unit unit (by omega)]
      · rw [if_neg fun both => unit (guard.mp both).2, narrow?_pow_eq_none (by omega) (by omega)]
    · rw [if_neg word, if_neg fun both => word (guard.mp both).1]

end Integer

/-! ### All exponents -/

namespace Operator

variable {pow : Float → Float → Float} {a b : Int64}

/-- What the power of two integers is. Each pair of integers falls under one case, but for
powers between one half of the least positive float and that float: they may be rounded to
either side. -/
inductive Raised (pow : Float → Float → Float) (a b : Int64) : Except Cause Value → Prop
  | exact {n : Int64} (natural : 0 ≤ b.toInt) (word : b.toInt < 2 ^ 32)
      (same : n.toInt = a.toInt ^ b.toInt.toNat) : Raised pow a b (.ok (.integer n))
  | refused (natural : 0 ≤ b.toInt)
      (out : 2 ^ 32 ≤ b.toInt ∨ a.toInt ^ b.toInt.toNat < Integer.least ∨
        Integer.greatest < a.toInt ^ b.toInt.toNat) :
      Raised pow a b (.error (.misuse (.overflow .pow)))
  /-- The reciprocal of a power that is 1 or -1. -/
  | unit {n : Int64} (negative : b.toInt < 0)
      (base : a.toInt = 1 ∨ a.toInt = -1 ∧ -2 ^ 53 < b.toInt)
      (same : (n.toInt : ℚ) = (a.toInt : ℚ) ^ b.toInt) : Raised pow a b (.ok (.integer n))
  /-- As a float the exponent is even. -/
  | unsigned {n : Int64} (base : a.toInt = -1) (large : b.toInt ≤ -2 ^ 53) (one : n.toInt = 1) :
      Raised pow a b (.ok (.integer n))
  /-- The power of the rounded base is at most the least positive float, and zero as a float. -/
  | vanished {n : Int64} (negative : b.toInt < 0) (base : 2 ≤ a.toInt.natAbs)
      (tiny : twoPow 1074 ≤ rounded a.toInt.natAbs ^ b.toInt.natAbs)
      (none : number? (pow (ofInt a.toInt) (ofInt b.toInt)) = some (.finite 0)) (zero : n.toInt = 0) :
      Raised pow a b (.ok (.integer n))
  /-- The power is infinite, or else it is more than half of the least positive float, and not
  zero as a float. -/
  | fraction (negative : b.toInt < 0)
      (base : a.toInt = 0 ∨ 2 ≤ a.toInt.natAbs ∧
        rounded a.toInt.natAbs ^ b.toInt.natAbs < twoPow 1075 ∧
        number? (pow (ofInt a.toInt) (ofInt b.toInt)) ≠ some (.finite 0)) :
      Raised pow a b (.ok (.float (pow (ofInt a.toInt) (ofInt b.toInt))))

/-- The power with a natural exponent. -/
theorem raised_natural (natural : 0 ≤ b.toInt) :
    Raised pow a b (exact .pow (Integer.pow? a b.toInt.toNat)) := by
  rw [Integer.pow?_eq]
  split
  · rename_i word
    cases fits : Integer.narrow? (a.toInt ^ b.toInt.toNat) with
    | some n => exact .exact natural (by omega) (Integer.narrow?_eq_some_iff.mp fits)
    | none => exact .refused natural (.inr (Integer.narrow?_eq_none_iff.mp fits))
  · exact .refused natural (.inl (by omega))

/-! ### Negative exponents -/

/-- Doubles that stand for 0, 1 and -1 pass for integers, and these are what they are cast to. -/
theorem whole_of_unit {x : Float} {z : Int} (small : z.natAbs ≤ 1)
    (number : number? x = some (.finite z)) :
    (fract x == 0.0 && decide (x.abs < ofInt Integer.greatest)) = true ∧ (toWord x).toInt = z := by
  have same := eq_of_number?_eq number (number?_ofInt_of_lt (by omega))
  obtain rfl | rfl | rfl : z = 0 ∨ z = 1 ∨ z = -1 := by omega
  · rcases same with rfl | ⟨rfl, -⟩ | ⟨rfl, -⟩ <;> exact ⟨by decide +kernel, by decide +kernel⟩
  · have apart : ofInt 1 ≠ -0 ∧ ofInt 1 ≠ 0 := by decide +kernel
    obtain rfl : x = ofInt 1 := by simpa only [apart, and_false, or_false] using same
    exact ⟨by decide +kernel, by decide +kernel⟩
  · have apart : ofInt (-1) ≠ -0 ∧ ofInt (-1) ≠ 0 := by decide +kernel
    obtain rfl : x = ofInt (-1) := by simpa only [apart, and_false, or_false] using same
    exact ⟨by decide +kernel, by decide +kernel⟩

theorem fract_of_infinite {x : Float} {negative : Bool}
    (infinite : number? x = some (.infinite negative)) : (fract x == 0.0) = false := by
  have packed : shape (pack negative 0 4000) = .infinite negative := by
    cases negative <;> rfl
  have same : x = pack negative 0 4000 := by
    have none : ¬ (x = 0 ∨ x = -0) := by
      rintro (rfl | rfl)
      · rw [number?_zero] at infinite
        cases infinite
      · rw [number?_neg_zero] at infinite
        cases infinite
    rcases eq_of_number?_eq infinite (number?_of_infinite packed) with same | ⟨zero, -⟩ | ⟨zero, -⟩
    · exact same
    · exact absurd (.inl zero) none
    · exact absurd (.inr zero) none
  rw [same]
  cases negative <;> rfl

theorem fract_of_fraction {x : Float} {q : ℚ} (number : number? x = some (.finite q))
    (nonzero : q ≠ 0) (small : |q| < 1) : (fract x == 0.0) = false := by
  rw [fract_of_small number nonzero small, Bool.eq_false_iff, ne_eq, beq_iff]
  rintro ⟨p, left, right⟩
  have zero : (0.0 : Float) = 0 := rfl
  rw [zero, number?_zero] at right
  rw [number, ← right] at left
  cases left
  exact nonzero rfl

theorem reciprocalPower_of_unit {z : Int} (small : z.natAbs ≤ 1)
    (power : number? (pow (ofInt a.toInt) (ofInt b.toInt)) = some (.finite z)) :
    ∃ n : Int64, n.toInt = z ∧ reciprocalPower pow a b = .integer n := by
  obtain ⟨whole, word⟩ := whole_of_unit small power
  refine ⟨_, word, ?_⟩
  unfold reciprocalPower
  dsimp only
  rw [if_pos whole]

theorem reciprocalPower_of_fract
    (rest : (fract (pow (ofInt a.toInt) (ofInt b.toInt)) == 0.0) = false) :
    reciprocalPower pow a b = .float (pow (ofInt a.toInt) (ofInt b.toInt)) := by
  unfold reciprocalPower
  dsimp only
  rw [rest, Bool.false_and, if_neg Bool.false_ne_true]

/-- A negative exponent as a float. -/
theorem number?_exponent (negative : b.toInt < 0) :
    number? (ofInt b.toInt) = some (.finite (-(rounded b.toInt.natAbs) : Int)) := by
  rw [number?_ofInt (natAbs_toInt_lt b), Int.sign_eq_neg_one_of_neg negative]
  push_cast
  rw [neg_one_mul]

section Negative

variable (laws : PowerLaws pow) (negative : b.toInt < 0)

include laws negative

theorem raised_zero (base : a.toInt = 0) : Raised pow a b (.ok (reciprocalPower pow a b)) := by
  have number : number? (ofInt a.toInt) = some (.finite 0) := by
    rw [base, number?_ofInt_of_lt (by decide), Int.cast_zero]
  have some : rounded b.toInt.natAbs ≠ 0 := rounded_ne_zero (by omega)
  obtain ⟨sign, infinite⟩ := laws.zero number (number?_exponent negative) (by omega)
  rw [reciprocalPower_of_fract (fract_of_infinite infinite)]
  exact .fraction negative (.inl base)

/-- The sign of a power of -1 comes from the exponent as a float. -/
theorem raised_unit (base : a.toInt.natAbs = 1) : Raised pow a b (.ok (reciprocalPower pow a b)) := by
  have unit : |(a.toInt : ℚ)| = 1 := by
    rw [← Int.cast_abs, Int.abs_eq_natAbs, base]
    rfl
  have power := laws.unit (number?_ofInt_of_lt (by omega)) (number?_exponent negative) unit
  obtain one | minusOne : a.toInt = 1 ∨ a.toInt = -1 := by omega
  · have value : (a.toInt : ℚ) ^ (-(rounded b.toInt.natAbs) : Int) = (1 : Int) := by
      rw [one, Int.cast_one, one_zpow]
    rw [value] at power
    obtain ⟨n, same, integer⟩ := reciprocalPower_of_unit (by decide) power
    rw [integer]
    refine .unit negative (.inl one) ?_
    rw [same, one, Int.cast_one, one_zpow]
  by_cases large : b.toInt ≤ -2 ^ 53
  · have two : 2 ∣ rounded b.toInt.natAbs := (rounded_of_le (by omega)).1
    have even : Even (-(rounded b.toInt.natAbs) : Int) := by
      rwa [even_neg, Int.even_coe_nat, even_iff_two_dvd]
    have value : (a.toInt : ℚ) ^ (-(rounded b.toInt.natAbs) : Int) = (1 : Int) := by
      rw [minusOne, Int.cast_neg, Int.cast_one, even.neg_one_zpow]
    rw [value] at power
    obtain ⟨n, same, integer⟩ := reciprocalPower_of_unit (by decide) power
    rw [integer]
    exact .unsigned minusOne large same
  · have exponent : -(rounded b.toInt.natAbs : Int) = b.toInt := by
      rw [rounded_of_lt (by omega)]
      omega
    obtain ⟨z, small, value⟩ : ∃ z : Int, z.natAbs ≤ 1 ∧ (a.toInt : ℚ) ^ b.toInt = z := by
      rw [minusOne, Int.cast_neg, Int.cast_one]
      rcases Int.even_or_odd b.toInt with even | odd
      · exact ⟨1, by decide, by rw [even.neg_one_zpow, Int.cast_one]⟩
      · exact ⟨-1, by decide, by rw [odd.neg_one_zpow, Int.cast_neg, Int.cast_one]⟩
    rw [exponent, value] at power
    obtain ⟨n, same, integer⟩ := reciprocalPower_of_unit small power
    rw [integer]
    refine .unit negative (.inr ⟨minusOne, by omega⟩) ?_
    rw [same, value]

/-- The reciprocal of a larger number is a fraction, or too small for a float. -/
theorem raised_large (base : 2 ≤ a.toInt.natAbs) :
    Raised pow a b (.ok (reciprocalPower pow a b)) := by
  have size := abs_sign_mul_rounded a.toInt
  have two : 2 ≤ rounded a.toInt.natAbs := two_le_rounded_iff.mpr base
  have some : rounded b.toInt.natAbs ≠ 0 := rounded_ne_zero (by omega)
  obtain ⟨p, power, small, tiny, larger⟩ := laws.reciprocal (number?_ofInt (natAbs_toInt_lt a))
    (number?_exponent negative) (by rw [size]; exact_mod_cast two) some
  rw [size] at tiny larger
  by_cases zero : p = 0
  · rw [zero, ← Int.cast_zero] at power
    obtain ⟨n, same, integer⟩ := reciprocalPower_of_unit (by decide) power
    rw [integer]
    refine .vanished negative base ?_ power same
    rw [twoPow_eq, ← two_pow_le_pow_rounded_iff two (by decide)]
    exact_mod_cast tiny zero
  · rw [reciprocalPower_of_fract (fract_of_fraction power zero small)]
    refine .fraction negative (.inr ⟨base, ?_, ?_⟩)
    · rw [twoPow_eq, ← not_le, ← two_pow_le_pow_rounded_iff two (by decide), not_le]
      exact_mod_cast larger zero
    · rw [power]
      rintro ⟨⟩
      exact zero rfl

/-- The power with a negative exponent. -/
theorem raised_negative : Raised pow a b (.ok (reciprocalPower pow a b)) := by
  obtain zero | one | large : a.toInt = 0 ∨ a.toInt.natAbs = 1 ∨ 2 ≤ a.toInt.natAbs := by omega
  · exact raised_zero laws negative zero
  · exact raised_unit laws negative one
  · exact raised_large laws negative large

end Negative

/-- The power of two integers is exact or refused when the exponent is natural, and it is
refused for no other reason than its size if the exponent has 32 bits. When the exponent is
negative, it is an integer for the bases 1 and -1, and the integer 0 if it is too small for
a float; else it is a float. -/
theorem binary_pow (laws : PowerLaws pow) (h : Heap) (a b : Int64) :
    Raised pow a b (binaryWith pow h .pow (.integer a) (.integer b)) := by
  change Raised pow a b (if b.toInt < 0 then .ok (reciprocalPower pow a b)
    else exact .pow (Integer.pow? a b.toInt.toNat))
  split
  · rename_i negative
    exact raised_negative laws negative
  · rename_i natural
    exact raised_natural (Int.not_lt.mp natural)

/-- The power that `2 ^ -1100` is rounded to is zero, and so it is an integer. -/
theorem binary_pow_nearest :
    PowerLaws nearestPower ∧
      Raised nearestPower 2 (-1100) (binaryWith nearestPower {} .pow (.integer 2) (.integer (-1100))) :=
  ⟨nearestPower_laws, binary_pow nearestPower_laws {} 2 (-1100)⟩

/-- An integer power that is refused, a fraction that is the integer 0, and a power of -1
with the wrong sign. -/
theorem binary_pow_inexact :
    ((1 : Int) ^ 4294967296 = 1 ∧
      binary {} .pow (.integer 1) (.integer 4294967296) = .error (.misuse (.overflow .pow))) ∧
    ((2 : ℚ) ^ (-1100 : Int) ≠ 0 ∧
      binaryWith nearestPower {} .pow (.integer 2) (.integer (-1100)) = .ok (.integer 0)) ∧
    ((-1 : ℚ) ^ (-9007199254740993 : Int) = -1 ∧
      binaryWith nearestPower {} .pow (.integer (-1)) (.integer (-9007199254740993)) =
        .ok (.integer 1)) := by
  have refused : Integer.pow? 1 4294967296 = none := by decide
  have odd : Odd (-9007199254740993 : Int) := by decide
  refine ⟨⟨one_pow _, ?_⟩, ⟨by positivity, ?_⟩, odd.neg_one_zpow, ?_⟩
  · change exact .pow (Integer.pow? 1 4294967296) = _
    rw [refused]
    rfl
  · have base : (2 : Int64).toInt = 2 := by decide
    have exponent : (-1100 : Int64).toInt = -1100 := by decide
    have large : ¬ rounded (2 : Int64).toInt.natAbs ^ (-1100 : Int64).toInt.natAbs < twoPow 1075 := by
      decide +kernel
    change Except.ok (reciprocalPower nearestPower 2 (-1100)) = _
    have raised : Raised nearestPower 2 (-1100) _ := raised_negative nearestPower_laws (by decide)
    generalize reciprocalPower nearestPower 2 (-1100) = v at raised ⊢
    cases raised with
    | exact natural => omega
    | unit _ base => omega
    | unsigned base => omega
    | @vanished n _ _ _ _ zero =>
        obtain rfl : n = 0 := Int64.toInt_inj.mp zero
        rfl
    | fraction _ base => exact absurd (base.resolve_left (by omega)).2.1 large
  · change Except.ok (reciprocalPower nearestPower (-1) (-9007199254740993)) = _
    have base : (-1 : Int64).toInt = -1 := by decide
    have exponent : (-9007199254740993 : Int64).toInt = -9007199254740993 := by decide
    have raised : Raised nearestPower (-1) (-9007199254740993) _ :=
      raised_negative nearestPower_laws (by decide)
    generalize reciprocalPower nearestPower (-1) (-9007199254740993) = v at raised ⊢
    cases raised with
    | exact natural => omega
    | unit _ base => omega
    | @unsigned n _ _ one =>
        obtain rfl : n = 1 := Int64.toInt_inj.mp one
        rfl
    | vanished _ base => omega
    | fraction _ base => omega

end Operator

end Pseudocode

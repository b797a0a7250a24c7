import Pseudocode.Power

/-!
Doubles as exact numbers.

`shape` reads a double from its bits as a sign and an exact product
`mantissa * 2 ^ exponent`; `ofRatio` goes the other way and gives the double
nearest to a quotient of naturals, a tie going to the even mantissa. Everything
that must be exact about doubles is said through these two, in natural number
arithmetic.
-/

namespace Pseudocode.Binary64

/-- What a double stands for. -/
inductive Shape where
  | nan
  | infinite (negative : Bool)
  /-- `mantissa * 2 ^ exponent`, negated when `negative`. -/
  | finite (negative : Bool) (mantissa : Nat) (exponent : Int)
  deriving DecidableEq, Repr

/-- The least exponent of a double, that of the subnormal ones. -/
def leastExponent : Int := -1074

/-- The exact meaning of a double. -/
def shape (x : Float) : Shape :=
  let bits : Nat := x.toBits.toNat
  let negative := bits / twoPow 63 == 1
  let exponent : Nat := bits / twoPow 52 % twoPow 11
  let fraction : Nat := bits % twoPow 52
  if exponent = 2047 then
    if fraction = 0 then .infinite negative else .nan
  else if exponent = 0 then .finite negative fraction leastExponent
  else .finite negative (twoPow 52 + fraction) (exponent - 1075)

/-- Not a number. -/
def nan : Float := Float.ofBits 0x7FF8000000000000

/-- The double `mantissa * 2 ^ exponent` for a mantissa of at most 53 bits, with
an exponent not below the least; infinite when it is too large. -/
def pack (negative : Bool) (mantissa : Nat) (exponent : Int) : Float :=
  let magnitude := min ((exponent - leastExponent).toNat * twoPow 52 + mantissa) (2047 * twoPow 52)
  Float.ofBits (UInt64.ofNat (if negative then twoPow 63 + magnitude else magnitude))

/-- The natural number nearest to `num / den`, a tie going to the even one. -/
def roundDiv (num den : Nat) : Nat :=
  let q := num / den
  let r := num % den
  if den < 2 * r || (2 * r == den && q % 2 == 1) then q + 1 else q

/-- `num / den` in units of `2 ^ exponent`, as a numerator and a denominator. -/
def inUnits (num den : Nat) (exponent : Int) : Nat × Nat :=
  (num * twoPow (-exponent).toNat, den * twoPow exponent.toNat)

/-- The exponent at which `num / den` has a mantissa of 53 bits, or the least
exponent when that is larger. -/
def roundingExponent (num den : Nat) : Int :=
  let guess := max ((num.log2 : Int) - den.log2 - 53) leastExponent
  let (n, d) := inUnits num den guess
  if twoPow 53 ≤ n / d then guess + 1 else guess

/-- The double nearest to `num / den`, negated when `negative`. -/
def ofRatio (negative : Bool) (num den : Nat) : Float :=
  if num = 0 then pack negative 0 leastExponent
  else
    let exponent := roundingExponent num den
    let (n, d) := inUnits num den exponent
    pack negative (roundDiv n d) exponent

/-- The double nearest to `mantissa * 2 ^ exponent`, negated when `negative`. -/
def ofScaled (negative : Bool) (mantissa : Nat) (exponent : Int) : Float :=
  ofRatio negative (mantissa * twoPow exponent.toNat) (twoPow (-exponent).toNat)

/-- The double nearest to an integer. -/
def ofInt (z : Int) : Float := ofRatio (z < 0) z.natAbs 1

end Pseudocode.Binary64

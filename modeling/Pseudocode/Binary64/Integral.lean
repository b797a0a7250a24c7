import Pseudocode.Binary64.Basic
import Pseudocode.Integer

/-!
Whole numbers among doubles: floor, truncation toward zero and what it cuts off, the
remainder of a division whose quotient is truncated, and the cast to a word. All of them
are exact.
-/

namespace Pseudocode.Binary64

/-- `mantissa * 2 ^ exponent` without its fractional part. -/
def wholePart (mantissa : Nat) (exponent : Int) : Nat :=
  mantissa * twoPow exponent.toNat / twoPow (-exponent).toNat

/-- `mantissa * 2 ^ exponent` has no fractional part. -/
def isWhole (mantissa : Nat) (exponent : Int) : Bool := mantissa % twoPow (-exponent).toNat == 0

/-- The greatest integer not above a finite double. -/
def floor? (x : Float) : Option Int :=
  match shape x with
  | .finite negative m e =>
      let scaled : Int := m * twoPow e.toNat
      some ((if negative then -scaled else scaled) / twoPow (-e).toNat)
  | _ => none

/-- The double without its fractional part; zero keeps the sign. -/
def trunc (x : Float) : Float :=
  match shape x with
  | .finite negative m e => if 0 ≤ e then x else ofRatio negative (wholePart m e) 1
  | _ => x

/-- What truncation cuts off. An infinity has no such part. -/
def fract (x : Float) : Float := x - trunc x

/-- The word nearest to the double without its fractional part; zero for no number. -/
def toWord (x : Float) : Int64 :=
  match shape x with
  | .finite negative m e =>
      Integer.clamp (if negative then -(wholePart m e : Int) else wholePart m e)
  | .infinite negative => if negative then Int64.ofInt Integer.least else Int64.ofInt Integer.greatest
  | .nan => 0

/-- The remainder of `x` by `y` after a quotient truncated toward zero: it has
the sign of `x` and is smaller than `y` in magnitude. -/
def remainder (x y : Float) : Float :=
  match shape x, shape y with
  | .finite negative m e, .finite _ n f =>
      if n = 0 then nan
      else
        let least := min e f
        ofScaled negative ((m * twoPow (e - least).toNat) % (n * twoPow (f - least).toNat)) least
  | .finite .., .infinite _ => x
  | _, _ => nan

end Pseudocode.Binary64

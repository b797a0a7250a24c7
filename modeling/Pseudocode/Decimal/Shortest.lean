import Pseudocode.Binary64.Basic
import Pseudocode.Decimal.Digits

/-!
The shortest decimal that reads back as a given double.

The reals that round to `mantissa * 2 ^ exponent` form an interval, closed
exactly when the mantissa is even. For one, two, ... seventeen digits the two
neighbours of the value on that decimal grid are tested in exact arithmetic;
the first grid with a hit wins, and of two hits the nearer. When both are as
near, a `Tie` decides.
-/

namespace Pseudocode.Decimal

/-- A decimal number `digits * 10 ^ exponent`. -/
structure Scientific where
  digits : Nat
  exponent : Int
  deriving DecidableEq, Repr, Inhabited

/-- Which of two whole numbers a number halfway between them goes to. -/
inductive Tie where
  | upper
  | even
  deriving DecidableEq, Repr

/-- The one of `n` and `n + 1` that a tie goes to. -/
def Tie.resolve (tie : Tie) (n : Nat) : Nat :=
  match tie with
  | upper => n + 1
  | even => if n % 2 = 0 then n else n + 1

/-- A positive real and the interval of reals that round to it, over a common
denominator. -/
structure Interval where
  low : Nat
  mid : Nat
  high : Nat
  den : Nat
  closed : Bool
  deriving DecidableEq, Repr

namespace Interval

/-- The reals that round to `mantissa * 2 ^ exponent`. Below a power of two the
doubles are twice as dense as above it. -/
def ofDouble (mantissa : Nat) (exponent : Int) : Interval :=
  let below := if mantissa = twoPow 52 && Binary64.leastExponent < exponent then 1 else 2
  let scale := twoPow (exponent - 2).toNat
  { low := (4 * mantissa - below) * scale
    mid := 4 * mantissa * scale
    high := (4 * mantissa + 2) * scale
    den := twoPow (2 - exponent).toNat
    closed := mantissa % 2 == 0 }

/-- The interval measured in units of `10 ^ k`. -/
def inUnits (i : Interval) (k : Int) : Interval :=
  let up := tenPow (-k).toNat
  { i with low := i.low * up, mid := i.mid * up, high := i.high * up, den := i.den * tenPow k.toNat }

/-- The whole number `n` lies in the interval. -/
def contains (i : Interval) (n : Nat) : Bool :=
  if i.closed then i.low ≤ n * i.den && n * i.den ≤ i.high
  else i.low < n * i.den && n * i.den < i.high

/-- The whole number of the interval that is nearest to its middle value, of
the two beside that value. -/
def nearest? (tie : Tie) (i : Interval) : Option Nat :=
  let n := i.mid / i.den
  match i.contains n, i.contains (n + 1) with
  | true, true =>
      let below := i.mid - n * i.den
      let above := (n + 1) * i.den - i.mid
      some (if below < above then n else if above < below then n + 1 else tie.resolve n)
  | true, false => some n
  | false, true => some (n + 1)
  | false, false => none

/-- The power of ten `p` with `10 ^ (p - 1) ≤ mid < 10 ^ p`. -/
def magnitude (i : Interval) : Int :=
  if i.den ≤ i.mid then digitCount (i.mid / i.den)
  else 1 - (digitCount ((i.den + i.mid - 1) / i.mid - 1) : Int)

end Interval

/-- `n * 10 ^ k` with the trailing zeros of `n` moved into the exponent. -/
def Scientific.normalize : Nat → Nat → Int → Scientific
  | 0, n, k => ⟨n, k⟩
  | fuel + 1, n, k => if n % 10 = 0 then normalize fuel (n / 10) (k + 1) else ⟨n, k⟩

/-- The shortest decimal that reads back as the positive double
`mantissa * 2 ^ exponent`. -/
def shortest (tie : Tie) (mantissa : Nat) (exponent : Int) : Scientific :=
  let i := Interval.ofDouble mantissa exponent
  let p := i.magnitude
  let hit := (List.range 17).findSome? fun (n : Nat) =>
    let k := p - (n + 1)
    ((i.inUnits k).nearest? tie).map fun digits => (digits, k)
  match hit with
  | some (digits, k) => Scientific.normalize 17 digits k
  | none => ⟨0, 0⟩

end Pseudocode.Decimal

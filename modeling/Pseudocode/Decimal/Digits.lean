/-!
Decimal digits: the numerals of naturals and integers, and the values of digit
sequences.
-/

namespace Pseudocode.Decimal

/-- The decimal digits of a natural number, without leading zeros. -/
def digits (n : Nat) : List Char := Nat.toDigits 10 n

/-- The number of decimal digits of a natural number. -/
def digitCount (n : Nat) : Nat := (digits n).length

/-- The decimal numeral of an integer. -/
def numeral (z : Int) : String :=
  String.ofList (if z < 0 then '-' :: digits z.natAbs else digits z.natAbs)

def digitValue (c : Char) : Nat := c.toNat - '0'.toNat

/-- The value of a sequence of decimal digits. -/
def value (ds : List Char) : Nat := ds.foldl (fun n c => 10 * n + digitValue c) 0

/-- The value of a sequence of decimal digits, unless more than `limit` of them
are left without the leading zeros. -/
def valueWithin? (limit : Nat) (ds : List Char) : Option Nat :=
  let significant := ds.dropWhile (· == '0')
  if significant.length ≤ limit then some (value significant) else none

/-- A decimal digit. -/
def isDigit (c : Char) : Bool := '0' ≤ c && c ≤ '9'

/-- A non-empty sequence of decimal digits. -/
def isDigits (cs : List Char) : Bool := !cs.isEmpty && cs.all isDigit

/-- Splits an optional sign from what follows it. -/
def splitSign : List Char → Bool × List Char
  | '-' :: cs => (true, cs)
  | '+' :: cs => (false, cs)
  | cs => (false, cs)

end Pseudocode.Decimal

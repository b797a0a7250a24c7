import Pseudocode.Binary64.Basic
import Pseudocode.Decimal.Digits

/-!
Reading decimal text as a double.

A numeral is an optional sign, digits with at most one decimal point among or
beside them, and an optional exponent. The result is the double nearest to the
number written, a tie going to the even mantissa.
-/

namespace Pseudocode.Decimal

/-- A written number: digits before and after the point, and the exponent. -/
structure Numeral where
  whole : List Char
  fraction : List Char
  exponent : Int
  deriving DecidableEq, Repr

/-- The digits of an exponent count up to the one that brings it to this value. -/
def exponentBound : Nat := 65536

/-- The value of the digits of an exponent. -/
def exponentValue (ds : List Char) : Nat :=
  ds.foldl (fun n c => if n < exponentBound then 10 * n + digitValue c else n) 0

/-- The exponent part of a numeral: nothing, or a mark, an optional sign and
digits. -/
def parseExponent? : List Char → Option Int
  | [] => some 0
  | c :: cs =>
      if c = 'e' || c = 'E' then
        let (negative, ds) := splitSign cs
        if isDigits ds then some (if negative then -(exponentValue ds : Int) else exponentValue ds)
        else none
      else none

/-- Digits, an optional point with digits, an optional exponent; at least one
digit stands before the exponent. -/
def parseNumeral? (cs : List Char) : Option Numeral :=
  let whole := cs.takeWhile isDigit
  let rest := cs.dropWhile isDigit
  let (fraction, tail) := match rest with
    | '.' :: after => (after.takeWhile isDigit, after.dropWhile isDigit)
    | _ => ([], rest)
  if whole.isEmpty && fraction.isEmpty then none
  else (parseExponent? tail).map fun exponent => ⟨whole, fraction, exponent⟩

/-- The double nearest to `digits * 10 ^ exponent`. Numbers beyond `10 ^ 400` or
below `10 ^ -400` are decided by their size alone. -/
def nearestDouble (negative : Bool) (digits : Nat) (exponent : Int) : Float :=
  let size : Int := digitCount digits + exponent
  if digits = 0 || size < -400 then Binary64.pack negative 0 Binary64.leastExponent
  else if 400 < size then Binary64.pack negative 0 4000
  else Binary64.ofRatio negative (digits * tenPow exponent.toNat) (tenPow (-exponent).toNat)

/-- A double has at most 767 significant digits, and the middle between two
neighbours at most 768. Of the digits after this many it matters only whether
one of them is not zero. -/
def decisiveDigits : Nat := 800

/-- The double nearest to a numeral. -/
def Numeral.toDouble (negative : Bool) (n : Numeral) : Float :=
  let ds := (n.whole ++ n.fraction).dropWhile (· == '0')
  let kept := ds.take decisiveDigits
  let lost := ds.drop decisiveDigits
  let exponent := n.exponent - n.fraction.length + lost.length
  if lost.all (· == '0') then nearestDouble negative (value kept) exponent
  else nearestDouble negative (value (kept ++ ['1'])) (exponent - 1)

/-- The words for numbers that are not finite, in lower case. -/
def specialDouble? (negative : Bool) (word : String) : Option Float :=
  if word = "inf" || word = "infinity" then some (Binary64.pack negative 0 4000)
  else if word = "nan" then some Binary64.nan
  else none

/-- Reads a numeral with an optional sign, or one of the words `inf`, `infinity`
and `nan` in any case, as a double. -/
def parseDouble? (cs : List Char) : Option Float :=
  let (negative, rest) := splitSign cs
  match parseNumeral? rest with
  | some n => some (n.toDouble negative)
  | none => specialDouble? negative (String.ofList (rest.map Char.toLower))

end Pseudocode.Decimal

import Pseudocode.Binary64.Integral
import Pseudocode.Decimal.Shortest

/-!
Layouts of doubles as text.

`floatText` is how the language writes a float: whole numbers below `10 ^ 16`
with one decimal, everything else in the fewest digits that read back,
positional, never with an exponent, the upper one of two that are as near.
`documentText?` is how documents write one: always with a decimal point or an
exponent, which has a sign, the even one of two that are as near.
-/

namespace Pseudocode.Decimal

/-- The digits `ds` with the decimal point after the first `point` of them,
padded with zeros on the side that needs it. -/
def positional (ds : List Char) (point : Int) : List Char :=
  if point ≤ 0 then ['0', '.'] ++ List.replicate (-point).toNat '0' ++ ds
  else if ds.length ≤ point.toNat then ds ++ List.replicate (point.toNat - ds.length) '0'
  else ds.take point.toNat ++ ['.'] ++ ds.drop point.toNat

def signed (negative : Bool) (cs : List Char) : String :=
  String.ofList (if negative then '-' :: cs else cs)

/-- Below this a whole float is written with one decimal. -/
def wholeBound : Nat := tenPow 16

/-- The text of a float in the language. -/
def floatText (x : Float) : String :=
  match Binary64.shape x with
  | .nan => "NaN"
  | .infinite negative => if negative then "-Infinity" else "Infinity"
  | .finite negative m e =>
      if Binary64.isWhole m e && Binary64.wholePart m e < wholeBound then
        signed negative (digits (Binary64.wholePart m e) ++ ['.', '0'])
      else
        let s := shortest .upper m e
        let ds := digits s.digits
        signed negative (positional ds (ds.length + s.exponent))

/-- The text of a number `digits * 10 ^ exponent` in a document: positional when
the decimal point falls not far from the digits, else with an exponent. -/
def documentLayout (s : Scientific) : List Char :=
  let ds := digits s.digits
  let point : Int := ds.length + s.exponent
  if 0 ≤ s.exponent && point ≤ 16 then positional ds point ++ ['.', '0']
  else if -5 < point && point ≤ 16 then positional ds point
  else
    let sign := if point < 1 then '-' else '+'
    let mark := 'e' :: sign :: digits (point - 1).natAbs
    match ds with
    | [d] => d :: mark
    | d :: rest => d :: '.' :: rest ++ mark
    | [] => mark

/-- The text of a float in a document; only finite ones have one. -/
def documentText? (x : Float) : Option String :=
  match Binary64.shape x with
  | .finite negative m e =>
      if m = 0 then some (signed negative ['0', '.', '0'])
      else some (signed negative (documentLayout (shortest .even m e)))
  | _ => none

end Pseudocode.Decimal

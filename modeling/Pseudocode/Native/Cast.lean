import Pseudocode.Machine
import Pseudocode.Binary64.Integral
import Pseudocode.Decimal.Layout
import Pseudocode.Decimal.Reading

/-!
Casts between integers, floats, texts and truth values.
-/

namespace Pseudocode.Native

/-- A number written in a text, white space around it ignored. -/
def parseFinite? (s : String) : Option Float :=
  match Decimal.parseDouble? (Text.trim s).toList with
  | none => none
  | some x =>
      match Binary64.shape x with
      | .finite .. => some x
      | _ => none

/-- The floor of a float. Up to `2 ^ 63` it is accepted, and that bound itself
gives the greatest integer. -/
def floorToInteger (x : Float) : Except Cause Value :=
  match Binary64.floor? x with
  | some z =>
      if Integer.least ≤ z ∧ z ≤ Integer.greatest + 1 then
        .ok (.integer (Int64.ofInt (if z ≤ Integer.greatest then z else Integer.greatest)))
      else .error (.misuse (.outOfIntegerRange (Decimal.floatText x)))
  | none => .error (.misuse (.outOfIntegerRange (Decimal.floatText x)))

def toInteger : Value → Except Cause Value
  | .integer n => .ok (.integer n)
  | .float x => floorToInteger x
  | .boolean b => .ok (.integer (if b then 1 else 0))
  | .text s =>
      match Integer.parse? (Text.trim s).toList with
      | some n => .ok (.integer n)
      | none =>
          match parseFinite? s with
          | some x => floorToInteger x
          | none => .error (.typeProblem (.textToInteger s))
  | other => .error (.typeProblem (.cast other.kind "integer"))

def toFloat : Value → Except Cause Value
  | .integer n => .ok (.float (Binary64.ofInt n.toInt))
  | .float x => .ok (.float x)
  | .boolean b => .ok (.float (if b then 1.0 else 0.0))
  | .text s =>
      match parseFinite? s with
      | some x => .ok (.float x)
      | none => .error (.typeProblem (.textToFloat s))
  | other => .error (.typeProblem (.cast other.kind "float"))

def toText : Value → Except Cause Value
  | .text s => .ok (.text s)
  | .integer n => .ok (.text (Integer.text n))
  | .float x => .ok (.text (Decimal.floatText x))
  | .boolean b => .ok (.text (if b then "true" else "false"))
  | .null => .ok (.text "null")
  | other => .error (.typeProblem (.cast other.kind "string"))

end Pseudocode.Native

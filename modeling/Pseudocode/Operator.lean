import Pseudocode.Binary64.Integral
import Pseudocode.Value.Equality

/-!
Operators on values.

Integer arithmetic is exact or refused; `/` always gives a float. An operation
on an integer and a float is done on floats.
-/

namespace Pseudocode

namespace Operator

/-! ### Arithmetic -/

section Arithmetic

/- The power of two floats. -/
variable (pow : Float → Float → Float)

/-- An integer to a negative power goes through floats. It is an integer when the float is
a whole number that an integer can be. -/
def reciprocalPower (a b : Int64) : Value :=
  let power := pow (Binary64.ofInt a.toInt) (Binary64.ofInt b.toInt)
  if Binary64.fract power == 0.0 && power.abs < Binary64.ofInt Integer.greatest then
    .integer (Binary64.toWord power)
  else .float power

/-- Arithmetic on floats. -/
def floatArithmetic (op : BinaryOp) (a b : Float) : Except Cause Value :=
  match op with
  | .add => .ok (.float (a + b))
  | .sub => .ok (.float (a - b))
  | .mul => .ok (.float (a * b))
  | .div => if b == 0.0 then .error .divisionByZero else .ok (.float (a / b))
  | .intDiv => if b == 0.0 then .error .divisionByZero else .ok (.float (Binary64.trunc (a / b)))
  | .mod => if b == 0.0 then .error .divisionByZero else .ok (.float (Binary64.remainder a b))
  | .pow => .ok (.float (pow a b))
  | _ => .error (.misuse (.notArithmetic op))

/-- An exact integer result, or the refusal of one that does not fit. -/
def exact (op : BinaryOp) : Option Int64 → Except Cause Value
  | some n => .ok (.integer n)
  | none => .error (.misuse (.overflow op))

/-- Arithmetic on integers. -/
def integerArithmetic (op : BinaryOp) (a b : Int64) : Except Cause Value :=
  match op with
  | .add => exact op (Integer.add? a b)
  | .sub => exact op (Integer.sub? a b)
  | .mul => exact op (Integer.mul? a b)
  | .div => floatArithmetic pow op (Binary64.ofInt a.toInt) (Binary64.ofInt b.toInt)
  | .intDiv => if b.toInt = 0 then .error .divisionByZero else exact op (Integer.div? a b)
  | .mod => if b.toInt = 0 then .error .divisionByZero else exact op (Integer.mod? a b)
  | .pow =>
      if b.toInt < 0 then .ok (reciprocalPower pow a b)
      else exact op (Integer.pow? a b.toInt.toNat)
  | _ => exact op none

/-- `+`, `-`, `*`, `/`, `DIV`, `MOD` and `^`; texts can be added. -/
def arithmetic (op : BinaryOp) (left right : Value) : Except Cause Value :=
  match left, right with
  | .integer a, .integer b => integerArithmetic pow op a b
  | .text a, .text b =>
      if op = .add then .ok (.text (a ++ b))
      else .error (.typeProblem (.unsupported op left.kind right.kind))
  | _, _ =>
      match left.toFloat?, right.toFloat? with
      | some a, some b => floatArithmetic pow op a b
      | _, _ => .error (.typeProblem (.unsupported op left.kind right.kind))

end Arithmetic

/-! ### Comparison -/

/-- The order of two floats; there is none when one is not a number. -/
def compareFloats (a b : Float) : Option Ordering :=
  if a < b then some .lt
  else if b < a then some .gt
  else if a == b then some .eq
  else none

/-- The order of two numbers or two texts. -/
def order (op : BinaryOp) (left right : Value) : Except Cause (Option Ordering) :=
  match left, right with
  | .integer a, .integer b => .ok (some (compare a.toInt b.toInt))
  | .text a, .text b => .ok (some (compare a b))
  | _, _ =>
      match left.toFloat?, right.toFloat? with
      | some a, some b => .ok (compareFloats a b)
      | _, _ => .error (.typeProblem (.incomparable op left.kind right.kind))

/-- A comparison holds for some orders. -/
def holds (op : BinaryOp) : Option Ordering → Bool
  | none => false
  | some o =>
      match op with
      | .greater => o == .gt
      | .less => o == .lt
      | .greaterEq => o != .lt
      | _ => o != .gt

/-! ### All operators -/

def logical (op : BinaryOp) (left right : Value) : Except Cause Value :=
  match left, right with
  | .boolean a, .boolean b => .ok (.boolean (if op = .and then a && b else a || b))
  | _, _ => .error (.typeProblem (.unsupported op left.kind right.kind))

/-- The value of a binary operator, for a power of floats. -/
def binaryWith (pow : Float → Float → Float) (h : Heap) (op : BinaryOp) (left right : Value) :
    Except Cause Value :=
  match op with
  | .eq => .ok (.boolean (h.valuesEqual left right))
  | .notEq => .ok (.boolean (!h.valuesEqual left right))
  | .greater | .less | .greaterEq | .lessEq =>
      (order op left right).map fun o => .boolean (holds op o)
  | .and | .or => logical op left right
  | .add | .sub | .mul | .div | .intDiv | .mod | .pow => arithmetic pow op left right

/-- The value of a binary operator. -/
def binary : Heap → BinaryOp → Value → Value → Except Cause Value := binaryWith Float.pow

/-- The value of a unary operator. -/
def unary (h : Heap) (op : UnaryOp) (v : Value) : Except Cause Value :=
  match op, v with
  | .not, _ => .ok (.boolean (!v.truthy h))
  | .plus, .integer _ => .ok v
  | .plus, .float _ => .ok v
  | .neg, .integer n =>
      match Integer.neg? n with
      | some m => .ok (.integer m)
      | none => .error (.misuse .negationOverflow)
  | .neg, .float x => .ok (.float (-x))
  | _, _ => .error (.typeProblem (.unaryOperand op v.kind))

end Operator

end Pseudocode

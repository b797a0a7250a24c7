import Pseudocode.Machine
import Pseudocode.Text.Case

/-!
Operations on texts and on sequences by position: indexing, slicing, and the
members of texts.
-/

namespace Pseudocode

namespace Slice

/-- The bounds of a slice in a sequence of the given length, both inside it and
in order. -/
def bounds (start stop : Int64) (length : Nat) : Except Cause (Nat × Nat) :=
  if start.toInt < 0 then .error (.indexOutOfBounds start length)
  else if stop.toInt < 0 ∨ (length : Int) < stop.toInt then .error (.indexOutOfBounds stop length)
  else if stop.toInt < start.toInt then .error (.misuse (.sliceOrder start stop))
  else .ok (start.toInt.toNat, stop.toInt.toNat)

/-- The elements from `start` up to, not including, `stop`. -/
def take {α : Type} (start stop : Nat) (xs : List α) : List α := (xs.drop start).take (stop - start)

/-- The characters that a slice of a text consists of. -/
def ofText (s : String) (start stop : Int64) : Except Cause String :=
  (bounds start stop s.length).map fun (i, j) => String.ofList (take i j s.toList)

/-- The character of a text at a position. -/
def charAt (s : String) (index : Int64) : Except Cause String :=
  let length := s.length
  match (Heap.position? index length).bind (s.toList[·]?) with
  | some c => .ok (String.singleton c)
  | none => .error (.indexOutOfBounds index length)

/-- The element of an array at a position. -/
def elementAt (items : Array Value) (index : Int64) : Except Cause Value :=
  match (Heap.position? index items.size).bind (items[·]?) with
  | some v => .ok v
  | none => .error (.indexOutOfBounds index items.size)

/-- The elements that a slice of an array consists of. -/
def ofArray (items : Array Value) (start stop : Int64) : Except Cause (Array Value) :=
  (bounds start stop items.size).map fun (i, j) => items.extract i j

end Slice

namespace Action

/-- An element, character or slice of a value. A slice is a copy. -/
def index (object i : Value) : Action Value :=
  match object, i with
  | .array a, .integer n => tryOfHeap fun h => Slice.elementAt (h.items a) n
  | .text s, .integer n => ofExcept ((Slice.charAt s n).map .text)
  | .array a, .range start stop => do
      let items ← tryOfHeap fun h => Slice.ofArray (h.items a) start stop
      newArray items
  | .text s, .range start stop => ofExcept ((Slice.ofText s start stop).map .text)
  | .array _, other => fail (.typeProblem (.badIndex .array other.kind))
  | .text _, other => fail (.typeProblem (.badIndex .text other.kind))
  | other, _ => fail (.typeProblem (.notIndexable other.kind))

end Action

namespace Native

/-- The argument of a function that takes texts only. -/
def textArgument (native : String) : Value → Except Cause String
  | .text s => .ok s
  | other => .error (.typeProblem (.needsText native other.kind))

/-- The number of characters of a text. -/
def length (receiver : Value) : Except Cause Value :=
  (textArgument "length" receiver).map fun s => .integer (Int64.ofNat s.length)

/-- The sum of two words; the greatest word when it does not fit. -/
def saturatingAdd (a b : Int64) : Int64 :=
  (Integer.add? a b).getD (Int64.ofInt Integer.greatest)

/-- A number of characters from a position on. The end past the text is what is
reported when there are too few. -/
def substring (receiver : Value) (start count : Value) : Except Cause Value :=
  match start, count with
  | .integer start, .integer count => do
      let s ← textArgument "substring" receiver
      let total := s.length
      let stop := saturatingAdd start count
      if start.toInt < 0 ∨ (total : Int) < start.toInt then .error (.indexOutOfBounds start total)
      else if count.toInt < 0 ∨ (total : Int) < stop.toInt then .error (.indexOutOfBounds stop total)
      else .ok (.text (String.ofList ((s.toList.drop start.toInt.toNat).take count.toInt.toNat)))
  | _, _ => .error (.typeProblem .substringArguments)

end Native

end Pseudocode

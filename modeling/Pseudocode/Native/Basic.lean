import Pseudocode.Native.Cast
import Pseudocode.Native.File
import Pseudocode.Native.Text
import Pseudocode.Value.Render

/-!
The built-in functions and the members of built-in kinds of values.
-/

namespace Pseudocode

namespace Action

/-! ### Functions -/

/-- Writes the arguments as one line of output, with spaces between them. -/
def printWith (text : Heap → Value → String) (args : List Value) : Action Value := do
  let line ← ofHeap fun h => " ".intercalate (args.map (text h))
  log line
  return .null

/-- Asks for an answer. -/
def requestInput (prompt : String) : Action Value := do
  match ← changeWorld fun w => w.request prompt with
  | .ok answer => return .text answer
  | .error reason => fail (.misuse (.inputFailed reason))

def input : List Value → Action Value
  | [] => requestInput ""
  | [.text prompt] => requestInput prompt
  | [other] => fail (.typeProblem (.prompt other.kind))
  | args => fail (.arity "input" 1 args.length)

def len : Value → Action Value
  | .array a => ofHeap fun h => .integer (Int64.ofNat (h.items a).size)
  | other => fail (.typeProblem (.lenArgument other.kind))

/-- An integer from `first` to `last`, both included. -/
def randomInteger (first last : Int64) : Action Value := do
  if last.toInt < first.toInt then fail (.misuse .randomOrder)
  else
    let n ← drawInteger first last
    return .integer n

/-- A float from `first` up to, not including, `last`. -/
def randomFloat (first last : Float) : Action Value := do
  if last < first then fail (.misuse .randomOrder)
  else if first == last then return .float first
  else
    let x ← drawFloat first last
    return .float x

def random : Value → Value → Action Value
  | .integer first, .integer last => randomInteger first last
  | .float first, .float last => randomFloat first last
  | first, last => fail (.typeProblem (.randomBounds first.kind last.kind))

/-- A function of one argument. -/
def unaryFunction (f : NativeFunction) (args : List Value) (run : Value → Action Value) :
    Action Value :=
  match args with
  | [v] => run v
  | _ => fail (.arity f.name 1 args.length)

/-- A function of one text. -/
def textFunction (f : NativeFunction) (args : List Value) (run : String → Action Value) :
    Action Value :=
  unaryFunction f args fun v => do
    let s ← ofExcept (Native.textArgument f.name v)
    run s

/-- Calls a built-in function. -/
def callNative (f : NativeFunction) (args : List Value) : Action Value :=
  match f with
  | .print => printWith Heap.display args
  | .printRaw => printWith Heap.raw args
  | .input => input args
  | .int => unaryFunction f args fun v => ofExcept (Native.toInteger v)
  | .float => unaryFunction f args fun v => ofExcept (Native.toFloat v)
  | .str => unaryFunction f args fun v => ofExcept (Native.toText v)
  | .len => unaryFunction f args len
  | .upper => textFunction f args fun s => pure (.text (Text.upper s))
  | .lower => textFunction f args fun s => pure (.text (Text.lower s))
  | .openRead => textFunction f args openReader
  | .openWrite => textFunction f args openWriter
  | .newFile => textFunction f args fun path => do
      saveFile path ""
      return .null
  | .random =>
      match args with
      | [first, last] => random first last
      | _ => fail (.arity f.name 2 args.length)

/-! ### Members -/

/-- A method without arguments. -/
def plainMethod (m : NativeMethod) (args : List Value) (run : Action Value) : Action Value :=
  match args with
  | [] => run
  | _ => fail (.arity m.name 0 args.length)

/-- Calls a built-in method on a value. -/
def callMethod (m : NativeMethod) (receiver : Value) (args : List Value) : Action Value :=
  match m with
  | .substring =>
      match args with
      | [start, count] => ofExcept (Native.substring receiver start count)
      | _ => fail (.arity m.name 2 args.length)
  | .readLine => plainMethod m args (readLine receiver)
  | .endOfFile => plainMethod m args (endOfFile receiver)
  | .closeReader => plainMethod m args (closeReader receiver)
  | .writeLine =>
      match args with
      | [line] => writeLine receiver line
      | _ => fail (.arity m.name 1 args.length)
  | .closeWriter => plainMethod m args (closeWriter receiver)

end Action

namespace Native

/-- The members of a kind of value, by name. -/
def membersOf : ValueKind → List (String × Value)
  | .text => [("length", .nativeGetter .length), ("substring", .nativeMethod .substring)]
  | .reader =>
      [("readLine", .nativeMethod .readLine), ("endOfFile", .nativeMethod .endOfFile),
       ("close", .nativeMethod .closeReader)]
  | .writer => [("writeLine", .nativeMethod .writeLine), ("close", .nativeMethod .closeWriter)]
  | _ => []

/-- The built-in member of a value: a property or a method. -/
def member? (v : Value) (name : String) : Option Value := (membersOf v.kind).lookup name

/-- A built-in member as an expression sees it: a property gives its value, a
method is left to be called. -/
def member (v : Value) (name : String) : Except Cause Value :=
  match member? v name with
  | some (.nativeGetter .length) => length v
  | some method => .ok method
  | none => .error (.misuse (.kindHasNoMember v.kind name))

end Native

end Pseudocode

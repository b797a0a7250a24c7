import Pseudocode.Binary64.Basic
import Pseudocode.Integer

/-!
Values of the language.

Scalars are values by themselves. Arrays, routines, classes, objects and open
files are references to a store (`Pseudocode.Heap`): two of them are the same
thing exactly when they are the same reference.
-/

namespace Pseudocode

abbrev ScopeId := Nat
abbrev ArrayId := Nat
abbrev RoutineId := Nat
abbrev ClassId := Nat
abbrev ObjectId := Nat
abbrev ReaderId := Nat
abbrev WriterId := Nat

/-! ### Built-in operations as values -/

/-- The functions that every program finds in its outermost scope. -/
inductive NativeFunction where
  | print | printRaw | input
  | int | float | str | len
  | upper | lower
  | openRead | openWrite | newFile
  | random
  deriving DecidableEq, Repr

/-- The operations that belong to values of one kind and are called on them. -/
inductive NativeMethod where
  | substring
  | readLine | endOfFile | closeReader
  | writeLine | closeWriter
  deriving DecidableEq, Repr

/-- The properties that values of one kind have. -/
inductive NativeGetter where
  | length
  deriving DecidableEq, Repr

namespace NativeFunction

/-- All of them, in the order in which the outermost scope lists them. -/
def all : List NativeFunction :=
  [.print, .printRaw, .input, .int, .float, .str, .len, .upper, .lower, .openRead, .openWrite,
   .newFile, .random]

def name : NativeFunction → String
  | print => "print" | printRaw => "printRaw" | input => "input"
  | int => "int" | float => "float" | str => "str" | len => "len"
  | upper => "upper" | lower => "lower"
  | openRead => "openRead" | openWrite => "openWrite" | newFile => "newFile"
  | random => "random"

end NativeFunction

/-- Readers and writers are closed under one name. -/
def NativeMethod.name : NativeMethod → String
  | substring => "substring"
  | readLine => "readLine" | endOfFile => "endOfFile" | closeReader => "close"
  | writeLine => "writeLine" | closeWriter => "close"

def NativeGetter.name : NativeGetter → String
  | length => "length"

/-! ### Values -/

inductive Value where
  | null
  | integer (n : Int64)
  | float (x : Float)
  | boolean (b : Bool)
  | text (s : String)
  | array (id : ArrayId)
  /-- The integers from `start` up to, not including, `stop`. -/
  | range (start stop : Int64)
  | function (id : RoutineId)
  | procedure (id : RoutineId)
  | classRef (id : ClassId)
  | object (id : ObjectId)
  | reader (id : ReaderId)
  | writer (id : WriterId)
  | nativeFunction (f : NativeFunction)
  | nativeMethod (m : NativeMethod)
  | nativeGetter (g : NativeGetter)
  deriving Inhabited

/-- What a value is. -/
inductive ValueKind where
  | null | integer | float | boolean | text | array | range | function | procedure | classRef
  | object | reader | writer | nativeFunction | nativeMethod | nativeGetter
  deriving DecidableEq, Repr

/-- The name of a kind of value in the language. -/
def ValueKind.name : ValueKind → String
  | null => "null" | integer => "integer" | float => "float" | boolean => "boolean"
  | text => "string" | array => "array" | range => "range" | function => "function"
  | procedure => "procedure" | classRef => "class" | object => "instance"
  | reader => "file-reader" | writer => "file-writer" | nativeFunction => "native-function"
  | nativeMethod => "native-method" | nativeGetter => "native-getter"

namespace Value

def kind : Value → ValueKind
  | null => .null | integer _ => .integer | float _ => .float | boolean _ => .boolean
  | text _ => .text | array _ => .array | range .. => .range | function _ => .function
  | procedure _ => .procedure | classRef _ => .classRef | object _ => .object
  | reader _ => .reader | writer _ => .writer | nativeFunction _ => .nativeFunction
  | nativeMethod _ => .nativeMethod | nativeGetter _ => .nativeGetter

/-- A number as a float; integers become the nearest one. -/
def toFloat? : Value → Option Float
  | integer n => some (Binary64.ofInt n.toInt)
  | float x => some x
  | _ => none

/-- The number of an integer; floats are not rounded. -/
def toInteger? : Value → Option Int64
  | integer n => some n
  | _ => none

/-- The same value: equal scalars, one reference, or built-ins of one name.
A float that is not a number is not the same as itself. -/
def same : Value → Value → Bool
  | null, null => true
  | integer a, integer b => a == b
  | float a, float b => a == b
  | boolean a, boolean b => a == b
  | text a, text b => a == b
  | array a, array b => a == b
  | range a b, range c d => a == c && b == d
  | function a, function b => a == b
  | procedure a, procedure b => a == b
  | classRef a, classRef b => a == b
  | object a, object b => a == b
  | reader a, reader b => a == b
  | writer a, writer b => a == b
  | nativeFunction a, nativeFunction b => a.name == b.name
  | nativeMethod a, nativeMethod b => a.name == b.name
  | nativeGetter a, nativeGetter b => a.name == b.name
  | _, _ => false

end Value

end Pseudocode

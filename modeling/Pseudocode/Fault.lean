import Pseudocode.Program.Basic
import Pseudocode.Value.Basic

/-!
Faults: why a running program stops, and where.

Each cause is a constructor; its wording is given by one function.
-/

namespace Pseudocode

/-- A value of the wrong kind was used. -/
inductive TypeProblem where
  | unsupported (op : BinaryOp) (left right : ValueKind)
  | incomparable (op : BinaryOp) (left right : ValueKind)
  | unaryOperand (op : UnaryOp) (found : ValueKind)
  | rangeBounds (first last : ValueKind)
  | dimension (found : ValueKind)
  | whileCondition (found : ValueKind)
  | untilCondition (found : ValueKind)
  | loopBound (found : ValueKind)
  | loopVariable (name : String) (found : ValueKind)
  | notAClass (found : ValueKind)
  | parentNotAClass (className parent : String) (found : ValueKind)
  | notIndexable (found : ValueKind)
  | variableNotIndexable (name : String) (found : ValueKind)
  | badIndex (container found : ValueKind)
  | badElementIndex (found : ValueKind)
  | needsText (native : String) (found : ValueKind)
  | substringArguments
  | cast (found : ValueKind) (target : String)
  | textToInteger (text : String)
  | textToFloat (text : String)
  | lenArgument (found : ValueKind)
  | prompt (found : ValueKind)
  | randomBounds (first last : ValueKind)
  | needsReader (found : ValueKind)
  | needsWriter (found : ValueKind)
  | writtenLine (found : ValueKind)
  deriving DecidableEq, Repr

/-- Something that cannot be done, whatever the kinds of the values. -/
inductive Misuse where
  | overflow (op : BinaryOp)
  | negationOverflow
  | notArithmetic (op : BinaryOp)
  | negativeDimension (size : Int64)
  | memberAssignment (field : String) (found : ValueKind)
  | textAssignment
  | invalidTarget
  | notCallableForm
  | methodWithoutValue (name : String)
  | callDepth (limit : Nat) (routine : String)
  | classHasNoMember (className member : String)
  | selfInheritance (className : String)
  | noMember (className member : String)
  | noAttribute (className member : String)
  | methodAssignment (member className : String)
  | kindHasNoMember (kind : ValueKind) (member : String)
  | sliceOrder (start stop : Int64)
  | outOfIntegerRange (numeral : String)
  | inputFailed (reason : String)
  | fileMissing (path : String)
  | writeFailed (reason : String)
  | readAfterClose
  | readPastEnd
  | closedTwice
  | writeAfterClose
  | randomOrder
  deriving DecidableEq, Repr

/-- Why a program stops. -/
inductive Cause where
  | undefinedVariable (name : String)
  | redeclaration (name : String)
  | typeProblem (problem : TypeProblem)
  | indexOutOfBounds (index : Int64) (length : Nat)
  | divisionByZero
  | arity (name : String) (expected found : Nat)
  | privateMember (member className : String)
  | loopLimit (limit : Nat)
  | notCallable (found : ValueKind)
  | returnOutsideFunction
  | misuse (problem : Misuse)
  deriving DecidableEq, Repr

/-- A cause and the place it belongs to, which may not be known yet. -/
structure Fault where
  cause : Cause
  span : Span
  deriving DecidableEq, Repr

namespace Fault

/-- A fault with no place yet. -/
def unplaced (cause : Cause) : Fault := ⟨cause, .unplaced⟩

/-- The fault at `span`, unless it already has a place. -/
def orAt (f : Fault) (span : Span) : Fault := { f with span := f.span.orElse span }

end Fault

/-! ### Wording -/

def TypeProblem.message : TypeProblem → String
  | unsupported op l r =>
      "operator `" ++ op.symbol ++ "` is not supported between " ++ l.name ++ " and " ++ r.name
  | incomparable op l r =>
      "cannot compare " ++ l.name ++ " with " ++ r.name ++ " using `" ++ op.symbol ++ "`"
  | unaryOperand op found => "unary `" ++ op.symbol ++ "` requires a number, found " ++ found.name
  | rangeBounds a b => "range bounds must be integers, found " ++ a.name ++ " and " ++ b.name
  | dimension found => "array dimensions must be integers, found " ++ found.name
  | whileCondition found => "while condition must be a boolean, found " ++ found.name
  | untilCondition found => "do-until condition must be a boolean, found " ++ found.name
  | loopBound found => "for loop bounds must be integers, found " ++ found.name
  | loopVariable name found =>
      "for loop variable `" ++ name ++ "` must stay an integer, found " ++ found.name
  | notAClass found => "`new` requires a class, found " ++ found.name
  | parentNotAClass className parent found =>
      "class `" ++ className ++ "` cannot inherit from `" ++ parent ++ "` of type " ++ found.name
  | notIndexable found => "cannot index into " ++ found.name
  | variableNotIndexable name found => "cannot index into " ++ name ++ " of type " ++ found.name
  | badIndex container found =>
      "only integers and ranges can index into " ++ container.name ++ ", found " ++ found.name
  | badElementIndex found =>
      "array elements can only be assigned through an integer index, found " ++ found.name
  | needsText native found => native ++ " requires a string, found " ++ found.name
  | substringArguments => "only integers can be used in the substring method"
  | cast found target => "type " ++ found.name ++ " cannot be cast to type " ++ target
  | textToInteger text => "string \"" ++ text ++ "\" cannot be cast to an integer"
  | textToFloat text => "string \"" ++ text ++ "\" cannot be cast to a float"
  | lenArgument found =>
      "len only works on arrays, found " ++ found.name ++ "; for strings use the .length member"
  | prompt found => "input prompt must be a string, found " ++ found.name
  | randomBounds a b =>
      "from and to parameters of random must both be integers or both be floats, found " ++ a.name
        ++ " and " ++ b.name
  | needsReader found => "expected a file-reader, found " ++ found.name
  | needsWriter found => "expected a file-writer, found " ++ found.name
  | writtenLine found => "only strings can be written to a file, found " ++ found.name

def Misuse.message : Misuse → String
  | overflow op => "integer overflow in `" ++ op.symbol ++ "`"
  | negationOverflow => "integer overflow in unary `-`"
  | notArithmetic op => "`" ++ op.symbol ++ "` is not arithmetic"
  | negativeDimension size => "array dimensions cannot be negative, found " ++ Integer.text size
  | memberAssignment field found => "cannot assign to member `" ++ field ++ "` of " ++ found.name
  | textAssignment => "strings cannot be modified in place"
  | invalidTarget => "invalid assignment target"
  | notCallableForm => "only names and members can be called"
  | methodWithoutValue name => "method `" ++ name ++ "` must be called on a value"
  | callDepth limit routine =>
      "maximum call depth of " ++ Decimal.numeral limit ++ " exceeded in `" ++ routine ++ "`"
  | classHasNoMember className member =>
      "class " ++ className ++ " has no member `" ++ member ++ "`; create an instance with `new`"
  | selfInheritance className => "class `" ++ className ++ "` cannot inherit from itself"
  | noMember className member => className ++ " instance has no member `" ++ member ++ "`"
  | noAttribute className member => className ++ " instance has no attribute `" ++ member ++ "`"
  | methodAssignment member className =>
      "cannot assign to method `" ++ member ++ "` of class " ++ className
  | kindHasNoMember kind member => kind.name ++ " has no member `" ++ member ++ "`"
  | sliceOrder start stop =>
      "slice start " ++ Integer.text start ++ " is after its end " ++ Integer.text stop
  | outOfIntegerRange numeral => numeral ++ " is out of range for an integer"
  | inputFailed reason => "failed to read input: " ++ reason
  | fileMissing path => "file \"" ++ path ++ "\" does not exist"
  | writeFailed reason => reason
  | readAfterClose => "cannot read from file after it has been closed"
  | readPastEnd => "cannot read past the end of the file"
  | closedTwice => "cannot close a closed file"
  | writeAfterClose => "cannot write lines to a file after it has been closed"
  | randomOrder => "random: `from` must not be greater than `to`"

/-- The cause in one sentence. -/
def Cause.message : Cause → String
  | undefinedVariable name => "Undefined variable: " ++ name
  | redeclaration name => "Cannot declare variable " ++ name ++ " as it already exists in this scope"
  | typeProblem problem => "Type error: " ++ problem.message
  | indexOutOfBounds index length =>
      "Index out of bounds: " ++ Integer.text index ++ " (length: " ++ Decimal.numeral length ++ ")"
  | divisionByZero => "Division by zero"
  | arity name expected found =>
      name ++ " expects " ++ Decimal.numeral expected ++ " argument(s) but got "
        ++ Decimal.numeral found
  | privateMember member className =>
      "Cannot access private member " ++ member ++ " of class " ++ className
  | loopLimit limit => "While loop exceeded " ++ Decimal.numeral limit ++ " iterations"
  | notCallable found => "Value of type " ++ found.name ++ " is not callable"
  | returnOutsideFunction => "Return outside function"
  | misuse problem => problem.message

def Fault.display (f : Fault) : String := "Runtime Error: " ++ f.cause.message

end Pseudocode

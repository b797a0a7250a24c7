import Pseudocode.Token.Basic
import Pseudocode.Decimal.Digits

/-!
Syntax errors: what was wrong with a text, where, and which other place helps
to understand it.
-/

namespace Pseudocode

/-- What is wrong with a text that is no program. -/
inductive SyntaxProblem where
  /-- A text literal is not closed. -/
  | unterminatedText
  /-- No lexeme starts with this character. -/
  | unrecognisedCharacter (c : Char)
  /-- The text cannot be split, and no character is to blame. -/
  | unexpectedInput
  /-- A symbol that is not in the vocabulary. -/
  | unrecognisedSymbol (text : String)
  /-- A number literal, as written, with more than one decimal point. -/
  | repeatedPoint (literal : String)
  | integerTooLarge (literal : String)
  | invalidFloat (literal : String)
  /-- A token of one kind was needed. -/
  | expectedToken (kind : TokenKind) (found : Token)
  | expectedExpression (found : Token)
  /-- A block is ended by something else than one of its closers. -/
  | unclosedBlock (closers : List Keyword) (found : Token)
  /-- A class member does not start with its visibility. -/
  | expectedVisibility (found : Token)
  | expectedMember (found : Token)
  | expectedCase (found : Token)
  | duplicateParameter (name routine : String)
  | duplicateMember (className name : String)
  | loopVariableMismatch (declared found : String)
  | invalidTarget
  /-- The reader gave up before the text ended. -/
  | exhausted
  deriving DecidableEq, Repr

/-- The closers of a block, as alternatives. -/
def alternatives (closers : List Keyword) : String :=
  " or ".intercalate (closers.map fun k => (TokenKind.keyword k).describe)

/-- The wording of a problem. -/
def SyntaxProblem.message : SyntaxProblem → String
  | unterminatedText => "unterminated string literal"
  | unrecognisedCharacter c =>
      "unrecognised character (" ++ Decimal.numeral c.toNat ++ "): " ++ String.singleton c
  | unexpectedInput => "unexpected input"
  | unrecognisedSymbol text => "unrecognised symbol `" ++ text ++ "`"
  | repeatedPoint literal => "multiple decimal points in number literal `" ++ literal ++ "`"
  | integerTooLarge literal => "integer literal `" ++ literal ++ "` is too large"
  | invalidFloat literal => "invalid float literal `" ++ literal ++ "`"
  | expectedToken kind found => "expected " ++ kind.describe ++ ", found " ++ found.describe
  | expectedExpression found => "expected an expression, found " ++ found.describe
  | unclosedBlock closers found =>
      if found.kind = .endOfInput then "expected " ++ alternatives closers ++ " before end of input"
      else "expected " ++ alternatives closers ++ ", found " ++ found.describe
  | expectedVisibility found =>
      "expected `public` or `private` before a class member, found " ++ found.describe
  | expectedMember found =>
      "expected an attribute name or a function/procedure, found " ++ found.describe
  | expectedCase found => "expected `case`, `default` or `endswitch`, found " ++ found.describe
  | duplicateParameter name routine => "duplicate parameter `" ++ name ++ "` in `" ++ routine ++ "`"
  | duplicateMember className name =>
      "class `" ++ className ++ "` declares `" ++ name ++ "` more than once"
  | loopVariableMismatch declared found =>
      "`next " ++ found ++ "` does not match the loop variable `" ++ declared ++ "`"
  | invalidTarget => "invalid assignment target: expected a variable, member or index"
  | exhausted => "the program is nested too deeply"

/-- What a second place has to do with an error. -/
inductive Remark where
  | blockStart (opener : TokenKind)
  | loopVariable
  deriving DecidableEq, Repr

def Remark.message : Remark → String
  | blockStart opener => opener.describe ++ " block starts here"
  | loopVariable => "loop variable declared here"

/-- A problem and its place. -/
structure SyntaxError where
  problem : SyntaxProblem
  span : Span
  line : Nat
  column : Nat
  secondary : Option (Span × Remark) := none
  deriving DecidableEq, Repr

namespace SyntaxError

def message (e : SyntaxError) : String := e.problem.message

/-- The error in one line, with its place. -/
def display (e : SyntaxError) : String :=
  "Syntax Error: " ++ e.message ++ " (line " ++ Decimal.numeral e.line ++ ", column "
    ++ Decimal.numeral e.column ++ ")"

/-- A problem at a token. -/
def at_ (problem : SyntaxProblem) (t : Token) : SyntaxError :=
  ⟨problem, t.span, t.line, t.column, none⟩

end SyntaxError

end Pseudocode

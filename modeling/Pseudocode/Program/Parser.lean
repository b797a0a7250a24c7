import Pseudocode.Program.Basic
import Pseudocode.Token.Lexer
import Pseudocode.Decimal.Reading
import Pseudocode.Integer

/-!
Reading tokens as a program.

The precedence ladder, from loose to tight: assignment, `to`, the six levels of
`ladder`, `NOT`, unary `+`, unary `-`, call and member suffixes, primary. Binary
levels associate to the left, assignment to the right, and `to` not at all.

Nested expressions and blocks are parameters of the parsers for single
constructs; `expression` and `block` tie the knot with a bound on the depth.
Every nesting consumes a token, so a bound above the number of tokens is never
met.
-/

namespace Pseudocode

/-- The token to be read next and those after it. The last one is the end of
input, which is never passed. -/
structure Cursor where
  next : Token
  rest : List Token

def Cursor.advance (c : Cursor) : Cursor :=
  match c.rest with
  | [] => c
  | t :: ts => ⟨t, ts⟩

/-- A reader of tokens that gives a result or a syntax error. -/
abbrev Parser := StateT Cursor (Except SyntaxError)

namespace Parser

/-! ### Single tokens -/

def peek : Parser Token := do return (← get).next

/-- Reads the next token, whatever it is. -/
def eat : Parser Token := do
  let c ← get
  set c.advance
  return c.next

def nextIs (kind : TokenKind) : Parser Bool := do return (← peek).kind == kind

/-- A problem with the next token. -/
def fail {α : Type} (problem : Token → SyntaxProblem) : Parser α := do
  let t ← peek
  throw (SyntaxError.at_ (problem t) t)

def exhausted {α : Type} : Parser α := fail fun _ => .exhausted

/-- Reads a token of the given kind. -/
def expect (kind : TokenKind) : Parser Token := do
  if ← nextIs kind then eat else fail (.expectedToken kind)

/-- Items with commas between them; at least one. -/
def commaSeparated {α : Type} (item : Parser α) : Nat → Parser (List α)
  | 0 => exhausted
  | bound + 1 => do
      let x ← item
      if ← nextIs (.symbol .comma) then
        let _ ← eat
        return x :: (← commaSeparated item bound)
      else return [x]

/-! ### Expressions

Each parser is given `sub`, which reads a nested expression of any form. -/

/-- Arguments in parentheses, and the span of the closing one. -/
def arguments (sub : Parser Expr) (bound : Nat) : Parser (List Expr × Span) := do
  let _ ← expect (.symbol .openParen)
  let args ← if ← nextIs (.symbol .closeParen) then pure [] else commaSeparated sub bound
  let close ← expect (.symbol .closeParen)
  return (args, close.span)

/-- A dotted name after the part read so far. -/
def dotted : Nat → Expr → Parser Expr
  | 0, _ => exhausted
  | bound + 1, e => do
      if ← nextIs (.symbol .dot) then
        let _ ← eat
        let field ← expect .identifier
        dotted bound (.member (e.span.merge field.span) e field.value)
      else return e

/-- `new Name(args)`, where the name may be dotted. -/
def creation (sub : Parser Expr) (bound : Nat) : Parser Expr := do
  let keyword ← eat
  let name ← expect .identifier
  let classExpr ← dotted bound (.identifier name.span name.value)
  let (args, close) ← arguments sub bound
  return .create (keyword.span.merge close) classExpr args

/-- An expression in parentheses: its span takes them in. -/
def parenthesised (sub : Parser Expr) : Parser Expr := do
  let opening ← eat
  let inner ← sub
  let close ← expect (.symbol .closeParen)
  return inner.withSpan (opening.span.merge close.span)

/-- The value of a literal or name, when the token is one. -/
def atom? (t : Token) : Option (Except SyntaxProblem Expr) :=
  match t.kind with
  | .identifier => some (.ok (.identifier t.span t.value))
  | .integer => some (match Integer.parse? t.value.toList with
      | some n => .ok (.integer t.span n)
      | none => .error (.integerTooLarge t.value))
  | .float => some (match Decimal.parseDouble? t.value.toList with
      | some x => .ok (.float t.span x)
      | none => .error (.invalidFloat t.value))
  | .text => some (.ok (.text t.span t.value))
  | .keyword .null => some (.ok (.null t.span))
  | _ => none

def primary (sub : Parser Expr) (bound : Nat) : Parser Expr := do
  let t ← peek
  match atom? t with
  | some (.ok e) =>
      let _ ← eat
      return e
  | some (.error problem) => fail fun _ => problem
  | none =>
      match t.kind with
      | .symbol .openParen => parenthesised sub
      | .keyword .new => creation sub bound
      | _ => fail .expectedExpression

/-- `.field`, `[i, j]` and `(args)` after an expression, in any order and number.
An index with commas is a chain of indices that share one span. -/
def suffixes (sub : Parser Expr) : Nat → Expr → Parser Expr
  | 0, _ => exhausted
  | bound + 1, e => do
      match (← peek).kind with
      | .symbol .dot =>
          let _ ← eat
          let field ← expect .identifier
          suffixes sub bound (.member (e.span.merge field.span) e field.value)
      | .symbol .openSquare =>
          let _ ← eat
          let indices ← commaSeparated sub bound
          let close ← expect (.symbol .closeSquare)
          let span := e.span.merge close.span
          suffixes sub bound (indices.foldl (fun object i => .index span object i) e)
      | .symbol .openParen =>
          let (args, close) ← arguments sub bound
          suffixes sub bound (.call (e.span.merge close) e args)
      | _ => return e

def callOrMember (sub : Parser Expr) (bound : Nat) : Parser Expr := do
  let e ← primary sub bound
  suffixes sub bound e

/-- The sign that a token is. -/
def sign? : TokenKind → Option UnaryOp
  | .symbol .plus => some .plus
  | .symbol .minus => some .neg
  | _ => none

/-- The signs `+` and `-` before an operand. -/
def signs (sub : Parser Expr) : Nat → Parser Expr
  | 0 => exhausted
  | bound + 1 => do
      match sign? (← peek).kind with
      | some op =>
          let operator ← eat
          let operand ← signs sub bound
          return .unary (operator.span.merge operand.span) op operand
      | none => callOrMember sub bound

/-- `NOT` or `!` before an operand. -/
def negation (sub : Parser Expr) : Nat → Parser Expr
  | 0 => exhausted
  | bound + 1 => do
      let t ← peek
      if t.kind == .keyword .not || t.kind == .symbol .bang then
        let operator ← eat
        let operand ← negation sub bound
        return .unary (operator.span.merge operand.span) .not operand
      else signs sub bound

/-- One level of binary operators of equal strength. -/
abbrev Level := List (TokenKind × BinaryOp)

/-- The levels of binary operators, the loosest first. -/
def ladder : List Level :=
  [[(.symbol .star, .mul), (.symbol .slash, .div), (.keyword .mod, .mod), (.keyword .div, .intDiv)],
   [(.symbol .plus, .add), (.symbol .minus, .sub)],
   [(.symbol .caret, .pow)],
   [(.keyword .or, .or)],
   [(.keyword .and, .and)],
   [(.symbol .equalEqual, .eq), (.symbol .notEqual, .notEq), (.symbol .greater, .greater),
    (.symbol .less, .less), (.symbol .greaterEqual, .greaterEq), (.symbol .lessEqual, .lessEq)]]

/-- Operators of one level after a left operand, associating to the left. -/
def chain (level : Level) (operand : Parser Expr) : Nat → Expr → Parser Expr
  | 0, _ => exhausted
  | bound + 1, left => do
      match level.lookup (← peek).kind with
      | none => return left
      | some op =>
          let _ ← eat
          let right ← operand
          chain level operand bound (.binary (left.span.merge right.span) op left right)

/-- An expression of the given levels or tighter ones. -/
def operators (sub : Parser Expr) (bound : Nat) : List Level → Parser Expr
  | [] => negation sub bound
  | level :: tighter => do
      let left ← operators sub bound tighter
      chain level (operators sub bound tighter) bound left

/-- Two bounds with `to` between them, or one expression. -/
def range (sub : Parser Expr) (bound : Nat) : Parser Expr := do
  let start ← operators sub bound ladder
  if ← nextIs (.keyword .to_) then
    let _ ← eat
    let stop ← operators sub bound ladder
    return .range (start.span.merge stop.span) start stop
  else return start

/-- An assignment, associating to the right, or an expression without one. -/
def assignment (sub : Parser Expr) : Nat → Parser Expr
  | 0 => exhausted
  | bound + 1 => do
      let target ← range sub bound
      if ← nextIs (.symbol .equals) then
        let equals ← eat
        if target.isTarget then
          let value ← assignment sub bound
          return .assign (target.span.merge value.span) target value
        else throw ⟨.invalidTarget, target.span, equals.line, equals.column, none⟩
      else return target

/-- An expression of any form. -/
def expression : Nat → Parser Expr
  | 0 => exhausted
  | bound + 1 => assignment (expression bound) (bound + 1)

/-- An expression that does not reach out for a `to` or `=` after it. -/
def bound (depth : Nat) : Parser Expr := operators (expression depth) depth ladder

/-! ### Statements

Each parser is given `block`, which reads the statements up to one of some
closing words and leaves that word to be read. -/

/-- Words that end some block, and the end of input: a block that meets one
which is not its own was closed wrongly, and a bare `return` stops there. -/
def endsBlock : TokenKind → Bool
  | .keyword k =>
      [Keyword.endFunction, .endProcedure, .endIf, .else_, .elseIf, .endWhile, .next, .until_,
       .endSwitch, .case, .default, .endClass].contains k
  | .endOfInput => true
  | _ => false

abbrev BlockParser := List Keyword → Token → Parser (List Stmt)

def declaration (depth : Nat) : Parser Stmt := do
  let keyword ← eat
  let name ← expect .identifier
  let _ ← expect (.symbol .equals)
  let value ← expression depth
  return .declare (keyword.span.merge value.span) name.value value

def arrayDeclaration (depth : Nat) : Parser Stmt := do
  let keyword ← eat
  let name ← expect .identifier
  let _ ← expect (.symbol .openSquare)
  let dimensions ← commaSeparated (expression depth) depth
  let close ← expect (.symbol .closeSquare)
  return .array (keyword.span.merge close.span) name.value dimensions

/-- Parameter names with commas between them, all different. -/
def parameters (routine : String) : Nat → List String → Parser (List String)
  | 0, _ => exhausted
  | bound + 1, earlier => do
      let name ← expect .identifier
      if earlier.contains name.value then
        throw (SyntaxError.at_ (.duplicateParameter name.value routine) name)
      else if ← nextIs (.symbol .comma) then
        let _ ← eat
        parameters routine bound (earlier ++ [name.value])
      else return earlier ++ [name.value]

/-- The name of a routine. A constructor is called `new`. -/
def routineName : Parser String := do
  if ← nextIs (.keyword .new) then return (← eat).value else return (← expect .identifier).value

def routine (block : BlockParser) (depth : Nat) : Parser RoutineDecl := do
  let keyword ← eat
  let (kind, closer) :=
    if keyword.kind = .keyword .function then (RoutineKind.function, Keyword.endFunction)
    else (.procedure, .endProcedure)
  let name ← routineName
  let _ ← expect (.symbol .openParen)
  let params ← if ← nextIs (.symbol .closeParen) then pure [] else parameters name depth []
  let _ ← expect (.symbol .closeParen)
  let body ← block [closer] keyword
  let close ← expect (.keyword closer)
  return ⟨kind, name, params, body, keyword.span.merge close.span⟩

/-- A class member after its visibility. -/
def member (block : BlockParser) (depth : Nat) (visibility : Visibility) (modifier : Token) :
    Parser Member := do
  match (← peek).kind with
  | .keyword .function | .keyword .procedure =>
      let decl ← routine block depth
      return .method visibility (modifier.span.merge decl.span) decl
  | .identifier =>
      let name ← eat
      return .field visibility (modifier.span.merge name.span) name.value
  | _ => fail .expectedMember

/-- The visibility that a token gives to a class member. -/
def visibility? : TokenKind → Option Visibility
  | .keyword .public_ => some .everywhere
  | .keyword .private_ => some .within
  | _ => none

/-- The members of a class up to its end, no two of one name. -/
def members (block : BlockParser) (depth : Nat) (keyword : Token) (className : String) :
    Nat → List Member → Parser (List Member)
  | 0, _ => exhausted
  | bound + 1, earlier => do
      let modifier ← peek
      match visibility? modifier.kind with
      | some visibility =>
          let _ ← eat
          let m ← member block depth visibility modifier
          if earlier.any fun e => e.name == m.name then
            throw ⟨.duplicateMember className m.name, m.span, modifier.line, modifier.column, none⟩
          else members block depth keyword className bound (earlier ++ [m])
      | none =>
          if modifier.kind == .keyword .endClass then return earlier
          else if modifier.kind == .endOfInput then
            throw { SyntaxError.at_ (.unclosedBlock [.endClass] modifier) modifier with
              secondary := some (keyword.span, .blockStart keyword.kind) }
          else fail .expectedVisibility

def classDeclaration (block : BlockParser) (depth : Nat) : Parser Stmt := do
  let keyword ← eat
  let name ← expect .identifier
  let parent ← if ← nextIs (.keyword .inherits) then do
      let _ ← eat
      let parent ← expect .identifier
      pure (some (parent.value, parent.span))
    else pure none
  let ms ← members block depth keyword name.value depth []
  let close ← expect (.keyword .endClass)
  return .classDecl ⟨name.value, parent, ms, keyword.span.merge close.span⟩

def returnStatement (depth : Nat) : Parser Stmt := do
  let keyword ← eat
  if endsBlock (← peek).kind then return .giveBack keyword.span none
  else
    let value ← expression depth
    return .giveBack (keyword.span.merge value.span) (some value)

/-- A conditional after its `if` or `elseif`. An `elseif` is a conditional by
itself as the only statement of the other branch, and the last one of a chain
reads the `endif`. -/
def conditional (block : BlockParser) (depth : Nat) : Nat → Token → Parser Stmt
  | 0, _ => exhausted
  | bound + 1, keyword => do
      let condition ← expression depth
      let _ ← expect (.keyword .then_)
      let yes ← block [.elseIf, .else_, .endIf] keyword
      match (← peek).kind with
      | .keyword .elseIf =>
          let again ← eat
          let inner ← conditional block depth bound again
          return .conditional condition yes (some [inner])
      | .keyword .else_ =>
          let otherwise ← eat
          let no ← block [.endIf] otherwise
          let _ ← expect (.keyword .endIf)
          return .conditional condition yes (some no)
      | _ =>
          let _ ← expect (.keyword .endIf)
          return .conditional condition yes none

/-- The arms of a switch up to and including its end. -/
def arms (block : BlockParser) (depth : Nat) (keyword : Token) :
    Nat → List Case → Parser (List Case)
  | 0, _ => exhausted
  | bound + 1, earlier => do
      let t ← peek
      match t.kind with
      | .keyword .case =>
          let opener ← eat
          let test ← expression depth
          let _ ← expect (.symbol .colon)
          let body ← block [.case, .default, .endSwitch] opener
          arms block depth keyword bound (earlier ++ [⟨some test, body⟩])
      | .keyword .default =>
          let opener ← eat
          let _ ← expect (.symbol .colon)
          let body ← block [.case, .default, .endSwitch] opener
          arms block depth keyword bound (earlier ++ [⟨none, body⟩])
      | .keyword .endSwitch =>
          let _ ← eat
          return earlier
      | .endOfInput =>
          throw { SyntaxError.at_ (.unclosedBlock [.endSwitch] t) t with
            secondary := some (keyword.span, .blockStart keyword.kind) }
      | _ => fail .expectedCase

def switchStatement (block : BlockParser) (depth : Nat) : Parser Stmt := do
  let keyword ← eat
  let subject ← expression depth
  let _ ← expect (.symbol .colon)
  let cases ← arms block depth keyword depth []
  return .switch subject cases

def countingLoop (block : BlockParser) (depth : Nat) : Parser Stmt := do
  let keyword ← eat
  let name ← expect .identifier
  let _ ← expect (.symbol .equals)
  let first ← bound depth
  let _ ← expect (.keyword .to_)
  let last ← bound depth
  let body ← block [.next] keyword
  let _ ← expect (.keyword .next)
  let again ← expect .identifier
  if again.value == name.value then
    return .count (keyword.span.merge again.span) name.value first last body
  else
    throw { SyntaxError.at_ (.loopVariableMismatch name.value again.value) again with
      secondary := some (name.span, .loopVariable) }

def whileLoop (block : BlockParser) (depth : Nat) : Parser Stmt := do
  let keyword ← eat
  let condition ← expression depth
  let body ← block [.endWhile] keyword
  let _ ← expect (.keyword .endWhile)
  return .whileLoop (keyword.span.merge condition.span) condition body

def untilLoop (block : BlockParser) (depth : Nat) : Parser Stmt := do
  let keyword ← eat
  let body ← block [.until_] keyword
  let _ ← expect (.keyword .until_)
  let condition ← expression depth
  return .untilLoop body condition

/-- One statement, given how its blocks are read. -/
def statement (block : BlockParser) (depth : Nat) : Parser Stmt := do
  match (← peek).kind with
  | .keyword .let_ => declaration depth
  | .keyword .array => arrayDeclaration depth
  | .keyword .function | .keyword .procedure => return .routine (← routine block depth)
  | .keyword .class_ => classDeclaration block depth
  | .keyword .return_ => returnStatement depth
  | .keyword .if_ => do
      let keyword ← eat
      conditional block depth depth keyword
  | .keyword .switch => switchStatement block depth
  | .keyword .for_ => countingLoop block depth
  | .keyword .while_ => whileLoop block depth
  | .keyword .do_ => untilLoop block depth
  | _ => return .expression (← expression depth)

/-- The statements up to one of the closing words. The opener is pointed out
when the block is not closed by one of them. -/
def block : Nat → BlockParser
  | 0, _, _ => exhausted
  | depth + 1, closers, opener => do
      let t ← peek
      if closers.any fun k => t.kind == .keyword k then return []
      else if endsBlock t.kind then
        throw { SyntaxError.at_ (.unclosedBlock closers t) t with
          secondary := some (opener.span, .blockStart opener.kind) }
      else
        let s ← statement (block depth) depth
        return s :: (← block depth closers opener)

/-- The statements up to the end of input. -/
def statements (depth : Nat) : Nat → Parser (List Stmt)
  | 0 => exhausted
  | bound + 1 => do
      if ← nextIs .endOfInput then return []
      else
        let s ← statement (block depth) depth
        return s :: (← statements depth bound)

end Parser

/-- Reads tokens, and the end of input after them, as a program. -/
def Program.ofTokens (ts : List Token) (stop : Token) : Except SyntaxError Program := do
  let depth := ts.length + 8
  let cursor : Cursor := match ts with
    | [] => ⟨stop, []⟩
    | t :: rest => ⟨t, rest ++ [stop]⟩
  let (body, _) ← (Parser.statements depth depth).run cursor
  return ⟨body⟩

/-- Reads a source text as a program. -/
def parse (source : String) : Except SyntaxError Program := do
  let (ts, stop) ← tokenizeChars source.toList
  Program.ofTokens ts (.endOfInput stop)

end Pseudocode

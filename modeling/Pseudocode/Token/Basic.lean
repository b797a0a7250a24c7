import Pseudocode.Text.Position
import Pseudocode.Text.Span

/-!
Tokens: the vocabulary of the language and its pieces of source text.

Reserved words and symbols are closed vocabularies with one spelling each;
`Keyword.ofText?` and `Symbol.ofText?` invert the spelling.
-/

namespace Pseudocode

/-! ### Reserved words -/

inductive Keyword where
  | let_ | array | null | mod | div | and | or | not
  | function | endFunction | procedure | endProcedure | return_
  | if_ | then_ | elseIf | else_ | endIf
  | switch | case | default | endSwitch
  | for_ | to_ | next | while_ | endWhile | do_ | until_
  | class_ | endClass | public_ | private_ | new | inherits
  deriving DecidableEq, Repr

namespace Keyword

/-- Every reserved word. -/
def all : List Keyword :=
  [.let_, .array, .null, .mod, .div, .and, .or, .not,
   .function, .endFunction, .procedure, .endProcedure, .return_,
   .if_, .then_, .elseIf, .else_, .endIf,
   .switch, .case, .default, .endSwitch,
   .for_, .to_, .next, .while_, .endWhile, .do_, .until_,
   .class_, .endClass, .public_, .private_, .new, .inherits]

/-- The spelling of a reserved word; letter case matters. -/
def text : Keyword → String
  | let_ => "let" | array => "array" | null => "null"
  | mod => "MOD" | div => "DIV" | and => "AND" | or => "OR" | not => "NOT"
  | function => "function" | endFunction => "endfunction"
  | procedure => "procedure" | endProcedure => "endprocedure" | return_ => "return"
  | if_ => "if" | then_ => "then" | elseIf => "elseif" | else_ => "else" | endIf => "endif"
  | switch => "switch" | case => "case" | default => "default" | endSwitch => "endswitch"
  | for_ => "for" | to_ => "to" | next => "next" | while_ => "while" | endWhile => "endwhile"
  | do_ => "do" | until_ => "until"
  | class_ => "class" | endClass => "endclass" | public_ => "public" | private_ => "private"
  | new => "new" | inherits => "inherits"

/-- The reserved word with a given spelling. -/
def ofText? (s : String) : Option Keyword := all.find? fun k => k.text == s

theorem mem_all (k : Keyword) : k ∈ all := by
  cases k <;> decide

@[simp] theorem ofText?_text (k : Keyword) : ofText? k.text = some k := by
  cases k <;> decide

theorem text_of_ofText? {s : String} {k : Keyword} (h : ofText? s = some k) : k.text = s := by
  simpa using List.find?_some h

end Keyword

/-! ### Symbols -/

inductive Symbol where
  | openParen | closeParen | openSquare | closeSquare | comma | dot | colon | equals
  | plus | minus | star | slash | caret | greater | less | bang
  | equalEqual | notEqual | greaterEqual | lessEqual
  deriving DecidableEq, Repr

namespace Symbol

/-- Every symbol. -/
def all : List Symbol :=
  [.openParen, .closeParen, .openSquare, .closeSquare, .comma, .dot, .colon, .equals,
   .plus, .minus, .star, .slash, .caret, .greater, .less, .bang,
   .equalEqual, .notEqual, .greaterEqual, .lessEqual]

def text : Symbol → String
  | openParen => "(" | closeParen => ")" | openSquare => "[" | closeSquare => "]"
  | comma => "," | dot => "." | colon => ":" | equals => "="
  | plus => "+" | minus => "-" | star => "*" | slash => "/" | caret => "^"
  | greater => ">" | less => "<" | bang => "!"
  | equalEqual => "==" | notEqual => "!=" | greaterEqual => ">=" | lessEqual => "<="

/-- The symbol with a given spelling. -/
def ofText? (s : String) : Option Symbol := all.find? fun k => k.text == s

theorem mem_all (k : Symbol) : k ∈ all := by
  cases k <;> decide

@[simp] theorem ofText?_text (k : Symbol) : ofText? k.text = some k := by
  cases k <;> decide

theorem text_of_ofText? {s : String} {k : Symbol} (h : ofText? s = some k) : k.text = s := by
  simpa using List.find?_some h

end Symbol

/-! ### Tokens -/

inductive TokenKind where
  | integer
  | float
  | text
  | identifier
  | keyword (k : Keyword)
  | symbol (s : Symbol)
  | endOfInput
  deriving DecidableEq, Repr

/-- How a kind of token is named in messages. -/
def TokenKind.describe : TokenKind → String
  | integer => "integer literal"
  | float => "float literal"
  | text => "string literal"
  | identifier => "identifier"
  | keyword k => "`" ++ k.text ++ "`"
  | symbol s => "`" ++ s.text ++ "`"
  | endOfInput => "end of input"

/-- A piece of source text. The value of a number leaves out its digit
separators, that of a text its quotes; any other value is the text itself. -/
structure Token where
  kind : TokenKind
  value : String
  span : Span
  line : Nat
  column : Nat
  deriving DecidableEq, Repr

namespace Token

/-- How a token that was met is named in messages. -/
def describe (t : Token) : String :=
  match t.kind with
  | .identifier => "identifier `" ++ t.value ++ "`"
  | .integer | .float => "number `" ++ t.value ++ "`"
  | .text => "string \"" ++ t.value ++ "\""
  | kind => kind.describe

/-- The token that ends every program, at the end of its text. -/
def endOfInput (p : Position) : Token :=
  ⟨.endOfInput, "EndOfFile", ⟨p.offset, p.offset⟩, p.line, p.column⟩

end Token

end Pseudocode

import Pseudocode.Token.Lexeme
import Pseudocode.SyntaxError

/-!
From source text to tokens.

`lexemes` splits a text by the lexeme grammar and places each lexeme;
`tokenize` classifies them. A text that the grammar does not cover to its end
is blamed on one character, which `firstUnlexable` finds by a walk over single
characters that knows nothing of lexemes.
-/

namespace Pseudocode

/-- A lexeme and where it starts. -/
structure PlacedLexeme where
  lexeme : Lexeme
  start : Position
  deriving DecidableEq, Repr

namespace PlacedLexeme

def span (l : PlacedLexeme) : Span :=
  ⟨l.start.offset, l.start.offset + byteLength l.lexeme.spelling⟩

/-- A syntax problem of the whole lexeme. -/
def blame (l : PlacedLexeme) (problem : SyntaxProblem) : SyntaxError :=
  ⟨problem, l.span, l.start.line, l.start.column, none⟩

/-- The token of a lexeme. A word just after a dot names a member and is never
reserved. -/
def token (afterDot : Bool) (l : PlacedLexeme) : Except SyntaxError Token :=
  let make (kind : TokenKind) (value : List Char) : Token :=
    ⟨kind, String.ofList value, l.span, l.start.line, l.start.column⟩
  match l.lexeme with
  | .word text =>
      match Keyword.ofText? (String.ofList text) with
      | some k => .ok (make (if afterDot then .identifier else .keyword k) text)
      | none => .ok (make .identifier text)
  | .number text =>
      if 1 < text.count '.' then .error (l.blame (.repeatedPoint (String.ofList text)))
      else .ok (make (if text.contains '.' then .float else .integer) (text.filter (· != '_')))
  | .quoted content => .ok (make .text content)
  | .symbol text =>
      match Symbol.ofText? (String.ofList text) with
      | some s => .ok (make (.symbol s) text)
      | none => .error (l.blame (.unrecognisedSymbol (String.ofList text)))

end PlacedLexeme

/-! ### The lexeme grammar -/

/-- The lexemes of a text from a position on, where they stop, and what is left
there. -/
def lexemesFrom : Nat → Position → List Char → List PlacedLexeme × Position × List Char
  | 0, p, cs => ([], p, cs)
  | fuel + 1, p, cs =>
      let (gap, rest) := Lexeme.splitGap false cs
      let start := p.after gap
      match Lexeme.first? rest with
      | none => ([], start, rest)
      | some (lexeme, tail) =>
          let (more, stop) := lexemesFrom fuel (start.after lexeme.spelling) tail
          (⟨lexeme, start⟩ :: more, stop)

/-- The lexemes of a text, where they stop, and what is left there. Every
lexeme has a character, so the length of the text bounds their number. -/
def lexemes (cs : List Char) : List PlacedLexeme × Position × List Char :=
  lexemesFrom (cs.length + 1) .first cs

/-! ### The walk over characters -/

/-- What the walk over characters is inside of. -/
inductive Inside where
  | nothing
  | comment
  | quotes
  deriving DecidableEq, Repr

/-- Characters that may stand outside comments and text literals. -/
def isLexable (c : Char) : Bool :=
  Lexeme.isSpace c || Lexeme.isLetter c || Decimal.isDigit c || c == '_' || Lexeme.isSymbol c

/-- The first character from a position on at which no lexeme can start. -/
def firstUnlexable : Inside → Position → List Char → Option (Position × Char)
  | _, _, [] => none
  | .comment, p, c :: cs =>
      firstUnlexable (if c = '\n' then .nothing else .comment) (p.next c) cs
  | .quotes, p, c :: cs =>
      firstUnlexable (if c = '"' then .nothing else .quotes) (p.next c) cs
  | .nothing, p, c :: cs =>
      if c == '/' && cs.head? == some '/' then firstUnlexable .comment (p.next c) cs
      else if c = '"' then
        if cs.contains '"' then firstUnlexable .quotes (p.next c) cs else some (p, c)
      else if isLexable c then firstUnlexable .nothing (p.next c) cs
      else some (p, c)

/-- The error for a text that the lexeme grammar leaves at `stop`. -/
def lexError (cs : List Char) (stop : Position) : SyntaxError :=
  match firstUnlexable .nothing .first cs with
  | some (p, c) =>
      ⟨if c = '"' then .unterminatedText else .unrecognisedCharacter c,
        ⟨p.offset, p.offset + c.utf8Size⟩, p.line, p.column, none⟩
  | none => ⟨.unexpectedInput, ⟨stop.offset, stop.offset + 1⟩, stop.line, stop.column, none⟩

/-! ### Tokens -/

/-- The tokens of placed lexemes; `afterDot` tells whether the token before them
is a dot. -/
def tokensOf : Bool → List PlacedLexeme → Except SyntaxError (List Token)
  | _, [] => .ok []
  | afterDot, l :: ls => do
      let t ← l.token afterDot
      let ts ← tokensOf (t.kind == .symbol .dot) ls
      return t :: ts

/-- The tokens of a text without the one that ends it, and where the text ends. -/
def tokenizeChars (cs : List Char) : Except SyntaxError (List Token × Position) :=
  let (placed, stop, rest) := lexemes cs
  if rest.isEmpty then (tokensOf false placed).map fun ts => (ts, stop)
  else .error (lexError cs stop)

/-- The tokens of a source text; the last one is the end of input. -/
def tokenize (source : String) : Except SyntaxError (List Token) :=
  (tokenizeChars source.toList).map fun (ts, stop) => ts ++ [Token.endOfInput stop]

end Pseudocode

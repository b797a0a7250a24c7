import Pseudocode.Decimal.Digits

/-!
Lexemes: the grammar of the smallest pieces of source text.

A text is a sequence of lexemes with gaps of blanks and comments before,
between and after them. Numbers and words are as long as possible, a symbol of
two characters wins over its first character, and a text literal runs to the
next quote.
-/

namespace Pseudocode

inductive Lexeme where
  | number (text : List Char)
  /-- The characters between the quotes. -/
  | quoted (content : List Char)
  | word (text : List Char)
  | symbol (text : List Char)
  deriving DecidableEq, Repr

namespace Lexeme

/-- The source text of a lexeme. -/
def spelling : Lexeme → List Char
  | number text => text
  | quoted content => '"' :: content ++ ['"']
  | word text => text
  | symbol text => text

/-! ### Character classes -/

/-- A digit or a separator: what may follow the first digit of a number. -/
def isNumberPart (c : Char) : Bool := Decimal.isDigit c || c == '.' || c == '_'

def isLetter (c : Char) : Bool := ('a' ≤ c && c ≤ 'z') || ('A' ≤ c && c ≤ 'Z')

def isWordStart (c : Char) : Bool := isLetter c || c == '_'

def isWordPart (c : Char) : Bool := isLetter c || Decimal.isDigit c || c == '_' || c == '-'

/-- A character that is a symbol by itself. -/
def isSymbol (c : Char) : Bool :=
  ['(', ')', '[', ']', ',', '.', ':', '=', '+', '-', '*', '/', '^', '>', '<', '!'].contains c

/-- A character that forms a symbol with an equals sign after it. -/
def takesEquals (c : Char) : Bool := ['=', '!', '>', '<'].contains c

/-- A character that separates lexemes. -/
def isSpace (c : Char) : Bool := c == ' ' || c == '\t' || c == '\r' || c == '\n'

/-! ### One lexeme -/

/-- The symbol that starts with `c`, and what follows it. -/
def symbol? (c : Char) (cs : List Char) : Option (Lexeme × List Char) :=
  match cs with
  | '=' :: rest =>
      if takesEquals c then some (.symbol [c, '='], rest)
      else if isSymbol c then some (.symbol [c], cs)
      else none
  | _ => if isSymbol c then some (.symbol [c], cs) else none

/-- The lexeme at the start of a text, and what follows it. -/
def first? : List Char → Option (Lexeme × List Char)
  | [] => none
  | c :: cs =>
      if Decimal.isDigit c then
        some (.number (c :: cs.takeWhile isNumberPart), cs.dropWhile isNumberPart)
      else if c = '"' then
        match cs.dropWhile (· != '"') with
        | [] => none
        | _ :: rest => some (.quoted (cs.takeWhile (· != '"')), rest)
      else if isWordStart c then
        some (.word (c :: cs.takeWhile isWordPart), cs.dropWhile isWordPart)
      else symbol? c cs

/-! ### Gaps -/

/-- Splits a text into the blanks and comments at its start and the rest. A
comment runs from two slashes up to the end of the line. -/
def splitGap (inComment : Bool) : List Char → List Char × List Char
  | [] => ([], [])
  | c :: cs =>
      if inComment then
        let (gap, rest) := splitGap (c != '\n') cs
        (c :: gap, rest)
      else if isSpace c then
        let (gap, rest) := splitGap false cs
        (c :: gap, rest)
      else if c == '/' && cs.head? == some '/' then
        let (gap, rest) := splitGap true cs
        (c :: gap, rest)
      else ([], c :: cs)

theorem splitGap_append (inComment : Bool) (cs : List Char) :
    (splitGap inComment cs).1 ++ (splitGap inComment cs).2 = cs := by
  induction cs generalizing inComment with
  | nil => rfl
  | cons c cs ih =>
      simp only [splitGap]
      split
      · simp [ih]
      · split
        · simp [ih]
        · split <;> simp [ih]

end Lexeme

end Pseudocode

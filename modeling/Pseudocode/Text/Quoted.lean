import Pseudocode.Text.HiddenTable
import Pseudocode.Text.Case

/-!
Quoted texts: a text between double quotes in which every character can be
seen. Quotes, backslashes and the usual controls have short escapes; other
characters without a shape of their own are written by their code point.
-/

namespace Pseudocode.Text

/-- A character with no visible shape of its own. -/
def isHidden (c : Char) : Bool := inRanges hiddenRanges c

/-- The lower case hexadecimal digits of a number. -/
def hexadecimal (n : Nat) : List Char := Nat.toDigits 16 n

/-- How one character is written between quotes. -/
def quoteChar (c : Char) : List Char :=
  if c = '"' then ['\\', '"']
  else if c = '\\' then ['\\', '\\']
  else if c = '\n' then ['\\', 'n']
  else if c = '\r' then ['\\', 'r']
  else if c = '\t' then ['\\', 't']
  else if c = '\x00' then ['\\', '0']
  else if isHidden c then ['\\', 'u', '\x7b'] ++ hexadecimal c.toNat ++ ['\x7d']
  else [c]

/-- The text between double quotes, with everything that cannot be seen escaped. -/
def quoted (s : String) : String :=
  String.ofList (['"'] ++ s.toList.flatMap quoteChar ++ ['"'])

end Pseudocode.Text

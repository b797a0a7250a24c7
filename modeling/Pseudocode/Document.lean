import Pseudocode.Decimal.Layout
import Pseudocode.Integer
import Pseudocode.Text.Quoted

/-!
Documents: trees of lists, keyed nodes and scalars, and their layout as text
with one item to a line.
-/

namespace Pseudocode

inductive Document where
  | null
  | boolean (value : Bool)
  | integer (value : Int64)
  | float (value : Float)
  | text (value : String)
  | list (items : List Document)
  /-- Keys with their values, the keys in alphabetical order. -/
  | node (fields : List (String × Document))

namespace Document

/-- A float that is not finite has no place in a document. -/
def ofFloat (x : Float) : Document :=
  match Binary64.shape x with
  | .finite .. => float x
  | _ => null

def ofOption {α : Type} (f : α → Document) : Option α → Document
  | none => null
  | some a => f a

/-! ### Layout -/

/-- How a character is written in a document's text. -/
def escapeChar (c : Char) : List Char :=
  if c = '"' then ['\\', '"']
  else if c = '\\' then ['\\', '\\']
  else if c = '\n' then ['\\', 'n']
  else if c = '\r' then ['\\', 'r']
  else if c = '\t' then ['\\', 't']
  else if c = '\x08' then ['\\', 'b']
  else if c = '\x0c' then ['\\', 'f']
  else if c.toNat < 0x20 then
    let digits := Text.hexadecimal c.toNat
    ['\\', 'u'] ++ List.replicate (4 - digits.length) '0' ++ digits
  else [c]

/-- A text between quotes. -/
def quote (s : String) : String :=
  String.ofList ('"' :: s.toList.flatMap escapeChar ++ ['"'])

/-- A new line indented by `depth` steps of two. -/
def newline (depth : Nat) : String := String.ofList ('\n' :: List.replicate (2 * depth) ' ')

/-- Items between brackets, one to a line. -/
def bracketed (opening closing : String) (depth : Nat) (items : List String) : String :=
  if items.isEmpty then opening ++ closing
  else opening ++ ",".intercalate (items.map fun i => newline (depth + 1) ++ i) ++ newline depth
    ++ closing

mutual

/-- The text of a document whose first line is already indented by `depth`. -/
def layout (depth : Nat) : Document → String
  | null => "null"
  | boolean value => if value then "true" else "false"
  | integer value => Integer.text value
  | float value => (Decimal.documentText? value).getD "null"
  | text value => quote value
  | list items => bracketed "[" "]" depth (layoutItems (depth + 1) items)
  | node fields => bracketed "\x7b" "\x7d" depth (layoutFields (depth + 1) fields)

def layoutItems (depth : Nat) : List Document → List String
  | [] => []
  | d :: ds => layout depth d :: layoutItems depth ds

def layoutFields (depth : Nat) : List (String × Document) → List String
  | [] => []
  | (key, d) :: fields => (quote key ++ ": " ++ layout depth d) :: layoutFields depth fields

end

/-- The text of a document. -/
def render (d : Document) : String := layout 0 d

end Document

end Pseudocode

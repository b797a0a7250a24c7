import Pseudocode.Session

/-!
Diagnostics: an error shown under the source text it is about.

Every line with a label is shown once, in order, and below it one row for each
label that starts there. Colour is a matter of painting pieces of the same
text.
-/

namespace Pseudocode

inductive DiagnosticKind where
  | syntactic
  | runtime
  deriving DecidableEq, Repr

def DiagnosticKind.title : DiagnosticKind → String
  | syntactic => "syntax error"
  | runtime => "runtime error"

inductive LabelStyle where
  | primary
  | secondary
  deriving DecidableEq, Repr

/-- A remark on a part of the source text. -/
structure Label where
  style : LabelStyle
  span : Span
  message : String
  deriving DecidableEq, Repr

structure Diagnostic where
  kind : DiagnosticKind
  message : String
  code : Option String := none
  labels : List Label := []
  notes : List String := []
  deriving DecidableEq, Repr

namespace Diagnostic

/-- Adds a label; one without a place is left out. -/
def withLabel (d : Diagnostic) (l : Label) : Diagnostic :=
  if l.span.isUnplaced then d else { d with labels := d.labels ++ [l] }

def withHelp (d : Diagnostic) (help : String) : Diagnostic :=
  { d with notes := d.notes ++ ["help: " ++ help] }

end Diagnostic

/-! ### Diagnostics of errors -/

def SyntaxError.diagnostic (e : SyntaxError) : Diagnostic :=
  let d : Diagnostic := { kind := .syntactic, message := e.message, code := some "E0101" }
  let d := d.withLabel ⟨.primary, e.span, ""⟩
  match e.secondary with
  | none => d
  | some (span, remark) => d.withLabel ⟨.secondary, span, remark.message⟩

namespace Cause

def code : Cause → String
  | undefinedVariable _ => "E0201"
  | redeclaration _ => "E0202"
  | typeProblem _ => "E0203"
  | indexOutOfBounds .. => "E0204"
  | divisionByZero => "E0205"
  | arity .. => "E0206"
  | privateMember .. => "E0207"
  | loopLimit _ => "E0208"
  | notCallable _ => "E0209"
  | returnOutsideFunction => "E0210"
  | misuse _ => "E0211"

/-- What a diagnostic says first. -/
def headline : Cause → String
  | undefinedVariable name => "undefined variable `" ++ name ++ "`"
  | redeclaration name => "`" ++ name ++ "` is already declared in this scope"
  | typeProblem problem => "type error: " ++ problem.message
  | indexOutOfBounds index length =>
      "index out of bounds: index is " ++ Integer.text index ++ " but length is "
        ++ Decimal.numeral length
  | divisionByZero => "division by zero"
  | arity name expected found =>
      "`" ++ name ++ "` takes " ++ Decimal.numeral expected ++ " argument"
        ++ (if expected = 1 then "" else "s") ++ " but " ++ Decimal.numeral found ++ " "
        ++ (if found = 1 then "was" else "were") ++ " supplied"
  | privateMember member className =>
      "`" ++ member ++ "` is a private member of class `" ++ className ++ "`"
  | loopLimit limit =>
      "while loop exceeded the limit of " ++ Decimal.numeral limit ++ " iterations"
  | notCallable found => "value of type " ++ found.name ++ " is not callable"
  | returnOutsideFunction => "return outside function"
  | misuse problem => problem.message

/-- What a diagnostic says at the place of the fault. -/
def remark : Cause → String
  | undefinedVariable _ => "not found in this scope"
  | redeclaration _ => "redeclared here"
  | indexOutOfBounds index _ => "index " ++ Integer.text index ++ " is out of bounds"
  | divisionByZero => "division by zero here"
  | privateMember .. => "private member accessed here"
  | loopLimit _ => "this loop never stopped"
  | _ => ""

/-- Advice on how to mend the program. -/
def help? : Cause → Option String
  | redeclaration _ => some "assign to it with `=` instead of declaring it again"
  | privateMember .. =>
      some "private members are only reachable from inside the class's own methods"
  | _ => none

end Cause

def Fault.diagnostic (f : Fault) : Diagnostic :=
  let d : Diagnostic :=
    { kind := .runtime, message := f.cause.headline, code := some f.cause.code }
  let d := d.withLabel ⟨.primary, f.span, f.cause.remark⟩
  match f.cause.help? with
  | none => d
  | some help => d.withHelp help

def Failure.diagnostic : Failure → Diagnostic
  | .notAProgram e => e.diagnostic
  | .fault f => f.diagnostic
  | e@(.crashed _)
  | e@.exhausted => { kind := .runtime, message := e.display }

/-! ### Paint -/

inductive Paint where
  | error
  | gutter
  | strong
  deriving DecidableEq, Repr

/-- A terminal control sequence. -/
def escape (code : String) : String := "\x1b[" ++ code ++ "m"

/-- The text in colour, when colour is wanted. -/
def Paint.apply (p : Paint) (color : Bool) (text : String) : String :=
  if color then
    match p with
    | error => escape "1" ++ escape "31" ++ text ++ escape "39" ++ escape "0"
    | gutter => escape "34" ++ text ++ escape "39"
    | strong => escape "1" ++ text ++ escape "0"
  else text

/-! ### Layout -/

def spaces (n : Nat) : String := String.ofList (List.replicate n ' ')

/-- Numbers in increasing order, each once. -/
def sortedNumbers (ns : List Nat) : List Nat :=
  (ns.mergeSort (· ≤ ·)).foldr (fun n rest => if rest.head? = some n then rest else n :: rest) []

structure Page where
  source : String
  file : String
  color : Bool

namespace Page

/-- The mark of a label: how far in it stands and how long it is. A label that
ends on another line is marked by one character. -/
def mark (page : Page) (l : Label) : Nat × Nat :=
  let (line, column) := lineColumn page.source l.span.start
  let (stopLine, stopColumn) := lineColumn page.source l.span.stop
  (column - 1, if stopLine = line ∧ column < stopColumn then stopColumn - column else 1)

/-- The bar between the line numbers and the text. -/
def bar (page : Page) : String := Paint.gutter.apply page.color "|"

/-- A text padded with spaces on the left. -/
def padLeft (width : Nat) (text : String) : String :=
  spaces (width - text.length) ++ text

/-- The row below a line that marks a label. -/
def labelRow (page : Page) (width : Nat) (l : Label) : String :=
  let (indent, length) := page.mark l
  let (marker, paint) := match l.style with
    | .primary => ('^', Paint.error)
    | .secondary => ('-', Paint.gutter)
  let row := spaces indent ++ String.ofList (List.replicate length marker) ++ " " ++ l.message
  spaces (width + 1) ++ " " ++ page.bar ++ " " ++ paint.apply page.color (Text.trimEnd row) ++ "\n"

/-- A source line with the rows of the labels that start on it. -/
def lineRows (page : Page) (d : Diagnostic) (width line : Nat) : String :=
  match (Text.lines page.source)[line - 1]? with
  | none => ""
  | some content =>
      let labels := d.labels.filter fun l => (lineColumn page.source l.span.start).1 == line
      padLeft (width + 1) (Paint.gutter.apply page.color (Decimal.numeral line)) ++ " " ++ page.bar
        ++ " " ++ content ++ "\n" ++ String.join (labels.map (page.labelRow width))

/-- The part of a diagnostic that shows source text. -/
def excerpt (page : Page) (d : Diagnostic) : String :=
  match d.labels with
  | [] => ""
  | first :: _ =>
      let lines := sortedNumbers (d.labels.map fun l => (lineColumn page.source l.span.start).1)
      let width := Decimal.digitCount (lines.getLast?.getD 1)
      let (line, column) := lineColumn page.source first.span.start
      let edge := spaces (width + 1) ++ " " ++ page.bar ++ "\n"
      spaces width ++ Paint.gutter.apply page.color "-->" ++ " " ++ page.file ++ ":"
        ++ Decimal.numeral line ++ ":" ++ Decimal.numeral column ++ "\n" ++ edge
        ++ String.join (lines.map (page.lineRows d width)) ++ edge

def heading (d : Diagnostic) : String :=
  match d.code with
  | none => d.kind.title
  | some code => d.kind.title ++ "[" ++ code ++ "]"

/-- One diagnostic. -/
def render (page : Page) (d : Diagnostic) : String :=
  Paint.error.apply page.color (heading d) ++ ": " ++ Paint.strong.apply page.color d.message ++ "\n"
    ++ page.excerpt d
    ++ String.join (d.notes.map fun note =>
      "  " ++ Paint.gutter.apply page.color "=" ++ " " ++ note ++ "\n")

/-- The line after all diagnostics. -/
def summary (count : Nat) : String :=
  "error: aborting due to " ++ Decimal.numeral count ++ " error" ++ (if count = 1 then "" else "s")
    ++ "\n"

/-- Diagnostics with a blank line after each, and a last line that counts them. -/
def renderAll (page : Page) (ds : List Diagnostic) : String :=
  String.join (ds.map fun d => page.render d ++ "\n")
    ++ (if ds.isEmpty then "" else summary ds.length)

end Page

end Pseudocode

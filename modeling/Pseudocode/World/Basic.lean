import Pseudocode.Text.Blank
import Pseudocode.Text.Quoted
import Pseudocode.World.Files
import Pseudocode.World.Generator

/-!
The world outside a program: what it prints, what it is told, and its files.

Everything a program does to the world is recorded in order as an `Event`.
Answers come from a queue, files from a store, and random numbers from a
generator. What the store and the generator do may depend on all that was asked
of them before.
-/

namespace Pseudocode

/-- One thing done to the world. -/
inductive Event where
  /-- A line of output. -/
  | log (text : String)
  /-- A report of a failure. -/
  | error (text : String)
  /-- A request for an answer. -/
  | prompt (text : String)
  /-- A file was asked for. -/
  | read (path : String) (found : Bool)
  /-- A file was to be written, successfully or not. -/
  | write (path contents : String)
  deriving DecidableEq, Repr

/-- Lines and failure reports are output. -/
def Event.isOutput : Event → Bool
  | log _ | error _ => true
  | _ => false

/-! ### Answers -/

inductive InputStyle where
  /-- Prepared answers, given as they are. -/
  | scripted
  /-- Lines of a text stream, given without their line ends. -/
  | stream
  deriving DecidableEq, Repr

structure Input where
  style : InputStyle := .scripted
  answers : List String := []
  deriving DecidableEq, Repr

namespace Input

def isLineEnd (c : Char) : Bool := c == '\n' || c == '\r'

/-- The answer that a prepared text stands for. -/
def clean (style : InputStyle) (answer : String) : String :=
  match style with
  | .scripted => answer
  | .stream => String.ofList (Text.dropEnd isLineEnd answer.toList)

/-- Why there is no answer. -/
def refusal (style : InputStyle) (prompt : String) : String :=
  match style with
  | .scripted => "no input available for prompt " ++ Text.quoted prompt
  | .stream => "input stream closed"

/-- The next answer, which is used up. -/
def request (i : Input) (prompt : String) : Except String String × Input :=
  match i.answers with
  | [] => (.error (refusal i.style prompt), i)
  | answer :: rest => (.ok (clean i.style answer), { i with answers := rest })

end Input

/-! ### The world -/

structure World where
  events : Array Event := #[]
  input : Input := {}
  store : FileStore := {}
  /-- The number of files that were to be written. -/
  writes : Nat := 0
  generator : Generator := default
  /-- The ranges that were drawn from, the latest first. -/
  drawn : List Draw := []

namespace World

def record (w : World) (e : Event) : World := { w with events := w.events.push e }

/-- The output so far. -/
def output (w : World) : List Event := w.events.toList.filter Event.isOutput

/-- Asks for an answer. -/
def request (w : World) (prompt : String) : Except String String × World :=
  let w := w.record (.prompt prompt)
  let (answer, input) := w.input.request prompt
  (answer, { w with input := input })

/-- Asks for the contents of a file. -/
def load (w : World) (path : String) : Option String × World :=
  let contents := w.store.read? path
  (contents, w.record (.read path contents.isSome))

/-- Writes a file. -/
def save (w : World) (path contents : String) : Except String Unit × World :=
  let w := w.record (.write path contents)
  let (verdict, store) := w.store.write w.writes path contents
  (verdict, { w with store := store, writes := w.writes + 1 })

/-- The world after a draw from a range. -/
def drawFrom (w : World) (range : Draw) : World := { w with drawn := range :: w.drawn }

end World

end Pseudocode

import Pseudocode.Machine
import Pseudocode.Text.Lines

/-!
Files by lines.

A reader holds the lines that its file had when it was opened. A writer holds
the lines its file will have; they are written when it is closed.
-/

namespace Pseudocode

namespace Native

/-- The lines of a file: none when it is empty. -/
def linesOf (contents : String) : List String :=
  if contents.isEmpty then [] else Text.lines contents

end Native

namespace Action

/-- The contents of a file that must exist. -/
def fileContents (path : String) : Action String := do
  match ← changeWorld fun w => w.load path with
  | some contents => return contents
  | none => fail (.misuse (.fileMissing path))

/-- Writes a file. -/
def saveFile (path contents : String) : Action Unit := do
  match ← changeWorld fun w => w.save path contents with
  | .ok () => return ()
  | .error reason => fail (.misuse (.writeFailed reason))

def openReader (path : String) : Action Value := do
  let contents ← fileContents path
  changeHeap fun h => h.newReader { unread := Native.linesOf contents }

/-- Opens an existing file to add lines at its end. -/
def openWriter (path : String) : Action Value := do
  let contents ← fileContents path
  changeHeap fun h => h.newWriter (.ofLines path (Native.linesOf contents))

/-- The state of the reader that a value stands for. -/
def readerOf (receiver : Value) : Action (ReaderId × FileReader) := do
  match receiver with
  | .reader id =>
      match ← ofHeap fun h => h.readers[id]? with
      | some r => return (id, r)
      | none => fail (.typeProblem (.needsReader receiver.kind))
  | other => fail (.typeProblem (.needsReader other.kind))

/-- The state of the writer that a value stands for. -/
def writerOf (receiver : Value) : Action (WriterId × FileWriter) := do
  match receiver with
  | .writer id =>
      match ← ofHeap fun h => h.writers[id]? with
      | some w => return (id, w)
      | none => fail (.typeProblem (.needsWriter receiver.kind))
  | other => fail (.typeProblem (.needsWriter other.kind))

def setReader (id : ReaderId) (r : FileReader) : Action Unit :=
  changeHeap fun h => ((), h.setReader id r)

def setWriter (id : WriterId) (w : FileWriter) : Action Unit :=
  changeHeap fun h => ((), h.setWriter id w)

/-- The next line of a reader. -/
def readLine (receiver : Value) : Action Value := do
  let (id, r) ← readerOf receiver
  if r.closed then fail (.misuse .readAfterClose)
  else match r.unread with
    | [] => fail (.misuse .readPastEnd)
    | line :: rest =>
        setReader id { r with unread := rest }
        return .text line

/-- No line is left. -/
def endOfFile (receiver : Value) : Action Value := do
  let (_, r) ← readerOf receiver
  if r.closed then fail (.misuse .readAfterClose) else return .boolean r.unread.isEmpty

def closeReader (receiver : Value) : Action Value := do
  let (id, r) ← readerOf receiver
  if r.closed then fail (.misuse .closedTwice)
  else
    setReader id { r with closed := true }
    return .null

/-- Adds a line to a writer. -/
def writeLine (receiver line : Value) : Action Value := do
  let (id, w) ← writerOf receiver
  if w.closed then fail (.misuse .writeAfterClose)
  else match line with
    | .text s =>
        setWriter id (w.add s)
        return line
    | other => fail (.typeProblem (.writtenLine other.kind))

/-- Writes the lines of a writer to its file. When that fails the writer stays
open. -/
def closeWriter (receiver : Value) : Action Value := do
  let (id, w) ← writerOf receiver
  if w.closed then fail (.misuse .closedTwice)
  else
    saveFile w.path (Text.joinLines w.lines)
    setWriter id { w with closed := true }
    return .null

end Action

end Pseudocode

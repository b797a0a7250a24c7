import Pseudocode.Command.Run

/-!
The command on a real console.

What the command does is a function of what it is told, and what it does early
does not depend on what it is told late. So it is run on what is known so far;
its deeds are done in order up to the first one whose outcome is not known;
that outcome is found out, and the command is run again from there.
-/

namespace Pseudocode.Command

/-- What is known of the outside so far. -/
structure Known where
  /-- The lines of standard input that have been read. -/
  lines : List String := []
  /-- Standard input has no more lines. -/
  ended : Bool := false
  files : Bindings String := []
  /-- Files that were looked for and not found. -/
  missing : List String := []
  /-- The writes that failed, by how many there were before, and why. -/
  denied : List (Nat × String) := []

namespace Known

/-- A line of standard input has been read; an empty one is its end. -/
def withLine (known : Known) (line : String) : Known :=
  if line.isEmpty then { known with ended := true }
  else { known with lines := known.lines ++ [line] }

/-- A file has been looked for. -/
def withFile (known : Known) (path : String) : Option String → Known
  | some contents => { known with files := (path, contents) :: known.files }
  | none => { known with missing := path :: known.missing }

def store (known : Known) : FileStore where
  system := .flat fun moment _ => known.denied.lookup moment
  files := known.files

end Known

/-- The wording of a failed access to a file. -/
def describeError : IO.Error → String
  | .noFileOrDirectory .. => PathProblem.missing.message
  | .inappropriateType _ 20 _ => PathProblem.notDirectory.message
  | .inappropriateType _ 21 _ => PathProblem.isDirectory.message
  | .invalidArgument _ 36 _ => PathProblem.tooLong.message
  | e => toString e

/-- The text of a file, or why it cannot be read. -/
def readText (path : String) : IO (Except String String) := do
  try
    return .ok (← IO.FS.readFile path)
  catch e =>
    return .error (describeError e)

/-- Writes a file; the result tells why that failed. -/
def writeText (path contents : String) : IO (Option String) := do
  try
    IO.FS.writeFile path contents
    return none
  catch e =>
    return some (describeError e)

/-- Does deeds in order, up to the first one whose outcome is not known. The
result is what is known then and how many deeds have been done, or nothing when
all have. `asked` counts the lines that have been taken, `written` the files that were
to be written. -/
def perform (root : String) (known : Known) (asked written done : Nat) :
    List Deed → IO (Option (Known × Nat))
  | [] => return none
  | .out text :: rest => do
      let stdout ← IO.getStdout
      stdout.putStr text
      stdout.flush
      perform root known asked written (done + 1) rest
  | .err text :: rest => do
      (← IO.getStderr).putStr text
      perform root known asked written (done + 1) rest
  | .ask :: rest => do
      if asked < known.lines.length || known.ended then
        perform root known (asked + 1) written (done + 1) rest
      else
        let line ← (← IO.getStdin).getLine
        return some (known.withLine line, done + 1)
  | .read path found :: rest => do
      if found || known.missing.contains path then perform root known asked written (done + 1) rest
      else
        let contents ← readText (Path.join root path)
        return some (known.withFile path contents.toOption, done)
  | .write path contents :: rest => do
      if (known.denied.lookup written).isSome then
        perform root known asked (written + 1) (done + 1) rest
      else
        match ← writeText (Path.join root path) contents with
        | none => perform root known asked (written + 1) (done + 1) rest
        | some reason =>
            return some ({ known with denied := (written, reason) :: known.denied }, done)
  | .crash message :: _ => do
      (← IO.getStderr).putStrLn message
      return none

/-- The deed is a write. -/
def Deed.isWrite : Deed → Bool
  | write .. => true
  | _ => false

/-- Runs the command on what is known, until nothing has to be found out. -/
partial def runKnown (root : String) (command : Known → Report) (known : Known) (done : Nat) :
    IO UInt32 := do
  let report := command known
  let earlier := report.deeds.take done
  match ← perform root known (earlier.count .ask) (earlier.countP Deed.isWrite) done
      (report.deeds.drop done) with
  | some (known, done) => runKnown root command known done
  | none => return UInt32.ofNat report.exit

/-- The command for arguments. Without a seed one is drawn. -/
def runArguments (a : Arguments) : IO UInt32 := do
  let terminal := (← (← IO.getStdout).isTty) && (← (← IO.getStderr).isTty)
  let seed ← IO.rand 0 (twoPow 62)
  let a := { a with seed := some (a.seed.getD seed) }
  let program ← match a.file with
    | some path => readText path
    | none => pure (.ok "")
  runKnown (a.settings terminal).root
    (fun known => carryOut a terminal (fun _ => program) known.lines known.store) {} 0

end Pseudocode.Command

open Pseudocode.Command in
/-- Runs the command with the words after its name. -/
def main (words : List String) : IO UInt32 :=
  match Arguments.parse words with
  | .ok a => runArguments a
  | .error e => runKnown "." (fun _ => refuse e {}) {} 0

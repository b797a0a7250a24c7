import Pseudocode.Command.Arguments
import Pseudocode.Diagnostic
import Pseudocode.Program.Document

/-!
What the command does: runs a program file or text, shows its document, or
holds an interactive session.

The command is a function from what it is given to the list of what it does,
in order.
-/

namespace Pseudocode.Command

/-- One thing the command does. -/
inductive Deed where
  /-- Text on standard output. -/
  | out (text : String)
  /-- Text on standard error. -/
  | err (text : String)
  /-- A line of standard input is taken. -/
  | ask
  /-- A file is asked for. -/
  | read (path : String) (found : Bool)
  /-- A file is to be written. -/
  | write (path contents : String)
  /-- The command crashes. Nothing follows. -/
  | crash (message : String)
  deriving DecidableEq, Repr

def Deed.isCrash : Deed → Bool
  | crash _ => true
  | _ => false

/-- What the command did, how it ended, and the files afterwards. -/
structure Report where
  deeds : List Deed
  exit : Nat
  store : FileStore

def outLine (text : String) : Deed := .out (text ++ "\n")

def errLine (text : String) : Deed := .err (text ++ "\n")

/-- What an event of a program means for the console. -/
def deedsOf : Event → List Deed
  | .log text => [outLine text]
  | .error text => [errLine text]
  | .prompt text => [.out text, .ask]
  | .read path found => [.read path found]
  | .write path contents => [.write path contents]

def version : String := "pseudo 0.1.0"

/-! ### Messages -/

namespace Settings

/-- A message that only a talkative run shows. -/
def note (s : Settings) (message : String) : List Deed :=
  if s.verbose then [errLine ("[pseudo:debug] " ++ message)] else []

def complaint (s : Settings) (message : String) : Deed :=
  errLine (Paint.error.apply s.color message)

/-- A span in a talkative message. -/
def spanText (span : Span) : String :=
  "Span \x7b start: " ++ Decimal.numeral span.start ++ ", end: " ++ Decimal.numeral span.stop
    ++ " \x7d"

/-- The report of a failure under the text that failed. -/
def report (s : Settings) (source name : String) (failure : Failure) : List Deed :=
  s.note (failure.display ++ " at bytes " ++ spanText failure.span)
    ++ [.err (Page.renderAll ⟨source, name, s.color⟩ [failure.diagnostic]),
        s.complaint failure.display]

end Settings

/-! ### Programs -/

/-- A session for the command, and what is said about it. -/
def newSession (s : Settings) (answers : List String) (store : FileStore) : List Deed × Session :=
  (s.note ("File store rooted at " ++ s.root ++ " (while limit "
      ++ Decimal.numeral s.limits.rounds ++ ", call depth " ++ Decimal.numeral s.limits.depth ++ ")"),
   Session.start s.limits
     { input := { style := .stream, answers := answers }, store := store,
       generator := .seeded (UInt64.ofNat (s.seed.getD 0)) })

/-- Runs a source text, and takes the events out of the session. -/
def runProgram (s : Settings) (session : Session) (source : String) :
    List Deed × Except Failure Value × Session :=
  match Pseudocode.parse source with
  | .error e => (s.note "Parsing program", .error (.notAProgram e), session)
  | .ok p =>
      let (result, session) := session.run p
      let deeds := session.world.events.toList.flatMap deedsOf
      let world := { session.machine.world with events := #[] }
      (s.note "Parsing program"
          ++ s.note ("Running " ++ Decimal.numeral p.body.length ++ " top-level statements")
          ++ deeds,
        result, { session with machine := { session.machine with world := world } })

/-- How the command ends when it crashes. -/
def crashExit : Nat := 101

/-- Runs one program and reports how it ends. -/
def runOnce (s : Settings) (source name : String) (answers : List String) (store : FileStore) :
    Report :=
  let (opening, session) := newSession s answers store
  let (deeds, result, session) := runProgram s session source
  match result with
  | .ok _ => ⟨opening ++ deeds ++ s.note "Program finished", 0, session.world.store⟩
  | .error (.crashed c) => ⟨opening ++ deeds ++ [.crash c.message], crashExit, session.world.store⟩
  | .error failure => ⟨opening ++ deeds ++ s.report source name failure, 1, session.world.store⟩

/-- Shows the document of a program. -/
def showDocument (s : Settings) (source name : String) (store : FileStore) : Report :=
  let opening := s.note ("Dumping syntax tree of " ++ name)
  match Pseudocode.parse source with
  | .ok p => ⟨opening ++ [outLine p.document.render], 0, store⟩
  | .error e => ⟨opening ++ s.report source name (.notAProgram e), 1, store⟩

/-! ### Interactive sessions -/

/-- The only problem with a text is that it ends too early. -/
def isIncomplete (source : String) : Bool :=
  match Pseudocode.parse source with
  | .ok _ => false
  | .error e => byteLength (Text.trimEnd source).toList ≤ e.span.start

/-- The next line of input, which is used up. -/
def takeLine (session : Session) : Option (String × Session) :=
  match session.machine.world.input.answers with
  | [] => none
  | line :: rest =>
      let world := session.machine.world
      let world := { world with input := { world.input with answers := rest } }
      some (line, { session with machine := { session.machine with world := world } })

/-- Runs a text that is complete and shows its value. -/
def submit (s : Settings) (session : Session) (source : String) : List Deed × Session :=
  let (deeds, result, session) := runProgram s session source
  match result with
  | .ok .null => (deeds, session)
  | .ok v => (deeds ++ [outLine (session.heap.raw v)], session)
  | .error (.crashed c) => (deeds ++ [.crash c.message], session)
  | .error failure => (deeds ++ s.report source "<repl>" failure, session)

/-- Takes lines and runs them, up to a crash. A text that ends too early waits for more
lines, up to an empty one. Every round takes a line, so their number bounds the
rounds. -/
def converse (s : Settings) : Nat → Session → String → List Deed × Session
  | 0, session, _ => ([], session)
  | rounds + 1, session, buffer =>
      let prompt := [.out (if buffer.isEmpty then "pseudo> " else "...> "), .ask]
      match takeLine session with
      | none => (prompt, session)
      | some (line, session) =>
          let trimmed := Text.trim line
          if buffer.isEmpty && (trimmed == "exit" || trimmed == "quit") then (prompt, session)
          else if buffer.isEmpty && trimmed.isEmpty then
            let (deeds, session) := converse s rounds session buffer
            (prompt ++ deeds, session)
          else
            let source := buffer ++ line
            if !trimmed.isEmpty && isIncomplete source then
              let (deeds, session) := converse s rounds session source
              (prompt ++ deeds, session)
            else
              let (shown, session) := submit s session source
              if shown.any Deed.isCrash then (prompt ++ shown, session)
              else
                let (deeds, session) := converse s rounds session ""
                (prompt ++ shown ++ deeds, session)

def banner : List Deed :=
  [outLine version,
   outLine "Enter statements to run them. Exit with Ctrl+D (Ctrl+Z on Windows) or type 'exit'.",
   outLine ""]

/-- Holds an interactive session. -/
def interact (s : Settings) (answers : List String) (store : FileStore) : Report :=
  let greeting := if s.verbose then s.note "Entering interactive mode" else banner
  let (opening, session) := newSession s answers store
  let (deeds, session) := converse s (answers.length + 1) session ""
  ⟨greeting ++ opening ++ deeds, if deeds.any Deed.isCrash then crashExit else 0,
    session.world.store⟩

/-! ### The command -/

/-- A program to be run: its text and the name it is reported under. -/
def runSourceText (s : Settings) (source name : String) (answers : List String)
    (store : FileStore) : Report :=
  if s.dumpAst then showDocument s source name store else runOnce s source name answers store

/-- Carries out arguments. `readProgram` gives the text of a program file or says
why there is none. -/
def carryOut (a : Arguments) (terminal : Bool) (readProgram : String → Except String String)
    (answers : List String) (store : FileStore) : Report :=
  let s := a.settings terminal
  let prepend (opening : List Deed) (r : Report) : Report := { r with deeds := opening ++ r.deeds }
  match a.complete, a.file, a.eval with
  | some _, _, _ => ⟨[], 0, store⟩
  | none, some path, _ =>
      let opening := s.note "Starting pseudo" ++ s.note ("Reading program from file: " ++ path)
      match readProgram path with
      | .ok source => prepend opening (runSourceText s source path answers store)
      | .error reason =>
          ⟨opening ++ [s.complaint ("Failed to read " ++ path ++ ": " ++ reason)], 1, store⟩
  | none, none, some source =>
      prepend (s.note "Starting pseudo" ++ s.note "Using program from command-line argument")
        (runSourceText s source "<eval>" answers store)
  | none, none, none => prepend (s.note "Starting pseudo") (interact s answers store)

/-- What is said when arguments are not carried out. -/
def refuse (e : UsageError) (store : FileStore) : Report :=
  match e with
  | .displayVersion => ⟨[outLine version], 0, store⟩
  | .displayHelp => ⟨[outLine "Usage: pseudo [OPTIONS] [FILE] [COMMAND]"], 0, store⟩
  | _ => ⟨[errLine "Usage: pseudo [OPTIONS] [FILE] [COMMAND]"], 2, store⟩

/-- The lines of a text, each with its line feed. -/
def inputLines (text : String) : List String :=
  let parts := Text.splitLines text.toList
  let full := parts.dropLast.map fun l => String.ofList (l ++ ['\n'])
  match parts.getLast? with
  | none => full
  | some [] => full
  | some rest => full ++ [String.ofList rest]

/-- The command in a directory with the given files, with its streams piped. -/
def runPiped (words : List String) (stdin : String) (files : Bindings String) : Report :=
  match Arguments.parse words with
  | .error e => refuse e { files := files }
  | .ok a =>
      let store : FileStore := { system := .tree (a.settings false).root, files := files }
      let readProgram path := match Path.read files path with
        | .ok source => Except.ok source
        | .error problem => .error problem.message
      carryOut a false readProgram (inputLines stdin) store

/-- The files of the directory after the run. -/
def Report.files (r : Report) : Bindings String := r.store.files.filter fun f => Path.isInside f.1

/-- All that was written to standard output. -/
def Report.stdout (r : Report) : String :=
  String.join (r.deeds.map fun
    | .out text => text
    | _ => "")

/-- All that was written to standard error. -/
def Report.stderr (r : Report) : String :=
  String.join (r.deeds.map fun
    | .err text => text
    | .crash message => message ++ "\n"
    | _ => "")

end Pseudocode.Command

import Pseudocode.Eval
import Pseudocode.Program.Parser

/-!
Sessions: programs that run one after another on one machine.

The outermost scope stays from one program to the next, and so does everything
a failed program did before it failed.
-/

namespace Pseudocode

/-- Why a program gave no value. -/
inductive Failure where
  /-- The text is no program. -/
  | notAProgram (e : SyntaxError)
  | fault (f : Fault)
  /-- The machine stopped. -/
  | crashed (c : Crash)
  /-- The bound on the rounds of loops was used up. -/
  | exhausted

namespace Failure

def display : Failure → String
  | notAProgram e => e.display
  | fault f => f.display
  | crashed c => c.message
  | exhausted => "Runtime Error: the program did not end"

def span : Failure → Span
  | notAProgram e => e.span
  | fault f => f.span
  | crashed _ => .unplaced
  | exhausted => .unplaced

end Failure

/-- The names that every program finds in its outermost scope. -/
def builtins : Bindings Value :=
  [("true", .boolean true), ("false", .boolean false)]
    ++ NativeFunction.all.map fun f => (f.name, .nativeFunction f)

structure Session where
  machine : Machine
  globals : ScopeId
  limits : Limits

namespace Session

/-- A session on a heap that may hold values already, before its first program. -/
def startOn (heap : Heap) (limits : Limits) (world : World) : Session :=
  let (globals, heap) := heap.newScope { bindings := builtins }
  ⟨⟨heap, world, 0⟩, globals, limits⟩

/-- A session in a world, before its first program. -/
def start (limits : Limits) (world : World) : Session := startOn {} limits world

/-- More rounds than there are integers, so that a counting loop whose body leaves
the variable alone never meets the bound. -/
def ampleFuel : Nat := twoPow 65

/-- Runs a program. Its value is that of its last statement. No call is active
at the start, however the program before it ended. -/
def run (session : Session) (p : Program) : Except Failure Value × Session :=
  let ⟨⟨heap, world, _⟩, globals, limits⟩ := session
  match Action.executeBlock (Action.context limits ampleFuel) globals .null p.body
      ⟨heap, world, 0⟩ with
  | .done (.value v) m => (.ok v, ⟨m, globals, limits⟩)
  | .done .returned m => (.ok .null, ⟨m, globals, limits⟩)
  | .failed f m => (.error (.fault f), ⟨m, globals, limits⟩)
  | .crashed c m => (.error (.crashed c), ⟨m, globals, limits⟩)
  | .exhausted => (.error .exhausted, session)

/-- Adds an event to the record. -/
def record (session : Session) (e : Event) : Session :=
  { session with machine := { session.machine with world := session.machine.world.record e } }

/-- Reports a failure as output. After a crash nothing is reported any more. -/
def reportFailure (session : Session) : Failure → Session
  | .crashed _ => session
  | failure => session.record (.error failure.display)

/-- Runs a source text. A failure is also reported. -/
def execute (session : Session) (source : String) : Except Failure Value × Session :=
  let (result, session) := match parse source with
    | .ok p => session.run p
    | .error e => (.error (.notAProgram e), session)
  match result with
  | .ok v => (.ok v, session)
  | .error failure => (.error failure, session.reportFailure failure)

def heap (session : Session) : Heap := session.machine.heap

def world (session : Session) : World := session.machine.world

end Session

/-- Runs a source text in a session of its own, without answers or files, on a
heap that may hold values already. -/
def runSourceOn (heap : Heap) (source : String) : Except Failure (Value × Session) :=
  match parse source with
  | .error e => .error (.notAProgram e)
  | .ok p =>
      match (Session.startOn heap {} {}).run p with
      | (.ok v, session) => .ok (v, session)
      | (.error failure, _) => .error failure

/-- Runs a source text in a session of its own, without answers or files. -/
def runSource (source : String) : Except Failure (Value × Session) := runSourceOn {} source

end Pseudocode

import Pseudocode.Session

/-!
A second way to run programs, in which a `return` is a signal.

Scopes have bindings and nothing else here: no scope is marked as that of a call,
as terminated or with a value. A statement ends with `Signal.normal` or with
`Signal.returning` and the value, the statements around it pass the signal on,
and the call takes the value from it. Expressions are evaluated as ever, with
calls of this kind.
-/

namespace Pseudocode

inductive Signal where
  | normal (v : Value)
  | returning (v : Value)

namespace Signal

/-! ### Blocks and loops -/

/-- Runs a block in a scope of its own. A block has no value. -/
def nested (s : ScopeId) (block : ScopeId → Action Signal) : Action Signal := do
  let inner ← Action.newBlock s
  match ← block inner with
  | returning v => return returning v
  | normal _ => return normal .null

def whileLoop (limit : Nat) (span : Span) (condition : Action Bool) (body : Action Signal) :
    Nat → Action Signal
  | 0 => do
      if ← condition then Action.refuseRound limit span else return normal .null
  | left + 1 => do
      if ← condition then
        match ← body with
        | returning v => return returning v
        | normal _ => whileLoop limit span condition body left
      else return normal .null

def untilLoop (body : Action Signal) (condition : Action Bool) : Nat → Action Signal
  | 0 => Action.exhausted
  | fuel + 1 => do
      match ← body with
      | returning v => return returning v
      | normal _ =>
          if ← condition then return normal .null else untilLoop body condition fuel

def countLoop (s : ScopeId) (name : String) (last : Int64) (span : Span) (body : Action Signal) :
    Nat → Action Signal
  | 0 => Action.exhausted
  | fuel + 1 => do
      let current ← Action.loopVariable s name span
      if current.toInt ≤ last.toInt then
        match ← body with
        | returning v => return returning v
        | normal _ =>
            let reached ← Action.loopVariable s name span
            match Integer.add? reached 1 with
            | none => return normal .null
            | some next =>
                Action.setLocal s name (.integer next)
                countLoop s name last span body fuel
      else return normal .null

/-! ### Statements -/

mutual

/-- Runs a statement in scope `s`, inside a call or not. -/
def execute (ctx : Context) (inCall : Bool) (s : ScopeId) : Stmt → Action Signal
  | .declare span name value => do
      let v ← Action.evaluate ctx s value
      Action.orAt span (Action.declare s name v)
      return normal v
  | .array span name sizes => do
      let sizes ← Action.dimensions ctx s sizes
      let v ← Action.makeArray ctx.limits.room sizes
      Action.orAt span (Action.declare s name v)
      return normal v
  | .routine decl => do
      let v ← Action.changeHeap fun h => h.closure decl s
      Action.orAt decl.span (Action.declare s decl.name v)
      return normal v
  | .classDecl decl => do
      let v ← Action.declareClass decl s
      return normal v
  | .conditional test yes no => do
      let v ← Action.evaluate ctx s test
      if ← Action.ofHeap (v.truthy ·) then
        nested s fun inner => executeBlock ctx inCall inner .null yes
      else
        match no with
        | some no => nested s fun inner => executeBlock ctx inCall inner .null no
        | none => return normal .null
  | .switch subject cases => do
      let v ← Action.evaluate ctx s subject
      executeCases ctx inCall s v cases
  | .count span name first last body => do
      let first ← Action.loopBound ctx s first
      let last ← Action.loopBound ctx s last
      let loop ← Action.newBlock s
      Action.declare loop name (.integer first)
      countLoop loop name last span
        (nested loop fun inner => executeBlock ctx inCall inner .null body) ctx.fuel
  | .whileLoop span test body =>
      whileLoop ctx.limits.rounds span (Action.condition ctx s .whileCondition test)
        (nested s fun inner => executeBlock ctx inCall inner .null body) ctx.limits.rounds
  | .untilLoop body test =>
      untilLoop (nested s fun inner => executeBlock ctx inCall inner .null body)
        (Action.condition ctx s .untilCondition test) ctx.fuel
  | .giveBack span value => do
      let v ← match value with
        | some e => Action.evaluate ctx s e
        | none => pure .null
      if inCall then return returning v
      else Action.orAt span (Action.fail .returnOutsideFunction)
  | .expression e => do
      let v ← Action.evaluate ctx s e
      return normal v

/-- Runs statements until one returns. -/
def executeBlock (ctx : Context) (inCall : Bool) (s : ScopeId) (last : Value) :
    List Stmt → Action Signal
  | [] => return normal last
  | stmt :: rest => do
      match ← execute ctx inCall s stmt with
      | returning v => return returning v
      | normal v => executeBlock ctx inCall s v rest

def executeCases (ctx : Context) (inCall : Bool) (s : ScopeId) (subject : Value) :
    List Case → Action Signal
  | [] => return normal .null
  | ⟨test, body⟩ :: rest => do
      let matched ← match test with
        | none => pure true
        | some e => do
            let v ← Action.evaluate ctx s e
            Action.ofHeap fun h => h.valuesEqual subject v
      if matched then nested s fun inner => executeBlock ctx inCall inner .null body
      else executeCases ctx inCall s subject rest

end

/-! ### Calls and programs -/

/-- The value of a call whose body ended in this way: what a function returns, and
null otherwise. -/
def result (kind : RoutineKind) : Signal → Value
  | returning v =>
      match kind with
      | .function => v
      | .procedure => .null
  | normal _ => .null

def invoke (limits : Limits) (id : RoutineId) (args : List Value) (span : Span)
    (run : RoutineDecl → ScopeId → Action Signal) : Action Value := do
  match ← Action.ofHeap fun h => h.routines[id]? with
  | none => Action.fail (.notCallable .function)
  | some ⟨decl, scope⟩ =>
      if args.length ≠ decl.params.length then
        Action.failAt span (.arity decl.name decl.params.length args.length)
      else if limits.depth ≤ (← Action.getDepth) then
        Action.failAt span (.misuse (.callDepth limits.depth decl.name))
      else
        let s ← Action.newBlock scope
        Action.bindParameters s decl.params args
        let signal ← Action.deeper (run decl s)
        return signal.result decl.kind

def callRoutine (limits : Limits) (fuel : Nat) :
    Nat → RoutineId → List Value → Span → Action Value
  | 0, id, args, span => invoke limits id args span fun _ _ => Action.exhausted
  | left + 1, id, args, span => invoke limits id args span fun decl s =>
      executeBlock ⟨limits, fuel, callRoutine limits fuel left⟩ true s .null decl.body

def contextAt (limits : Limits) (fuel left : Nat) : Context :=
  ⟨limits, fuel, callRoutine limits fuel left⟩

/-- The result of a program and the session after it, given how its statements
ended. -/
def finish (session : Session) : Outcome Signal → Except Failure Value × Session
  | .done (.normal v) m => (.ok v, { session with machine := m })
  | .done (.returning _) m => (.ok .null, { session with machine := m })
  | .failed f m => (.error (.fault f), { session with machine := m })
  | .crashed c m => (.error (.crashed c), { session with machine := m })
  | .exhausted => (.error .exhausted, session)

/-- Runs a program. -/
def run (session : Session) (p : Program) : Except Failure Value × Session :=
  finish session (executeBlock (contextAt session.limits Session.ampleFuel session.limits.depth) false
    session.globals .null p.body { session.machine with depth := 0 })

end Signal

end Pseudocode

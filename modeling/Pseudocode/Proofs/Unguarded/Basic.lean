import Pseudocode.Session

/-!
Running programs without defences.

The functions here are those that run programs, but with a `trap` in the places where the
language only defends itself: where a parameter of a call is bound already, where the
variable of a counting loop is not there, where a constructor is not a routine, where the
target of an assignment is none, and where a program returns. A trap may do anything. That
it makes no difference says that nothing is caught (`Session.Undisturbed`).

Functions without such places (`whileLoop`, `untilLoop`, `nested`, `callValue`) are used
as they are.
-/

namespace Pseudocode

namespace Action.Unguarded

/-- What happens instead of a defence, whatever result is waited for. -/
abbrev Trap : Type 1 := (α : Type) → Action α

variable (trap : Trap)

/-! ### Loops -/

/-- The loop variable, which must be an integer. -/
def loopVariable (s : ScopeId) (name : String) (span : Span) : Action Int64 := do
  match ← ofHeap (·.lookup s name) with
  | .ok (.integer n) => return n
  | .ok other => failAt span (.typeProblem (.loopVariable name other.kind))
  | .error _ => trap Int64

def countLoop (s : ScopeId) (name : String) (last : Int64) (span : Span) (body : Action Flow) :
    Nat → Action Flow
  | 0 => exhausted
  | fuel + 1 => do
      let current ← loopVariable trap s name span
      if current.toInt ≤ last.toInt then
        match ← body with
        | .returned => return .returned
        | .value _ =>
            let reached ← loopVariable trap s name span
            match Integer.add? reached 1 with
            | none => return .value .null
            | some next =>
                setLocal s name (.integer next)
                countLoop s name last span body fuel
      else return .value .null

/-! ### Expressions -/

/-- A new object of a class. -/
def instantiate (ctx : Context) (c : ClassId) (args : List Value) (span : Span) : Action Value := do
  let o ← orAt span (tryChangeHeap fun h => h.buildObject c)
  match ← ofHeap fun h => h.layer? o Heap.constructorName with
  | some (layer, _) =>
      match ← lookup layer.scope Heap.constructorName with
      | .function id => let _ ← ctx.call id args span
      | .procedure id => let _ ← ctx.call id args span
      | _ => trap Unit
  | none =>
      if args.isEmpty then pure ()
      else do
        let name ← ofHeap fun h => h.className c
        failAt span (.arity name 0 args.length)
  return .object o

mutual

/-- The value of an expression in scope `s`. -/
def evaluate (ctx : Context) (s : ScopeId) : Expr → Action Value
  | .identifier span name => orAt span (lookup s name)
  | .integer _ n => return .integer n
  | .float _ x => return .float x
  | .text _ t => return .text t
  | .null _ => return .null
  | .assign span (.identifier _ name) value => orAt span do
      let v ← evaluate ctx s value
      assign s name v
      return v
  | .assign span (.member _ object field) value => orAt span do
      let v ← evaluate ctx s value
      let container ← evaluate ctx s object
      storeMember container field v
      return v
  | .assign span (.index _ object index) value => orAt span do
      let v ← evaluate ctx s value
      let i ← evaluate ctx s index
      match object, i with
      | .identifier _ name, .integer n => assignIndexed s name n v
      | _, _ =>
          let container ← evaluate ctx s object
          storeAt container i v
      return v
  | .assign span _ value => orAt span do
      let _ ← evaluate ctx s value
      trap Value
  | .binary span op left right => orAt span do
      let l ← evaluate ctx s left
      let r ← evaluate ctx s right
      tryOfHeap fun h => Operator.binary h op l r
  | .unary span op operand => orAt span do
      let v ← evaluate ctx s operand
      tryOfHeap fun h => Operator.unary h op v
  | .range span start stop => orAt span do
      let first ← evaluate ctx s start
      let last ← evaluate ctx s stop
      match first, last with
      | .integer a, .integer b => return .range a b
      | _, _ => fail (.typeProblem (.rangeBounds first.kind last.kind))
  | .member span object field => orAt span do
      let v ← evaluate ctx s object
      member v field
  | .index span object index => orAt span do
      let v ← evaluate ctx s object
      let i ← evaluate ctx s index
      Action.index v i
  | .call span (.member calleeSpan object field) args => orAt span do
      let vs ← evaluateAll ctx s args
      let receiver ← evaluate ctx s object
      let function ← orAt calleeSpan (member receiver field)
      callValue ctx function (some receiver) vs span
  | .call span callee args => orAt span do
      let vs ← evaluateAll ctx s args
      match callee with
      | .identifier .. | .index .. =>
          let function ← evaluate ctx s callee
          callValue ctx function none vs span
      | _ => failAt callee.span (.misuse .notCallableForm)
  | .create span classExpr args => orAt span do
      let vs ← evaluateAll ctx s args
      match ← evaluate ctx s classExpr with
      | .classRef c => instantiate trap ctx c vs span
      | other => fail (.typeProblem (.notAClass other.kind))

/-- The values of expressions, from left to right. -/
def evaluateAll (ctx : Context) (s : ScopeId) : List Expr → Action (List Value)
  | [] => return []
  | e :: es => do
      let v ← evaluate ctx s e
      let vs ← evaluateAll ctx s es
      return v :: vs

end

def condition (ctx : Context) (s : ScopeId) (problem : ValueKind → TypeProblem) (e : Expr) :
    Action Bool := do
  match ← evaluate trap ctx s e with
  | .boolean b => return b
  | other => failAt e.span (.typeProblem (problem other.kind))

def loopBound (ctx : Context) (s : ScopeId) (e : Expr) : Action Int64 := do
  let v ← evaluate trap ctx s e
  match v.toInteger? with
  | some n => return n
  | none => failAt e.span (.typeProblem (.loopBound v.kind))

def dimensions (ctx : Context) (s : ScopeId) : List Expr → Action (List Nat)
  | [] => return []
  | e :: es => do
      match ← evaluate trap ctx s e with
      | .integer n =>
          if n.toInt < 0 then failAt e.span (.misuse (.negativeDimension n))
          else
            let sizes ← dimensions ctx s es
            return n.toInt.toNat :: sizes
      | other => failAt e.span (.typeProblem (.dimension other.kind))

/-! ### Statements -/

mutual

/-- Runs a statement in scope `s`. -/
def execute (ctx : Context) (s : ScopeId) : Stmt → Action Flow
  | .declare span name value => do
      let v ← evaluate trap ctx s value
      orAt span (declare s name v)
      return .value v
  | .array span name sizes => do
      let sizes ← dimensions trap ctx s sizes
      let v ← makeArray ctx.limits.room sizes
      orAt span (declare s name v)
      return .value v
  | .routine decl => do
      let v ← changeHeap fun h => h.closure decl s
      orAt decl.span (declare s decl.name v)
      return .value v
  | .classDecl decl => do
      let v ← declareClass decl s
      return .value v
  | .conditional test yes no => do
      let v ← evaluate trap ctx s test
      if ← ofHeap (v.truthy ·) then nested s fun inner => executeBlock ctx inner .null yes
      else match no with
        | some no => nested s fun inner => executeBlock ctx inner .null no
        | none => return .value .null
  | .switch subject cases => do
      let v ← evaluate trap ctx s subject
      executeCases ctx s v cases
  | .count span name first last body => do
      let first ← loopBound trap ctx s first
      let last ← loopBound trap ctx s last
      let loop ← newBlock s
      declare loop name (.integer first)
      countLoop trap loop name last span
        (nested loop fun inner => executeBlock ctx inner .null body) ctx.fuel
  | .whileLoop span test body =>
      whileLoop ctx.limits.rounds span (condition trap ctx s .whileCondition test)
        (nested s fun inner => executeBlock ctx inner .null body) ctx.limits.rounds
  | .untilLoop body test =>
      untilLoop (nested s fun inner => executeBlock ctx inner .null body)
        (condition trap ctx s .untilCondition test) ctx.fuel
  | .giveBack span value => do
      let v ← match value with
        | some e => evaluate trap ctx s e
        | none => pure .null
      orAt span (signalReturn s v)
      return .returned
  | .expression e => do
      let v ← evaluate trap ctx s e
      return .value v

/-- Runs statements in scope `s` until one terminates the scope. -/
def executeBlock (ctx : Context) (s : ScopeId) (last : Value) : List Stmt → Action Flow
  | [] => return .value last
  | stmt :: rest => do
      let flow ← execute ctx s stmt
      let last := match flow with
        | .value v => v
        | .returned => last
      if ← isTerminated s then return .returned else executeBlock ctx s last rest

/-- Runs the first arm whose test equals the subject, or the default arm. -/
def executeCases (ctx : Context) (s : ScopeId) (subject : Value) : List Case → Action Flow
  | [] => return .value .null
  | ⟨test, body⟩ :: rest => do
      let matched ← match test with
        | none => pure true
        | some e => do
            let v ← evaluate trap ctx s e
            ofHeap fun h => h.valuesEqual subject v
      if matched then nested s fun inner => executeBlock ctx inner .null body
      else executeCases ctx s subject rest

end

/-! ### Routines -/

/-- Binds a name that `s` itself does not bind yet. -/
def declare (s : ScopeId) (name : String) (v : Value) : Action Unit := do
  if ← ofHeap (·.hasLocal s name) then trap Unit else setLocal s name v

/-- Binds the parameters of a call. -/
def bindParameters (s : ScopeId) : List String → List Value → Action Unit
  | name :: names, v :: vs => do
      declare trap s name v
      bindParameters s names vs
  | _, _ => pure ()

/-- Calls a routine, given how its body runs in the scope of the call. -/
def invoke (limits : Limits) (id : RoutineId) (args : List Value) (span : Span)
    (run : RoutineDecl → ScopeId → Action Flow) : Action Value := do
  match ← ofHeap fun h => h.routines[id]? with
  | none => fail (.notCallable .function)
  | some ⟨decl, scope⟩ =>
      if args.length ≠ decl.params.length then
        failAt span (.arity decl.name decl.params.length args.length)
      else if limits.depth ≤ (← getDepth) then
        failAt span (.misuse (.callDepth limits.depth decl.name))
      else
        let s ← newCall scope
        bindParameters trap s decl.params args
        let _ ← deeper (run decl s)
        let v ← takeReturned s
        match decl.kind with
        | .function => return v.getD .null
        | .procedure => return .null

/-- Calls a routine, with at most `left` calls inside one another. -/
def callRoutine (limits : Limits) (fuel : Nat) :
    Nat → RoutineId → List Value → Span → Action Value
  | 0, id, args, span => invoke trap limits id args span fun _ _ => exhausted
  | left + 1, id, args, span => invoke trap limits id args span fun decl s =>
      executeBlock trap ⟨limits, fuel, callRoutine limits fuel left⟩ s .null decl.body

/-- The context of code inside which at most `left` calls can nest. -/
def contextAt (limits : Limits) (fuel left : Nat) : Context :=
  ⟨limits, fuel, callRoutine trap limits fuel left⟩

/-- The value of a program, which is that of its last statement. -/
def program (limits : Limits) (fuel : Nat) (globals : ScopeId) (p : Program) : Action Value := do
  match ← executeBlock trap (contextAt trap limits fuel limits.depth) globals .null p.body with
  | .value v => return v
  | .returned => trap Value

end Action.Unguarded

namespace Session

/-- Runs a program without defences. -/
def runUnguarded (trap : Action.Unguarded.Trap) (session : Session) (p : Program) :
    Except Failure Value × Session :=
  let ⟨⟨heap, world, _⟩, globals, limits⟩ := session
  match Action.Unguarded.program trap limits ampleFuel globals p ⟨heap, world, 0⟩ with
  | .done v m => (.ok v, ⟨m, globals, limits⟩)
  | .failed f m => (.error (.fault f), ⟨m, globals, limits⟩)
  | .crashed c m => (.error (.crashed c), ⟨m, globals, limits⟩)
  | .exhausted => (.error .exhausted, session)

end Session

end Pseudocode

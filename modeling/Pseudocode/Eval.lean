import Pseudocode.Native.Basic
import Pseudocode.Object
import Pseudocode.Operator

/-!
Running programs.

Expressions and statements are evaluated by recursion on their structure. What
cannot be read off the structure is a parameter: how a routine is called
(`Context.call`), and how many rounds a loop that has no cap of its own may
take. `callRoutine` ties the knot for calls; the depth of calls is limited, and
the limit is the number of times the knot is tied.

Loops are combinators on actions, for any condition and body.
-/

namespace Pseudocode

/-- What a run is allowed to do. -/
structure Limits where
  /-- Body executions of one `while` loop. -/
  rounds : Nat := 200
  /-- Routine calls inside one another. -/
  depth : Nat := 1000
  /-- Values in one array. A value takes 24 bytes, and an array less than `2 ^ 63`. -/
  room : Nat := 384307168202282325
  deriving DecidableEq, Repr

/-- The greatest number that the rounds of a loop are counted to. -/
def greatestCount : Nat := 18446744073709551615

/-- How a statement ends: with a value, or by leaving the routine. The value
given back is then parked on the scope of the call. -/
inductive Flow where
  | value (v : Value)
  | returned

structure Context where
  limits : Limits
  /-- A bound on the rounds of loops without a cap. -/
  fuel : Nat
  /-- Calls a routine for the call at a span. -/
  call : RoutineId → List Value → Span → Action Value

namespace Action

/-! ### Loops -/

/-- Refuses the round after the last one. It is counted first, and so there is nothing to
compare with the limit when it has no number. -/
def refuseRound {α : Type} (limit : Nat) (span : Span) : Action α :=
  if limit < greatestCount then failAt span (.loopLimit limit) else crash .counter

/-- Runs the body as long as the condition holds, at most `left` more times. -/
def whileLoop (limit : Nat) (span : Span) (condition : Action Bool) (body : Action Flow) :
    Nat → Action Flow
  | 0 => do
      if ← condition then refuseRound limit span else return .value .null
  | left + 1 => do
      if ← condition then
        match ← body with
        | .returned => return .returned
        | .value _ => whileLoop limit span condition body left
      else return .value .null

/-- Runs the body until the condition holds. -/
def untilLoop (body : Action Flow) (condition : Action Bool) : Nat → Action Flow
  | 0 => exhausted
  | fuel + 1 => do
      match ← body with
      | .returned => return .returned
      | .value _ =>
          if ← condition then return .value .null else untilLoop body condition fuel

/-- The loop variable, which must be an integer. -/
def loopVariable (s : ScopeId) (name : String) (span : Span) : Action Int64 := do
  match ← lookup s name with
  | .integer n => return n
  | other => failAt span (.typeProblem (.loopVariable name other.kind))

/-- Runs the body as long as the loop variable in scope `s` is not above `last`,
and adds one to the variable after each round. The body may change it. The
loop ends after the greatest integer. -/
def countLoop (s : ScopeId) (name : String) (last : Int64) (span : Span) (body : Action Flow) :
    Nat → Action Flow
  | 0 => exhausted
  | fuel + 1 => do
      let current ← loopVariable s name span
      if current.toInt ≤ last.toInt then
        match ← body with
        | .returned => return .returned
        | .value _ =>
            let reached ← loopVariable s name span
            match Integer.add? reached 1 with
            | none => return .value .null
            | some next =>
                setLocal s name (.integer next)
                countLoop s name last span body fuel
      else return .value .null

/-! ### Values and members -/

/-- `object.name`: a member of an object, or a built-in one. -/
def member (object : Value) (name : String) : Action Value :=
  match object with
  | .object o => tryOfHeap fun h => h.getMember o name
  | .classRef c => tryOfHeap fun h => .error (.misuse (.classHasNoMember (h.className c) name))
  | other => ofExcept (Native.member other name)

/-- Overwrites an element of a value. -/
def storeAt (container index v : Value) : Action Unit :=
  match container, index with
  | .array a, .integer i => storeElement a i v
  | .array _, other => fail (.typeProblem (.badElementIndex other.kind))
  | .text _, _ => fail (.misuse .textAssignment)
  | other, _ => fail (.typeProblem (.notIndexable other.kind))

/-- Overwrites a member of a value. -/
def storeMember (object : Value) (field : String) (v : Value) : Action Unit :=
  match object with
  | .object o => tryChangeHeap fun h => h.setMember o field v
  | other => fail (.misuse (.memberAssignment field other.kind))

/-- Calls a value; a built-in method needs the value it was taken from. -/
def callValue (ctx : Context) (function : Value) (receiver : Option Value) (args : List Value)
    (span : Span) : Action Value :=
  match function with
  | .nativeFunction f => callNative f args
  | .nativeMethod m =>
      match receiver with
      | some receiver => callMethod m receiver args
      | none => fail (.misuse (.methodWithoutValue m.name))
  | .function id => ctx.call id args span
  | .procedure id => ctx.call id args span
  | other => fail (.notCallable other.kind)

/-- A new object of a class: its layers are built, then the constructor of the
nearest class that declares one runs. -/
def instantiate (ctx : Context) (c : ClassId) (args : List Value) (span : Span) : Action Value := do
  let o ← orAt span (tryChangeHeap fun h => h.buildObject c)
  match ← ofHeap fun h => h.layer? o Heap.constructorName with
  | some (layer, _) =>
      match ← lookup layer.scope Heap.constructorName with
      | .function id => let _ ← ctx.call id args span
      | .procedure id => let _ ← ctx.call id args span
      | other => failAt span (.notCallable other.kind)
  | none =>
      if args.isEmpty then pure ()
      else do
        let name ← ofHeap fun h => h.className c
        failAt span (.arity name 0 args.length)
  return .object o

/-! ### Expressions -/

mutual

/-- The value of an expression in scope `s`. A fault without a place is placed
at the innermost expression around it. -/
def evaluate (ctx : Context) (s : ScopeId) : Expr → Action Value
  | .identifier span name => orAt span (lookup s name)
  | .integer _ n => return .integer n
  | .float _ x => return .float x
  | .text _ t => return .text t
  | .null _ => return .null
  | .assign span (.identifier _ name) value => orAt span do
      let v ← evaluate ctx s value
      assign s name v
      return v
  | .assign span (.member _ object field) value => orAt span do
      let v ← evaluate ctx s value
      let container ← evaluate ctx s object
      storeMember container field v
      return v
  | .assign span (.index _ object index) value => orAt span do
      let v ← evaluate ctx s value
      let i ← evaluate ctx s index
      match object, i with
      | .identifier _ name, .integer n => assignIndexed s name n v
      | _, _ =>
          let container ← evaluate ctx s object
          storeAt container i v
      return v
  | .assign span _ value => orAt span do
      let _ ← evaluate ctx s value
      fail (.misuse .invalidTarget)
  | .binary span op left right => orAt span do
      let l ← evaluate ctx s left
      let r ← evaluate ctx s right
      tryOfHeap fun h => Operator.binary h op l r
  | .unary span op operand => orAt span do
      let v ← evaluate ctx s operand
      tryOfHeap fun h => Operator.unary h op v
  | .range span start stop => orAt span do
      let first ← evaluate ctx s start
      let last ← evaluate ctx s stop
      match first, last with
      | .integer a, .integer b => return .range a b
      | _, _ => fail (.typeProblem (.rangeBounds first.kind last.kind))
  | .member span object field => orAt span do
      let v ← evaluate ctx s object
      member v field
  | .index span object index => orAt span do
      let v ← evaluate ctx s object
      let i ← evaluate ctx s index
      Action.index v i
  | .call span (.member calleeSpan object field) args => orAt span do
      let vs ← evaluateAll ctx s args
      let receiver ← evaluate ctx s object
      let function ← orAt calleeSpan (member receiver field)
      callValue ctx function (some receiver) vs span
  | .call span callee args => orAt span do
      let vs ← evaluateAll ctx s args
      match callee with
      | .identifier .. | .index .. =>
          let function ← evaluate ctx s callee
          callValue ctx function none vs span
      | _ => failAt callee.span (.misuse .notCallableForm)
  | .create span classExpr args => orAt span do
      let vs ← evaluateAll ctx s args
      match ← evaluate ctx s classExpr with
      | .classRef c => instantiate ctx c vs span
      | other => fail (.typeProblem (.notAClass other.kind))

/-- The values of expressions, from left to right. -/
def evaluateAll (ctx : Context) (s : ScopeId) : List Expr → Action (List Value)
  | [] => return []
  | e :: es => do
      let v ← evaluate ctx s e
      let vs ← evaluateAll ctx s es
      return v :: vs

end

/-- The truth of a loop condition, which must be a truth value. -/
def condition (ctx : Context) (s : ScopeId) (problem : ValueKind → TypeProblem) (e : Expr) :
    Action Bool := do
  match ← evaluate ctx s e with
  | .boolean b => return b
  | other => failAt e.span (.typeProblem (problem other.kind))

/-- A bound of a counting loop, which must be an integer. -/
def loopBound (ctx : Context) (s : ScopeId) (e : Expr) : Action Int64 := do
  let v ← evaluate ctx s e
  match v.toInteger? with
  | some n => return n
  | none => failAt e.span (.typeProblem (.loopBound v.kind))

/-- The sizes of a new array, from left to right. -/
def dimensions (ctx : Context) (s : ScopeId) : List Expr → Action (List Nat)
  | [] => return []
  | e :: es => do
      match ← evaluate ctx s e with
      | .integer n =>
          if n.toInt < 0 then failAt e.span (.misuse (.negativeDimension n))
          else
            let sizes ← dimensions ctx s es
            return n.toInt.toNat :: sizes
      | other => failAt e.span (.typeProblem (.dimension other.kind))

/-! ### Statements -/

/-- Runs a block in a new scope inside `s`. Only a return gets out of it. -/
def nested (s : ScopeId) (block : ScopeId → Action Flow) : Action Flow := do
  let inner ← newBlock s
  match ← block inner with
  | .returned => return .returned
  | .value _ => return .value .null

mutual

/-- Runs a statement in scope `s`. -/
def execute (ctx : Context) (s : ScopeId) : Stmt → Action Flow
  | .declare span name value => do
      let v ← evaluate ctx s value
      orAt span (declare s name v)
      return .value v
  | .array span name sizes => do
      let sizes ← dimensions ctx s sizes
      let v ← makeArray ctx.limits.room sizes
      orAt span (declare s name v)
      return .value v
  | .routine decl => do
      let v ← changeHeap fun h => h.closure decl s
      orAt decl.span (declare s decl.name v)
      return .value v
  | .classDecl decl => do
      let v ← declareClass decl s
      return .value v
  | .conditional test yes no => do
      let v ← evaluate ctx s test
      if ← ofHeap (v.truthy ·) then nested s fun inner => executeBlock ctx inner .null yes
      else match no with
        | some no => nested s fun inner => executeBlock ctx inner .null no
        | none => return .value .null
  | .switch subject cases => do
      let v ← evaluate ctx s subject
      executeCases ctx s v cases
  | .count span name first last body => do
      let first ← loopBound ctx s first
      let last ← loopBound ctx s last
      let loop ← newBlock s
      declare loop name (.integer first)
      countLoop loop name last span (nested loop fun inner => executeBlock ctx inner .null body)
        ctx.fuel
  | .whileLoop span test body =>
      whileLoop ctx.limits.rounds span (condition ctx s .whileCondition test)
        (nested s fun inner => executeBlock ctx inner .null body) ctx.limits.rounds
  | .untilLoop body test =>
      untilLoop (nested s fun inner => executeBlock ctx inner .null body)
        (condition ctx s .untilCondition test) ctx.fuel
  | .giveBack span value => do
      let v ← match value with
        | some e => evaluate ctx s e
        | none => pure .null
      orAt span (signalReturn s v)
      return .returned
  | .expression e => do
      let v ← evaluate ctx s e
      return .value v

/-- Runs statements in scope `s` until one terminates the scope. The value is
that of the last statement that has one, `last` when there is none. -/
def executeBlock (ctx : Context) (s : ScopeId) (last : Value) : List Stmt → Action Flow
  | [] => return .value last
  | stmt :: rest => do
      let flow ← execute ctx s stmt
      let last := match flow with
        | .value v => v
        | .returned => last
      if ← isTerminated s then return .returned else executeBlock ctx s last rest

/-- Runs the first arm whose test equals the subject, or the default arm where
it is met. -/
def executeCases (ctx : Context) (s : ScopeId) (subject : Value) : List Case → Action Flow
  | [] => return .value .null
  | ⟨test, body⟩ :: rest => do
      let matched ← match test with
        | none => pure true
        | some e => do
            let v ← evaluate ctx s e
            ofHeap fun h => h.valuesEqual subject v
      if matched then nested s fun inner => executeBlock ctx inner .null body
      else executeCases ctx s subject rest

end

/-! ### Routines -/

/-- Binds the parameters of a call. -/
def bindParameters (s : ScopeId) : List String → List Value → Action Unit
  | name :: names, v :: vs => do
      declare s name v
      bindParameters s names vs
  | _, _ => pure ()

/-- Calls a routine, given how its body runs in the scope of the call. That scope
lies inside the scope that declares the routine. A procedure gives no value. -/
def invoke (limits : Limits) (id : RoutineId) (args : List Value) (span : Span)
    (run : RoutineDecl → ScopeId → Action Flow) : Action Value := do
  match ← ofHeap fun h => h.routines[id]? with
  | none => fail (.notCallable .function)
  | some ⟨decl, scope⟩ =>
      if args.length ≠ decl.params.length then
        failAt span (.arity decl.name decl.params.length args.length)
      else if limits.depth ≤ (← getDepth) then
        failAt span (.misuse (.callDepth limits.depth decl.name))
      else
        let s ← newCall scope
        bindParameters s decl.params args
        let _ ← deeper (run decl s)
        let v ← takeReturned s
        match decl.kind with
        | .function => return v.getD .null
        | .procedure => return .null

/-- Calls a routine, with at most `left` calls inside one another. The limit on
their depth is met first when `left` is not below it. -/
def callRoutine (limits : Limits) (fuel : Nat) :
    Nat → RoutineId → List Value → Span → Action Value
  | 0, id, args, span => invoke limits id args span fun _ _ => exhausted
  | left + 1, id, args, span => invoke limits id args span fun decl s =>
      executeBlock ⟨limits, fuel, callRoutine limits fuel left⟩ s .null decl.body

/-- The context of a run. -/
def context (limits : Limits) (fuel : Nat) : Context :=
  ⟨limits, fuel, callRoutine limits fuel limits.depth⟩

end Action

end Pseudocode

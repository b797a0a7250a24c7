import Pseudocode.Eval
import Pseudocode.Proofs.Features

/-!
Statements about every evaluation, reduced to statements about its parts.

`Leaf limits P s` lists the actions that evaluation in scope `s` is made of. A
`Congruence` is a family of relations between actions, one for each scope, that
relates every leaf to itself and is kept by sequencing and by placing faults;
`Congruence.evaluate` says that it then relates evaluations of any permitted
expression under contexts whose calls it relates. A `Discipline` adds what
statements need, blocks and loops, and `Discipline.execute` is the same for
statements. The recursion over the syntax is done here once; a claim about runs
supplies the facts about leaves and loops.
-/

namespace Pseudocode

/-- Every feature in the list satisfies `P`. -/
def Permits (P : Feature → Prop) (features : List Feature) : Prop := ∀ f ∈ features, P f

section Permits

variable {P : Feature → Prop}

@[simp] theorem permits_nil : Permits P [] := by
  intro f mem
  cases mem

@[simp] theorem permits_cons {f : Feature} {fs : List Feature} :
    Permits P (f :: fs) ↔ P f ∧ Permits P fs :=
  List.forall_mem_cons

@[simp] theorem permits_append {fs gs : List Feature} :
    Permits P (fs ++ gs) ↔ Permits P fs ∧ Permits P gs :=
  List.forall_mem_append

theorem permits_flawUnless {condition : Prop} [Decidable condition] :
    Permits P (flawUnless condition) ↔ condition ∨ P .flaw := by
  unfold flawUnless
  split
  · rename_i holds
    simp [holds]
  · rename_i flawed
    simp [flawed]

/-- In a permitted routine the body is permitted, and two parameters have one name only
where flaws are permitted. -/
theorem permits_routine {decl : RoutineDecl} : Permits P decl.features ↔
    (decl.params.Nodup ∨ P .flaw) ∧ Permits P (Stmt.featuresAll decl.body) := by
  obtain ⟨kind, name, params, body, span⟩ := decl
  rw [RoutineDecl.features, permits_append, permits_flawUnless]

end Permits

namespace Action

/-- The actions, other than calls, that evaluation in scope `s` is made of under limits. -/
inductive Leaf (limits : Limits) (P : Feature → Prop) (s : ScopeId) : {α : Type} → Action α → Prop where
  | pure {α : Type} (a : α) : Leaf limits P s (Pure.pure a : Action α)
  | fail {α : Type} (cause : Cause) : Leaf limits P s (fail cause : Action α)
  | failAt {α : Type} (span : Span) (cause : Cause) : Leaf limits P s (failAt span cause : Action α)
  | lookup (t : ScopeId) (name : String) : Leaf limits P s (lookup t name)
  | assign (name : String) (v : Value) (permitted : P (.assigns name)) : Leaf limits P s (assign s name v)
  | assignIndexed (name : String) (i : Int64) (v : Value) : Leaf limits P s (assignIndexed s name i v)
  | storeAt (container i v : Value) : Leaf limits P s (storeAt container i v)
  | storeMember (object : Value) (field : String) (v : Value) :
      Leaf limits P s (storeMember object field v)
  | binary (op : BinaryOp) (l r : Value) : Leaf limits P s (tryOfHeap fun h => Operator.binary h op l r)
  | unary (op : UnaryOp) (v : Value) : Leaf limits P s (tryOfHeap fun h => Operator.unary h op v)
  | member (object : Value) (field : String) : Leaf limits P s (member object field)
  | index (object i : Value) : Leaf limits P s (index object i)
  | callNative (f : NativeFunction) (args : List Value) : Leaf limits P s (callNative f args)
  | callMethod (m : NativeMethod) (receiver : Value) (args : List Value) :
      Leaf limits P s (callMethod m receiver args)
  | buildObject (c : ClassId) : Leaf limits P s (tryChangeHeap fun h => h.buildObject c)
  | layer (o : ObjectId) (name : String) : Leaf limits P s (ofHeap fun h => h.layer? o name)
  | className (c : ClassId) : Leaf limits P s (ofHeap fun h => h.className c)
  | truthy (v : Value) : Leaf limits P s (ofHeap (v.truthy ·))
  | valuesEqual (u v : Value) : Leaf limits P s (ofHeap fun h => h.valuesEqual u v)
  | declare (name : String) (v : Value) : Leaf limits P s (declare s name v)
  | makeArray (sizes : List Nat) : Leaf limits P s (makeArray limits.room sizes)
  | refuseRound {α : Type} (span : Span) :
      Leaf limits P s (refuseRound limits.rounds span : Action α)
  | closure (decl : RoutineDecl) (permitted : Permits P decl.features) :
      Leaf limits P s (changeHeap fun h => h.closure decl s)
  | declareClass (decl : ClassDecl) (permitted : Permits P decl.features) :
      Leaf limits P s (declareClass decl s)

/-- A family of relations between actions that evaluation of permitted
expressions respects, as far as calls do. -/
structure Congruence (limits : Limits) (P : Feature → Prop) where
  rel : ScopeId → {α : Type} → Action α → Action α → Prop
  leaf : ∀ {s : ScopeId} {α : Type} {x : Action α}, Leaf limits P s x → rel s x x
  bind : ∀ {s : ScopeId} {α β : Type} {x y : Action α} {f g : α → Action β},
    rel s x y → (∀ a, rel s (f a) (g a)) → rel s (x >>= f) (y >>= g)
  orAt : ∀ {s : ScopeId} {α : Type} {x y : Action α} (span : Span),
    rel s x y → rel s (orAt span x) (orAt span y)

namespace Congruence

variable {limits : Limits} {P : Feature → Prop} (C : Congruence limits P)

/-- The two contexts call routines in related ways, from every scope. -/
def Calls (ctx ctx' : Context) : Prop :=
  ∀ s id args span, C.rel s (ctx.call id args span) (ctx'.call id args span)

variable {C} {ctx ctx' : Context} {s : ScopeId}

theorem callValue (calls : C.Calls ctx ctx') (function : Value) (receiver : Option Value)
    (args : List Value) (span : Span) :
    C.rel s (callValue ctx function receiver args span)
      (callValue ctx' function receiver args span) := by
  cases function with
  | nativeFunction f => exact C.leaf (.callNative f args)
  | nativeMethod m =>
      cases receiver with
      | some receiver => exact C.leaf (.callMethod m receiver args)
      | none => exact C.leaf (.fail _)
  | function id => exact calls s id args span
  | procedure id => exact calls s id args span
  | _ => exact C.leaf (.fail _)

theorem instantiate (calls : C.Calls ctx ctx') (c : ClassId) (args : List Value) (span : Span) :
    C.rel s (instantiate ctx c args span) (instantiate ctx' c args span) := by
  refine C.bind (C.orAt span (C.leaf (.buildObject c))) fun o => ?_
  refine C.bind (C.leaf (.layer o _)) fun found => ?_
  match found with
  | some (layer, _) =>
      refine C.bind (C.leaf (.lookup layer.scope _)) fun constructor => ?_
      cases constructor with
      | function id => exact C.bind (calls s id args span) fun _ => C.leaf (.pure _)
      | procedure id => exact C.bind (calls s id args span) fun _ => C.leaf (.pure _)
      | _ => exact C.bind (C.leaf (.failAt span _)) fun _ => C.leaf (.pure _)
  | none =>
      by_cases empty : args.isEmpty = true
      · simp only [empty, if_true]
        exact C.leaf (.pure _)
      · simp only [empty]
        refine C.bind (C.leaf (.className c)) fun name => ?_
        exact C.bind (C.leaf (.failAt span _)) fun _ => C.leaf (.pure _)

mutual

/-- Evaluations of one permitted expression are related. -/
theorem evaluate (calls : C.Calls ctx ctx') (s : ScopeId) :
    ∀ e : Expr, Permits P e.features →
      C.rel s (Action.evaluate ctx s e) (Action.evaluate ctx' s e)
  | .identifier span name, _ => C.orAt span (C.leaf (.lookup s name))
  | .integer _ n, _ => C.leaf (.pure (Value.integer n))
  | .float _ x, _ => C.leaf (.pure (Value.float x))
  | .text _ t, _ => C.leaf (.pure (Value.text t))
  | .null _, _ => C.leaf (.pure Value.null)
  | .assign span target value, permitted => by
      simp only [Expr.features, permits_append] at permitted
      obtain ⟨⟨named, inTarget⟩, inValue⟩ := permitted
      have relatedValue := evaluate calls s value inValue
      cases target with
      | identifier _ name =>
          have allowed : P (.assigns name) := named _ List.mem_cons_self
          refine C.orAt span (C.bind relatedValue fun v => ?_)
          exact C.bind (C.leaf (.assign name v allowed)) fun _ => C.leaf (.pure v)
      | member _ object field =>
          refine C.orAt span (C.bind relatedValue fun v => ?_)
          refine C.bind (evaluate calls s object (by simpa [Expr.features] using inTarget)) fun o => ?_
          exact C.bind (C.leaf (.storeMember o field v)) fun _ => C.leaf (.pure v)
      | index _ object i =>
          simp only [Expr.features, permits_append] at inTarget
          refine C.orAt span (C.bind relatedValue fun v => ?_)
          refine C.bind (evaluate calls s i inTarget.2) fun position => ?_
          have relatedObject := evaluate calls s object inTarget.1
          have general := C.bind relatedObject fun container =>
            C.bind (C.leaf (.storeAt container position v)) fun _ => C.leaf (.pure v)
          -- An array that a variable stands for is changed without reading the variable first.
          cases object with
          | identifier _ name =>
              cases position with
              | integer n => exact C.bind (C.leaf (.assignIndexed name n v)) fun _ => C.leaf (.pure v)
              | _ => exact general
          | _ => exact general
      | _ =>
          refine C.orAt span (C.bind relatedValue fun v => ?_)
          exact C.leaf (.fail _)
  | .binary span op left right, permitted => by
      simp only [Expr.features, permits_append] at permitted
      refine C.orAt span (C.bind (evaluate calls s left permitted.1) fun l => ?_)
      exact C.bind (evaluate calls s right permitted.2) fun r => C.leaf (.binary op l r)
  | .unary span op operand, permitted => by
      simp only [Expr.features] at permitted
      exact C.orAt span (C.bind (evaluate calls s operand permitted) fun v => C.leaf (.unary op v))
  | .range span start stop, permitted => by
      simp only [Expr.features, permits_append] at permitted
      refine C.orAt span (C.bind (evaluate calls s start permitted.1) fun first => ?_)
      refine C.bind (evaluate calls s stop permitted.2) fun last => ?_
      split
      · exact C.leaf (.pure _)
      · exact C.leaf (.fail _)
  | .member span object field, permitted => by
      simp only [Expr.features] at permitted
      exact C.orAt span (C.bind (evaluate calls s object permitted) fun v => C.leaf (.member v field))
  | .index span object i, permitted => by
      simp only [Expr.features, permits_append] at permitted
      refine C.orAt span (C.bind (evaluate calls s object permitted.1) fun v => ?_)
      exact C.bind (evaluate calls s i permitted.2) fun position => C.leaf (.index v position)
  | .call span callee args, permitted => by
      simp only [Expr.features, permits_append] at permitted
      have relatedArgs := evaluateAll calls s args permitted.2
      have relatedCallee := evaluate calls s callee permitted.1
      cases callee with
      | member calleeSpan object field =>
          have inObject : Permits P object.features := by
            simpa [Expr.features] using permitted.1
          refine C.orAt span (C.bind relatedArgs fun vs => ?_)
          refine C.bind (evaluate calls s object inObject) fun receiver => ?_
          refine C.bind (C.orAt calleeSpan (C.leaf (.member receiver field))) fun function => ?_
          exact callValue calls function (some receiver) vs span
      | identifier _ name =>
          refine C.orAt span (C.bind relatedArgs fun vs => ?_)
          exact C.bind relatedCallee fun function => callValue calls function none vs span
      | index _ object i =>
          refine C.orAt span (C.bind relatedArgs fun vs => ?_)
          exact C.bind relatedCallee fun function => callValue calls function none vs span
      | _ => exact C.orAt span (C.bind relatedArgs fun vs => C.leaf (.failAt _ _))
  | .create span classExpr args, permitted => by
      simp only [Expr.features, permits_append] at permitted
      refine C.orAt span (C.bind (evaluateAll calls s args permitted.2) fun vs => ?_)
      refine C.bind (evaluate calls s classExpr permitted.1) fun v => ?_
      cases v with
      | classRef c => exact instantiate calls c vs span
      | _ => exact C.leaf (.fail _)

theorem evaluateAll (calls : C.Calls ctx ctx') (s : ScopeId) :
    ∀ es : List Expr, Permits P (Expr.featuresAll es) →
      C.rel s (Action.evaluateAll ctx s es) (Action.evaluateAll ctx' s es)
  | [], _ => C.leaf (.pure [])
  | e :: es, permitted => by
      simp only [Expr.featuresAll, permits_append] at permitted
      refine C.bind (evaluate calls s e permitted.1) fun v => ?_
      exact C.bind (evaluateAll calls s es permitted.2) fun vs => C.leaf (.pure _)

end

theorem condition (calls : C.Calls ctx ctx') (problem : ValueKind → TypeProblem) {e : Expr}
    (permitted : Permits P e.features) :
    C.rel s (Action.condition ctx s problem e) (Action.condition ctx' s problem e) := by
  refine C.bind (evaluate calls s e permitted) fun v => ?_
  cases v with
  | boolean b => exact C.leaf (.pure b)
  | _ => exact C.leaf (.failAt _ _)

theorem loopBound (calls : C.Calls ctx ctx') {e : Expr} (permitted : Permits P e.features) :
    C.rel s (Action.loopBound ctx s e) (Action.loopBound ctx' s e) := by
  refine C.bind (evaluate calls s e permitted) fun v => ?_
  cases v with
  | integer n => exact C.leaf (.pure n)
  | _ => exact C.leaf (.failAt _ _)

theorem dimensions (calls : C.Calls ctx ctx') {es : List Expr}
    (permitted : Permits P (Expr.featuresAll es)) :
    C.rel s (Action.dimensions ctx s es) (Action.dimensions ctx' s es) := by
  induction es with
  | nil => exact C.leaf (.pure [])
  | cons e es ih =>
      simp only [Expr.featuresAll, permits_append] at permitted
      refine C.bind (evaluate calls s e permitted.1) fun v => ?_
      cases v with
      | integer n =>
          dsimp only
          split
          · exact C.leaf (.failAt _ _)
          · exact C.bind (ih permitted.2) fun sizes => C.leaf (.pure _)
      | _ => exact C.leaf (.failAt _ _)

end Congruence

/-- A property of actions, one for each scope, that the execution of permitted
statements has as far as calls have it. Loops whose rounds are not capped stand
under a bound, and the property of their bodies has to carry over to them. -/
structure Discipline (limits : Limits) (P : Feature → Prop) (fuel : Nat) extends
    Congruence limits P where
  enter : ∀ {s : ScopeId} {α : Type} {f : ScopeId → Action α},
    (∀ inner, rel inner (f inner) (f inner)) → rel s (newBlock s >>= f) (newBlock s >>= f)
  signal : ∀ {s : ScopeId} (v : Value), rel s (signalReturn s v) (signalReturn s v)
  terminated : ∀ {s : ScopeId}, rel s (isTerminated s) (isTerminated s)
  count : ∀ {s : ScopeId} {name : String} {first last : Int64} {span : Span}
    {body : ScopeId → Action Flow}, P (.counts name) → (∀ inner, rel inner (body inner) (body inner)) →
    let x := newBlock s >>= fun loop => declare loop name (.integer first) >>= fun _ =>
      countLoop loop name last span (nested loop body) fuel
    rel s x x
  untilLoop : ∀ {s : ScopeId} {body : Action Flow} {test : Action Bool}, P .repeats →
    rel s body body → rel s test test →
    rel s (Action.untilLoop body test fuel) (Action.untilLoop body test fuel)

namespace Discipline

variable {limits : Limits} {P : Feature → Prop} {fuel : Nat} (D : Discipline limits P fuel)

/-- The action has the property of the discipline. -/
def Holds (s : ScopeId) {α : Type} (x : Action α) : Prop := D.rel s x x

variable {D} {s : ScopeId}

theorem nested {body : ScopeId → Action Flow} (related : ∀ inner, D.Holds inner (body inner)) :
    D.Holds s (nested s body) := by
  refine D.enter fun inner => D.bind (related inner) fun flow => ?_
  cases flow with
  | value _ => exact D.leaf (.pure _)
  | returned => exact D.leaf (.pure _)

theorem whileLoop (span : Span) {test : Action Bool} {body : Action Flow}
    (relatedTest : D.Holds s test) (relatedBody : D.Holds s body) (left : Nat) :
    D.Holds s (whileLoop limits.rounds span test body left) := by
  induction left with
  | zero =>
      refine D.bind relatedTest fun holds => ?_
      cases holds with
      | true => exact D.leaf (.refuseRound span)
      | false => exact D.leaf (.pure _)
  | succ left ih =>
      refine D.bind relatedTest fun holds => ?_
      cases holds with
      | true =>
          refine D.bind relatedBody fun flow => ?_
          cases flow with
          | value _ => exact ih
          | returned => exact D.leaf (.pure _)
      | false => exact D.leaf (.pure _)

variable {ctx : Context} {D : Discipline ctx.limits P ctx.fuel}

mutual

/-- The execution of a permitted statement has the property. -/
theorem execute (calls : D.Calls ctx ctx) (s : ScopeId) :
    ∀ stmt : Stmt, Permits P stmt.features →
      D.Holds s (Action.execute ctx s stmt)
  | .declare span name value, permitted => by
      simp only [Stmt.features] at permitted
      refine D.bind (Congruence.evaluate calls s value permitted) fun v => ?_
      exact D.bind (D.orAt span (D.leaf (.declare name v))) fun _ => D.leaf (.pure _)
  | .array span name sizes, permitted => by
      simp only [Stmt.features] at permitted
      refine D.bind (Congruence.dimensions calls permitted) fun sizes => ?_
      refine D.bind (D.leaf (.makeArray sizes)) fun v => ?_
      exact D.bind (D.orAt span (D.leaf (.declare name v))) fun _ => D.leaf (.pure _)
  | .routine decl, permitted => by
      simp only [Stmt.features] at permitted
      refine D.bind (D.leaf (.closure decl permitted)) fun v => ?_
      exact D.bind (D.orAt decl.span (D.leaf (.declare decl.name v))) fun _ => D.leaf (.pure _)
  | .classDecl decl, permitted => by
      simp only [Stmt.features] at permitted
      exact D.bind (D.leaf (.declareClass decl permitted)) fun _ => D.leaf (.pure _)
  | .conditional test yes none, permitted => by
      simp only [Stmt.features, permits_append] at permitted
      refine D.bind (Congruence.evaluate calls s test permitted.1.1) fun v => ?_
      refine D.bind (D.leaf (.truthy v)) fun holds => ?_
      cases holds with
      | true => exact nested fun inner => executeBlock calls inner .null yes permitted.1.2
      | false => exact D.leaf (.pure _)
  | .conditional test yes (some no), permitted => by
      simp only [Stmt.features, Stmt.featuresElse, permits_append] at permitted
      refine D.bind (Congruence.evaluate calls s test permitted.1.1) fun v => ?_
      refine D.bind (D.leaf (.truthy v)) fun holds => ?_
      cases holds with
      | true => exact nested fun inner => executeBlock calls inner .null yes permitted.1.2
      | false => exact nested fun inner => executeBlock calls inner .null no permitted.2
  | .switch subject cases, permitted => by
      simp only [Stmt.features, permits_append] at permitted
      refine D.bind (Congruence.evaluate calls s subject permitted.1) fun v => ?_
      exact executeCases calls s v cases permitted.2
  | .count span name first last body, permitted => by
      simp only [Stmt.features, List.cons_append, permits_cons, permits_append] at permitted
      refine D.bind (Congruence.loopBound calls permitted.2.1.1) fun first => ?_
      refine D.bind (Congruence.loopBound calls permitted.2.1.2) fun last => ?_
      exact D.count permitted.1 fun inner => executeBlock calls inner .null body permitted.2.2
  | .whileLoop span test body, permitted => by
      simp only [Stmt.features, permits_append] at permitted
      refine whileLoop span (Congruence.condition calls _ permitted.1) ?_ _
      exact nested fun inner => executeBlock calls inner .null body permitted.2
  | .untilLoop body test, permitted => by
      simp only [Stmt.features, List.cons_append, permits_cons, permits_append] at permitted
      refine D.untilLoop permitted.1 ?_ (Congruence.condition calls _ permitted.2.2)
      exact nested fun inner => executeBlock calls inner .null body permitted.2.1
  | .giveBack span (some e), permitted => by
      simp only [Stmt.features] at permitted
      refine D.bind (Congruence.evaluate calls s e permitted) fun v => ?_
      exact D.bind (D.orAt span (D.signal v)) fun _ => D.leaf (.pure _)
  | .giveBack span none, _ =>
      D.bind (D.leaf (.pure Value.null)) fun v =>
        D.bind (D.orAt span (D.signal v)) fun _ => D.leaf (.pure _)
  | .expression e, permitted => by
      simp only [Stmt.features] at permitted
      exact D.bind (Congruence.evaluate calls s e permitted) fun v => D.leaf (.pure _)

theorem executeBlock (calls : D.Calls ctx ctx) (s : ScopeId)
    (last : Value) :
    ∀ block : List Stmt, Permits P (Stmt.featuresAll block) →
      D.Holds s (Action.executeBlock ctx s last block)
  | [], _ => D.leaf (.pure _)
  | stmt :: rest, permitted => by
      simp only [Stmt.featuresAll, permits_append] at permitted
      refine D.bind (execute calls s stmt permitted.1) fun flow => ?_
      refine D.bind D.terminated fun ended => ?_
      cases ended with
      | true => exact D.leaf (.pure _)
      | false => exact executeBlock calls s _ rest permitted.2

theorem executeCases (calls : D.Calls ctx ctx) (s : ScopeId)
    (subject : Value) :
    ∀ cases : List Case, Permits P (Case.featuresAll cases) →
      D.Holds s (Action.executeCases ctx s subject cases)
  | [], _ => D.leaf (.pure _)
  | ⟨none, body⟩ :: rest, permitted => by
      simp only [Case.featuresAll, permits_append] at permitted
      refine D.bind (D.leaf (.pure true)) fun matched => ?_
      cases matched with
      | true => exact nested fun inner => executeBlock calls inner .null body permitted.1
      | false => exact executeCases calls s subject rest permitted.2
  | ⟨some test, body⟩ :: rest, permitted => by
      simp only [Case.featuresAll, permits_append] at permitted
      refine D.bind (Congruence.evaluate calls s test permitted.1.1) fun v => ?_
      refine D.bind (D.leaf (.valuesEqual subject v)) fun matched => ?_
      cases matched with
      | true => exact nested fun inner => executeBlock calls inner .null body permitted.1.2
      | false => exact executeCases calls s subject rest permitted.2

end

end Discipline

end Action

end Pseudocode

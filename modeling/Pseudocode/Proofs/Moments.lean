import Pseudocode.Proofs.Sound

/-!
The moments of a run.

`Made ctx s x` says how an action of evaluation in scope `s` is put together from
leaves and calls; all evaluation is of this form (`executeBlock_made`).
`Passes limits fuel left s x m active m'` says that the action `x`, started on `m`
in scope `s`, comes through the machine `m'`, at a moment at which the bodies of the
routines `active` are being executed. It follows `x` from part to part and into the
bodies of the routines that are called. An action can be taken apart in more than
one way, so the relation may list more moments than there are, never fewer: what
holds at all of them holds all the time.

An `Invariant` is a property of machines that no leaf destroys, and that scopes and
the depth of calls have nothing to do with; it holds at every moment of a run that it
holds at the start of (`Invariant.passes`).
-/

namespace Pseudocode

/-- The machine with which an action ended. -/
inductive Outcome.Leaves {α : Type} : Outcome α → Machine → Prop where
  | done (a : α) (m : Machine) : Leaves (.done a m) m
  | failed (f : Fault) (m : Machine) : Leaves (.failed f m) m
  | crashed (c : Crash) (m : Machine) : Leaves (.crashed c m) m

theorem Outcome.All.leaves {α : Type} {Q : Machine → Prop} {o : Outcome α} {m : Machine}
    (all : o.All Q) (left : o.Leaves m) : Q m := by
  cases left with
  | done a m => exact all
  | failed f m => exact all
  | crashed c m => exact all

theorem Heap.foldl_terminate_withScopes (blocks : List ScopeId) (h : Heap) :
    blocks.foldl terminate h = h.withScopes (blocks.foldl terminate h).scopes := by
  induction blocks generalizing h with
  | nil => rfl
  | cons b blocks ih => exact ih (h.terminate b)

/-- A `return` changes scopes only. -/
theorem Heap.signalReturn_withScopes (h : Heap) (s : ScopeId) (v : Value) :
    (h.signalReturn s v).2 = h.withScopes (h.signalReturn s v).2.scopes := by
  unfold signalReturn
  split
  · rfl
  · rename_i blocks b _
    dsimp only
    rw [foldl_terminate_withScopes]
    rfl

/-- The machine with the scope of a call. -/
def Machine.called (m : Machine) (scope : ScopeId) : Machine :=
  { m with heap := (m.heap.newCall scope).2 }

namespace Action

/-! ### What evaluation is made of -/

inductive Made (ctx : Context) : ScopeId → {α : Type} → Action α → Prop where
  | leaf {s : ScopeId} {α : Type} {x : Action α} (leaf : Leaf ctx.limits (fun _ => True) s x) :
      Made ctx s x
  | call {s : ScopeId} (id : RoutineId) (args : List Value) (span : Span) :
      Made ctx s (ctx.call id args span)
  | bind {s : ScopeId} {α β : Type} {x : Action α} {f : α → Action β} (first : Made ctx s x)
      (second : ∀ a, Made ctx s (f a)) : Made ctx s (x >>= f)
  | orAt {s : ScopeId} {α : Type} {x : Action α} (span : Span) (inner : Made ctx s x) :
      Made ctx s (orAt span x)
  /-- A block, in a scope of its own. -/
  | block {s : ScopeId} {α : Type} {f : ScopeId → Action α}
      (inside : ∀ inner, Made ctx inner (f inner)) : Made ctx s (newBlock s >>= f)
  /-- The variable of a counting loop moves on. -/
  | setLocal {s : ScopeId} (name : String) (v : Value) : Made ctx s (setLocal s name v)
  | signal {s : ScopeId} (v : Value) : Made ctx s (signalReturn s v)
  | terminated {s : ScopeId} : Made ctx s (isTerminated s)
  | exhausted {s : ScopeId} {α : Type} : Made ctx s (exhausted : Action α)

variable {ctx : Context} {s : ScopeId} {α β : Type}

theorem nested_made {body : ScopeId → Action Flow} (inside : ∀ inner, Made ctx inner (body inner)) :
    Made ctx s (nested s body) := by
  apply Made.block
  intro inner
  apply Made.bind (inside inner)
  intro flow
  cases flow with
  | returned => exact .leaf (.pure _)
  | value v => exact .leaf (.pure _)

theorem loopVariable_made (name : String) (span : Span) : Made ctx s (loopVariable s name span) := by
  apply Made.bind (.leaf (.lookup s name))
  intro v
  cases v with
  | integer n => exact .leaf (.pure n)
  | _ => exact .leaf (.failAt span _)

theorem countLoop_made {name : String} {last : Int64} {span : Span} {body : Action Flow}
    (inside : Made ctx s body) (fuel : Nat) : Made ctx s (countLoop s name last span body fuel) := by
  induction fuel with
  | zero => exact .exhausted
  | succ fuel ih =>
      apply Made.bind (loopVariable_made name span)
      intro current
      by_cases more : current.toInt ≤ last.toInt
      · simp only [more, if_true]
        apply Made.bind inside
        intro flow
        cases flow with
        | returned => exact .leaf (.pure _)
        | value v =>
            apply Made.bind (loopVariable_made name span)
            intro reached
            cases Integer.add? reached 1 with
            | none => exact .leaf (.pure _)
            | some next => exact .bind (.setLocal name _) fun _ => ih
      · simp only [more, if_false]
        exact .leaf (.pure _)

theorem untilLoop_made {body : Action Flow} {test : Action Bool} (inside : Made ctx s body)
    (tested : Made ctx s test) (fuel : Nat) : Made ctx s (untilLoop body test fuel) := by
  induction fuel with
  | zero => exact .exhausted
  | succ fuel ih =>
      apply Made.bind inside
      intro flow
      cases flow with
      | returned => exact .leaf (.pure _)
      | value v =>
          apply Made.bind tested
          intro ended
          cases ended with
          | true => exact .leaf (.pure _)
          | false => exact ih

/-- The discipline of actions that are made of leaves and calls. -/
def making (ctx : Context) : Discipline ctx.limits (fun _ => True) ctx.fuel where
  rel s _ x y := x = y ∧ Made ctx s x
  leaf h := ⟨rfl, .leaf h⟩
  bind := by
    rintro s α β x _ f g ⟨rfl, first⟩ second
    obtain rfl : f = g := funext fun a => (second a).1
    exact ⟨rfl, .bind first fun a => (second a).2⟩
  orAt := by
    rintro s α x _ span ⟨rfl, made⟩
    exact ⟨rfl, .orAt span made⟩
  enter inside := ⟨rfl, .block fun inner => (inside inner).2⟩
  signal v := ⟨rfl, .signal v⟩
  terminated := ⟨rfl, .terminated⟩
  count := by
    intro s name first last span body _ inside
    constructor
    · rfl
    · apply Made.block
      intro loop
      apply Made.bind (.leaf (.declare name _))
      intro _
      exact countLoop_made (nested_made fun inner => (inside inner).2) ctx.fuel
  untilLoop _ inside tested := ⟨rfl, untilLoop_made inside.2 tested.2 ctx.fuel⟩

theorem executeBlock_made (ctx : Context) (s : ScopeId) (last : Value) (block : List Stmt) :
    Made ctx s (executeBlock ctx s last block) := by
  have calls : (making ctx).Calls ctx ctx := fun _ id args span => ⟨rfl, .call id args span⟩
  exact (Discipline.executeBlock calls s last block fun _ _ => trivial).2

theorem bindParameters_made (names : List String) (vs : List Value) :
    Made ctx s (bindParameters s names vs) := by
  induction names generalizing vs with
  | nil => exact .leaf (.pure _)
  | cons name names ih =>
      cases vs with
      | nil => exact .leaf (.pure _)
      | cons v vs => exact .bind (.leaf (.declare name v)) fun _ => ih vs

theorem Made.leads {limits : Limits} {fuel left : Nat} {x : Action α}
    (made : Made (contextAt limits fuel left) s x) : Leads (fun _ => True) (some s) x := by
  induction made with
  | leaf leaf => exact .leaf leaf
  | call id args span => exact callRoutine_leads limits fuel left id args span
  | bind _ _ first second => exact first.bind second
  | orAt span _ ih => exact ih.orAt span
  | block _ ih => exact .enter ih
  | setLocal name v => exact .changeHeap fun _ _ => .bind name v
  | signal v => exact .tryChangeHeap fun _ _ => .signal v
  | terminated => exact .ofHeap _
  | exhausted => exact fun _ _ => trivial

/-! ### Calls -/

/-- The body of a routine, in a context in which `left` calls can nest. -/
def bodyAt (limits : Limits) (fuel left : Nat) (decl : RoutineDecl) (s : ScopeId) : Action Flow :=
  executeBlock (contextAt limits fuel left) s .null decl.body

/-- A call of a routine that is there, with as many arguments as it has parameters, and
with room for one more call. -/
structure Admits (limits : Limits) (m : Machine) (id : RoutineId) (args : List Value)
    (decl : RoutineDecl) (scope : ScopeId) : Prop where
  found : m.heap.routines[id]? = some ⟨decl, scope⟩
  fits : args.length = decl.params.length
  room : m.depth < limits.depth

variable {limits : Limits} {fuel left : Nat} {id : RoutineId} {args : List Value} {span : Span}
  {decl : RoutineDecl} {scope : ScopeId} {m m' : Machine}

/-- What a call does in its own scope before its result is taken. -/
def entered (run : RoutineDecl → ScopeId → Action Flow) (decl : RoutineDecl) (args : List Value)
    (s : ScopeId) : Action Flow := do
  bindParameters s decl.params args
  deeper (run decl s)

/-- The result of a call whose body has been executed. -/
def takeResult (kind : RoutineKind) (s : ScopeId) : Action Value := do
  let v ← takeReturned s
  match kind with
  | .function => return v.getD .null
  | .procedure => return .null

theorem callBody_eq (decl : RoutineDecl) (args : List Value)
    (run : RoutineDecl → ScopeId → Action Flow) (s : ScopeId) :
    callBody decl args run s = entered run decl args s >>= fun _ => takeResult decl.kind s := by
  funext m
  unfold callBody entered takeResult
  simp only [bind_apply]
  cases bindParameters s decl.params args m <;> rfl

theorem entered_leads :
    Leads (fun _ => True) (some s) (entered (bodyAt limits fuel left) decl args s) := by
  apply Leads.bind (bindParameters_leads decl.params args)
  intro _
  exact deeper_leads (executeBlock_made _ _ _ _).leads

theorem Admits.anchors (admits : Admits limits m id args decl scope) : m.heap.Anchors scope :=
  .routine _ (Array.mem_of_getElem? admits.found) rfl

/-- What happens in the scope of a call, which is new, happens where the routine was
declared. -/
theorem Admits.run (admits : Admits limits m id args decl scope) {h : Heap}
    (inside : Heap.Run (fun _ => True) (some m.heap.scopes.size) (m.called scope).heap h) :
    Heap.Run (fun _ => True) (some s) m.heap h :=
  .enter true (.inr admits.anchors) inside

/-! ### Moments -/

/-- The run of an action in scope `s`, started on the first machine, comes through the
second one while the routines in the list are being executed, the innermost first. -/
inductive Passes (limits : Limits) (fuel : Nat) :
    Nat → ScopeId → {α : Type} → Action α → Machine → List RoutineId → Machine → Prop where
  | start {left : Nat} {s : ScopeId} {α : Type} (x : Action α) (m : Machine) :
      Passes limits fuel left s x m [] m
  | finish {left : Nat} {s : ScopeId} {α : Type} {x : Action α} {m m' : Machine}
      (made : Made (contextAt limits fuel left) s x) (ended : (x m).Leaves m') :
      Passes limits fuel left s x m [] m'
  | first {left : Nat} {s : ScopeId} {α β : Type} {x : Action α} {f : α → Action β}
      {m m' : Machine} {active : List RoutineId} (inside : Passes limits fuel left s x m active m') :
      Passes limits fuel left s (x >>= f) m active m'
  | next {left : Nat} {s : ScopeId} {α β : Type} {x : Action α} {f : α → Action β} {a : α}
      {m m₁ m' : Machine} {active : List RoutineId} (made : Made (contextAt limits fuel left) s x)
      (done : x m = .done a m₁) (inside : Passes limits fuel left s (f a) m₁ active m') :
      Passes limits fuel left s (x >>= f) m active m'
  | placed {left : Nat} {s : ScopeId} {α : Type} {x : Action α} {m m' : Machine}
      {active : List RoutineId} (span : Span) (inside : Passes limits fuel left s x m active m') :
      Passes limits fuel left s (orAt span x) m active m'
  | block {left : Nat} {s : ScopeId} {α : Type} {f : ScopeId → Action α} {m m' : Machine}
      {active : List RoutineId}
      (inside : Passes limits fuel left m.heap.scopes.size (f m.heap.scopes.size)
        { m with heap := (m.heap.newBlock s).2 } active m') :
      Passes limits fuel left s (newBlock s >>= f) m active m'
  /-- The parameters of a call are bound. -/
  | entering {left : Nat} {s scope : ScopeId} {id : RoutineId} {args : List Value} {span : Span}
      {decl : RoutineDecl} {m m' : Machine} (admits : Admits limits m id args decl scope)
      (inside : Passes limits fuel left m.heap.scopes.size
        (bindParameters m.heap.scopes.size decl.params args) (m.called scope) [] m') :
      Passes limits fuel (left + 1) s (callRoutine limits fuel (left + 1) id args span) m [] m'
  /-- The body of the routine is executed, one call deeper. -/
  | body {left : Nat} {s scope : ScopeId} {id : RoutineId} {args : List Value} {span : Span}
      {decl : RoutineDecl} {m m₁ m' : Machine} {active : List RoutineId}
      (admits : Admits limits m id args decl scope)
      (bound : bindParameters m.heap.scopes.size decl.params args (m.called scope) = .done () m₁)
      (inside : Passes limits fuel left m.heap.scopes.size
        (bodyAt limits fuel left decl m.heap.scopes.size) { m₁ with depth := m₁.depth + 1 } active m') :
      Passes limits fuel (left + 1) s (callRoutine limits fuel (left + 1) id args span) m
        (active ++ [id]) m'
  /-- The body has been executed, and what it returned is still parked. -/
  | leaving {left : Nat} {s scope : ScopeId} {id : RoutineId} {args : List Value} {span : Span}
      {decl : RoutineDecl} {m m' : Machine} (admits : Admits limits m id args decl scope)
      (ended : (entered (bodyAt limits fuel left) decl args m.heap.scopes.size (m.called scope)).Leaves m') :
      Passes limits fuel (left + 1) s (callRoutine limits fuel (left + 1) id args span) m [] m'

variable {x : Action α} {active : List RoutineId}

/-- Every moment lies on a run: its heap is one that code in scope `s` can make. -/
theorem Passes.run (passes : Passes limits fuel left s x m active m') :
    Heap.Run (fun _ => True) (some s) m.heap m'.heap := by
  induction passes with
  | start x m => exact .refl
  | finish made ended => exact ((made.leads _ (Heap.carries_true _)).leaves ended).1
  | first _ ih => exact ih
  | @next left s α β x f a m m₁ m' active made done _ ih =>
      have before := made.leads m (Heap.carries_true m.heap)
      rw [done] at before
      exact before.1.trans ih
  | placed span _ ih => exact ih
  | block _ ih => exact .enter false (.inl rfl) ih
  | entering admits _ ih => exact admits.run ih
  | @body left s scope id args span decl m m₁ m' active admits bound _ ih =>
      have before := bindParameters_leads (s := m.heap.scopes.size) decl.params args
        (m.called scope) (Heap.carries_true _)
      rw [bound] at before
      exact admits.run (before.1.trans ih)
  | leaving admits ended =>
      exact admits.run ((entered_leads _ (Heap.carries_true _)).leaves ended).1

/-! ### Invariants -/

/-- A property of machines that every leaf keeps, whatever the scopes and the depth of
calls. -/
structure Invariant (I : Machine → Prop) : Prop where
  leaf : ∀ {limits : Limits} {s : ScopeId} {α : Type} {x : Action α},
    Leaf limits (fun _ => True) s x → ∀ m, I m → (x m).All I
  scopes : ∀ {m : Machine} (scopes : Array Scope), I m → I (m.withScopes scopes)
  depth : ∀ {m : Machine} (depth : Nat), I m → I { m with depth := depth }

namespace Invariant

variable {I : Machine → Prop} (invariant : Invariant I)
include invariant

/-- Where calls keep the invariant, all that is made of them keeps it. -/
theorem made_of_calls {ctx : Context}
    (calls : ∀ id args span m, I m → (ctx.call id args span m).All I) (made : Made ctx s x)
    (holds : I m) : (x m).All I := by
  induction made generalizing m with
  | leaf leaf => exact invariant.leaf leaf m holds
  | call id args span => exact calls id args span m holds
  | bind _ _ first second =>
      exact all_bind (first holds) (fun _ kept => kept) fun a _ kept => second a kept
  | orAt span _ ih => exact all_orAt span (ih holds)
  | block _ ih => exact ih m.heap.scopes.size (invariant.scopes _ holds)
  | setLocal name v => exact invariant.scopes _ holds
  | @signal s v =>
      -- The scopes are marked, which the invariant does not look at.
      have marked := invariant.scopes (m.heap.signalReturn s v).2.scopes holds
      unfold Machine.withScopes at marked
      rw [← Heap.signalReturn_withScopes] at marked
      unfold signalReturn
      rw [tryChangeHeap_apply]
      cases (m.heap.signalReturn s v).1 <;> exact marked
  | terminated => exact holds
  | exhausted => trivial

theorem deeper (kept : ∀ m, I m → (x m).All I) (holds : I m) : (deeper x m).All I := by
  rw [deeper_apply, Outcome.all_onMachine]
  have inside := kept _ (invariant.depth (m.depth + 1) holds)
  exact inside.imp fun m' holds' => invariant.depth (m'.depth - 1) holds'

theorem bindParameters (names : List String) (vs : List Value) (holds : I m) :
    (bindParameters s names vs m).All I := by
  -- Parameters are bound without calls, whatever the context.
  let ctx : Context := ⟨{}, 0, fun _ _ _ => exhausted⟩
  have calls : ∀ id args span m, I m → (ctx.call id args span m).All I := fun _ _ _ _ _ => trivial
  exact invariant.made_of_calls calls (bindParameters_made names vs) holds

theorem entered {run : RoutineDecl → ScopeId → Action Flow}
    (inside : ∀ m, I m → (run decl s m).All I) (holds : I m) :
    (entered run decl args s m).All I := by
  apply all_bind (invariant.bindParameters decl.params args holds) (fun _ kept => kept)
  intro _ m₁ bound
  exact invariant.deeper inside bound

theorem invoke {run : RoutineDecl → ScopeId → Action Flow}
    (inside : ∀ decl s m, I m → (run decl s m).All I) (holds : I m) :
    (invoke limits id args span run m).All I := by
  rw [invoke_eq]
  split
  · exact holds
  · rename_i decl scope found
    split
    · exact holds
    · split
      · exact holds
      · rw [callBody_eq]
        have called : I (m.called scope) := invariant.scopes _ holds
        apply all_bind (invariant.entered (inside decl _) called) (fun _ kept => kept)
        intro _ m₁ ran
        have taken : I { m₁ with heap := (m₁.heap.takeReturned m.heap.scopes.size).2 } :=
          invariant.scopes _ ran
        unfold takeResult
        cases decl.kind with
        | function => exact taken
        | procedure => exact taken

theorem callRoutine (left : Nat) (holds : I m) :
    (callRoutine limits fuel left id args span m).All I := by
  induction left generalizing id args span m with
  | zero => exact invariant.invoke (fun _ _ _ _ => trivial) holds
  | succ left ih =>
      refine invariant.invoke (fun decl s m holds => ?_) holds
      have made := executeBlock_made (contextAt limits fuel left) s .null decl.body
      exact invariant.made_of_calls (fun _ _ _ _ holds' => ih holds') made holds

theorem made (made : Made (contextAt limits fuel left) s x) (holds : I m) : (x m).All I :=
  invariant.made_of_calls (fun _ _ _ _ holds' => invariant.callRoutine left holds') made holds

/-- What holds when a run begins holds at each of its moments. -/
theorem passes (passes : Passes limits fuel left s x m active m') (holds : I m) : I m' := by
  induction passes with
  | start x m => exact holds
  | finish made ended => exact (invariant.made made holds).leaves ended
  | first _ ih => exact ih holds
  | next made done _ ih =>
      have before := invariant.made made holds
      rw [done] at before
      exact ih before
  | placed span _ ih => exact ih holds
  | block _ ih => exact ih (invariant.scopes _ holds)
  | entering admits _ ih => exact ih (invariant.scopes _ holds)
  | @body left s scope id args span decl m m₁ m' active admits bound _ ih =>
      have called : I (m.called scope) := invariant.scopes _ holds
      have before : (Action.bindParameters m.heap.scopes.size decl.params args (m.called scope)).All I :=
        invariant.bindParameters decl.params args called
      rw [bound] at before
      exact ih (invariant.depth _ before)
  | @leaving left s scope id args span decl m m' admits ended =>
      have called : I (m.called scope) := invariant.scopes _ holds
      have made := executeBlock_made (contextAt limits fuel left) m.heap.scopes.size .null decl.body
      exact (invariant.entered (fun _ => invariant.made made) called).leaves ended

end Invariant

end Action

namespace Session

/-- The machine occurs while the session runs the program, at a moment at which the
bodies of the routines in the list are being executed. -/
def Passes (session : Session) (p : Program) (active : List RoutineId) (m : Machine) : Prop :=
  ∃ fuel, Action.Passes session.limits fuel session.limits.depth session.globals
    (Action.executeBlock (Action.context session.limits fuel) session.globals .null p.body)
    { session.machine with depth := 0 } active m

variable {session : Session} {p : Program} {active : List RoutineId} {m : Machine}

/-- A session is at a moment of its own even when nothing runs. -/
theorem passes_idle (session : Session) : session.Passes ⟨[]⟩ [] { session.machine with depth := 0 } :=
  ⟨0, .start _ _⟩

/-- What every leaf keeps, a program keeps, however it ends. -/
theorem run_invariant {I : Machine → Prop} (invariant : Action.Invariant I)
    (holds : I session.machine) (p : Program) : I (session.run p).2.machine := by
  have made := Action.executeBlock_made (Action.contextAt session.limits ampleFuel session.limits.depth)
    session.globals .null p.body
  exact run_all holds (invariant.made made (invariant.depth 0 holds))

theorem Reachable.passes_heap (reachable : session.Reachable) (passes : session.Passes p active m) :
    m.heap.Reachable := by
  obtain ⟨fuel, passes⟩ := passes
  exact reachable.ready.reachable.run (Heap.hosts_some reachable.ready.valid) passes.run

end Session

end Pseudocode

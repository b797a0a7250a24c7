import Pseudocode.Proofs.Sound
import Pseudocode.Proofs.Spans.Evaluation

/-!
Statements that agree run alike, and so do routines and whole programs.

Every statement places the faults of what it does, with one exception: a counting
loop declares and reads its variable without a place of its own. There the fault
cannot arise, since the scope of the loop is new when the variable is declared, and
no run takes a name away from a scope.
-/

namespace Pseudocode

variable {ρ : Span → Span → Prop}

/-! ### Scopes of loops -/

namespace Heap

theorem lookup_of_hasLocal {h : Heap} {s : ScopeId} {name : String}
    (bound : h.hasLocal s name = true) : ∃ v, h.lookup s name = .ok v := by
  obtain ⟨v, value⟩ := Option.isSome_iff_exists.mp bound
  exact ⟨v, lookup_of_local? value⟩

/-- A new scope binds nothing yet. -/
theorem declare_newBlock (h : Heap) (s : ScopeId) (name : String) (v : Value) :
    (h.newBlock s).2.declare h.scopes.size name v =
      (.ok (), (h.newBlock s).2.setLocal h.scopes.size name v) := by
  have empty : (h.newBlock s).2.hasLocal h.scopes.size name = false := by
    unfold hasLocal local?
    rw [show (h.newBlock s).2.scope? h.scopes.size = _ from scope?_newScope .., if_pos rfl]
    rfl
  simp only [declare, empty]
  rfl

/-! ### The class above another -/

/-- What is found of the class above one: the same class, or faults of one cause. -/
inductive ParentAgree (ρ : Span → Span → Prop) :
    Except Fault (Option ClassId) → Except Fault (Option ClassId) → Prop where
  | found (parent : Option ClassId) : ParentAgree ρ (.ok parent) (.ok parent)
  | fault (cause : Cause) {s s' : Span} (placed : ρ s s') :
      ParentAgree ρ (.error ⟨cause, s⟩) (.error ⟨cause, s'⟩)

theorem Agree.parentClass {h h' : Heap} (agree : h.Agree ρ h') {decl decl' : ClassDecl}
    (same : decl.Agree ρ decl') (s : ScopeId) :
    ParentAgree ρ (h.parentClass decl s) (h'.parentClass decl' s) := by
  cases same with
  | decl name above _ _ =>
      cases above with
      | none => exact .found none
      | @some p p' above =>
          obtain ⟨parent, span⟩ := p
          obtain ⟨parent', span'⟩ := p'
          obtain ⟨rfl, placed⟩ : parent' = parent ∧ ρ span span' := above
          unfold Heap.parentClass
          dsimp only
          rw [agree.lookup]
          split
          · exact .fault _ placed
          · split
            · exact .fault _ placed
            · exact .found _
            · exact .fault _ placed

end Heap

namespace Action

/-- The start of a counting loop always works. -/
theorem newLoop_apply {α : Type} (around : ScopeId) (name : String) (v : Value)
    (f : ScopeId → Action α) (m : Machine) :
    (newBlock around >>= fun loop => declare loop name v >>= fun _ => f loop) m =
      f m.heap.scopes.size
        { m with heap := (m.heap.newBlock around).2.setLocal m.heap.scopes.size name v } := by
  have made : newBlock around m =
      .done m.heap.scopes.size { m with heap := (m.heap.newBlock around).2 } := rfl
  rw [bind_apply, made]
  dsimp only
  rw [bind_apply]
  simp only [declare, tryChangeHeap_apply, Heap.declare_newBlock]

namespace Agree

/-! ### Blocks and loops -/

theorem newBlock {φ : Span → Span → Prop} (s : ScopeId) : Agree ρ φ Eq (newBlock s) (newBlock s) :=
  codeless fun _ _ _ => rfl

theorem isTerminated {φ : Span → Span → Prop} (s : ScopeId) :
    Agree ρ φ Eq (isTerminated s) (isTerminated s) := by
  refine ofHeap fun h h' agree => ?_
  unfold Heap.isTerminated Heap.scope?
  rw [agree.scopes]

theorem nested (s : ScopeId) {block block' : ScopeId → Action Flow}
    (inside : ∀ inner, Agree ρ ρ Eq (block inner) (block' inner)) :
    Agree ρ ρ Eq (nested s block) (nested s block') := by
  refine andThen (newBlock s) fun inner => andThen (inside inner) fun flow => ?_
  cases flow with
  | returned => exact pure rfl
  | value v => exact pure rfl

theorem refuseRound (limit : Nat) {s s' : Span} (placed : ρ s s') :
    Agree ρ ρ Eq (refuseRound limit s : Action Flow) (refuseRound limit s') := by
  unfold Action.refuseRound
  split
  · exact failAt placed _
  · exact crash _

theorem whileLoop (limit : Nat) {s s' : Span} (placed : ρ s s') {test test' : Action Bool}
    {body body' : Action Flow} (tested : Agree ρ ρ Eq test test') (inside : Agree ρ ρ Eq body body')
    (left : Nat) :
    Agree ρ ρ Eq (whileLoop limit s test body left) (whileLoop limit s' test' body' left) := by
  induction left with
  | zero =>
      refine andThen tested fun more => ?_
      cases more with
      | true => exact refuseRound limit placed
      | false => exact pure rfl
  | succ left ih =>
      refine andThen tested fun more => ?_
      cases more with
      | false => exact pure rfl
      | true =>
          refine andThen inside fun flow => ?_
          cases flow with
          | returned => exact pure rfl
          | value v => exact ih

theorem untilLoop {test test' : Action Bool} {body body' : Action Flow}
    (inside : Agree ρ ρ Eq body body') (tested : Agree ρ ρ Eq test test') (fuel : Nat) :
    Agree ρ ρ Eq (untilLoop body test fuel) (untilLoop body' test' fuel) := by
  induction fuel with
  | zero => exact exhausted
  | succ fuel ih =>
      refine andThen inside fun flow => ?_
      cases flow with
      | returned => exact pure rfl
      | value v =>
          refine andThen tested fun ended => ?_
          cases ended with
          | true => exact pure rfl
          | false => exact ih

section Count

variable {loop : ScopeId} {name : String} {s s' : Span} {m m' : Machine}

/-- The variable of a loop is there; it may be no integer. -/
theorem loopVariable (placed : ρ s s') (agree : m.Agree ρ m')
    (bound : m.heap.hasLocal loop name = true) {f f' : Int64 → Action Flow}
    (rest : ∀ n, Outcome.Agree ρ ρ Eq (f n m) (f' n m')) :
    Outcome.Agree ρ ρ Eq ((loopVariable loop name s >>= f) m) ((loopVariable loop name s' >>= f') m') := by
  obtain ⟨v, value⟩ := Heap.lookup_of_hasLocal bound
  have value' := (agree.heap.lookup loop name).trans value
  unfold Action.loopVariable Action.lookup
  simp only [bind_apply, Action.tryOfHeap, value, value']
  cases v with
  | integer n => exact rest n
  | _ => exact .failed _ placed agree

/-- The rounds of a loop, as long as its variable is there. -/
theorem countLoop (placed : ρ s s') (last : Int64) {body body' : Action Flow}
    (inside : Agree ρ ρ Eq body body') (leads : Leads (fun _ => True) (some loop) body) (fuel : Nat)
    (agree : m.Agree ρ m') (bound : m.heap.hasLocal loop name = true) :
    Outcome.Agree ρ ρ Eq (countLoop loop name last s body fuel m)
      (countLoop loop name last s' body' fuel m') := by
  induction fuel generalizing m m' with
  | zero => exact .exhausted
  | succ fuel ih =>
      unfold Action.countLoop
      refine loopVariable placed agree bound fun current => ?_
      split
      · have ends := inside m m' agree
        have reached := leads m m.heap.carries_true
        rw [bind_apply, bind_apply]
        generalize body m = o, body' m' = o' at ends reached
        cases ends with
        | failed cause found left => exact .failed cause found left
        | crashed c left => exact .crashed c left
        | exhausted => exact .exhausted
        | @done flow _ m₁ m₁' related agree₁ =>
            subst related
            -- The body may rebind the variable, but a name stays bound once it is.
            have bound₁ : m₁.heap.hasLocal loop name = true := reached.1.hasLocal bound
            cases flow with
            | returned => exact .done rfl agree₁
            | value v =>
                refine loopVariable placed agree₁ bound₁ fun now => ?_
                cases Integer.add? now 1 with
                | none => exact .done rfl agree₁
                | some next =>
                    have valid := Heap.lt_of_hasLocal bound₁
                    have agree₂ : Machine.Agree ρ
                        { m₁ with heap := m₁.heap.setLocal loop name (.integer next) }
                        { m₁' with heap := m₁'.heap.setLocal loop name (.integer next) } := by
                      refine ⟨?_, agree₁.world, agree₁.depth⟩
                      exact agree₁.heap.setLocal loop name (.integer next)
                    exact ih agree₂ (Heap.hasLocal_setLocal_self name _ valid)
      · exact .done rfl agree

/-- A whole counting loop. Its variable is declared in a new scope. -/
theorem count (placed : ρ s s') (around : ScopeId) (first last : Int64)
    {body body' : ScopeId → Action Flow}
    (inside : ∀ inner, Agree ρ ρ Eq (body inner) (body' inner))
    (leads : ∀ inner, Leads (fun _ => True) (some inner) (body inner)) (fuel : Nat) :
    Agree ρ ρ Eq
      (Action.newBlock around >>= fun loop => Action.declare loop name (.integer first) >>= fun _ =>
        Action.countLoop loop name last s (Action.nested loop body) fuel)
      (Action.newBlock around >>= fun loop => Action.declare loop name (.integer first) >>= fun _ =>
        Action.countLoop loop name last s' (Action.nested loop body') fuel) := by
  intro m m' agree
  have grown : (m.heap.newBlock around).2.scopes.size = m.heap.scopes.size + 1 :=
    Heap.size_newScope ..
  have entered : Leads (fun _ => True) (some m.heap.scopes.size)
      (Action.nested m.heap.scopes.size body) := by
    refine .enter fun inner => .bind (leads inner) fun flow => ?_
    cases flow with
    | returned => exact .of_unscoped (.pure _)
    | value v => exact .of_unscoped (.pure _)
  rw [newLoop_apply, newLoop_apply, agree.heap.scopes]
  refine countLoop placed last (nested _ inside) entered fuel ?_ ?_
  · exact ⟨(agree.heap.newScope _).setLocal _ name _, agree.world, agree.depth⟩
  · exact Heap.hasLocal_setLocal_self name _ (by rw [grown]; exact Nat.lt_succ_self _)

end Count

/-! ### Statements -/

theorem getDepth {φ : Span → Span → Prop} : Agree ρ φ Eq getDepth getDepth :=
  fun _ _ agree => .done agree.depth.symm agree

section Statements

variable {ctx ctx' : Context} {e e' : Expr}

theorem condition (settles : Settles ρ) (calls : Calls ρ ctx ctx') (s : ScopeId)
    (problem : ValueKind → TypeProblem) (same : e.Agree ρ e') :
    Agree ρ ρ Eq (condition ctx s problem e) (condition ctx' s problem e') := by
  refine andThen (evaluate settles calls s same) fun v => ?_
  cases v with
  | boolean b => exact pure rfl
  | _ => exact failAt same.span _

theorem loopBound (settles : Settles ρ) (calls : Calls ρ ctx ctx') (s : ScopeId)
    (same : e.Agree ρ e') : Agree ρ ρ Eq (loopBound ctx s e) (loopBound ctx' s e') := by
  refine andThen (evaluate settles calls s same) fun v => ?_
  cases v with
  | integer n => exact pure rfl
  | _ => exact failAt same.span _

theorem dimensions (settles : Settles ρ) (calls : Calls ρ ctx ctx') (s : ScopeId)
    {es es' : List Expr} (same : List.Forall₂ (Expr.Agree ρ) es es') :
    Agree ρ ρ Eq (dimensions ctx s es) (dimensions ctx' s es') := by
  induction same with
  | nil => exact pure rfl
  | cons first _ ih =>
      refine andThen (evaluate settles calls s first) fun v => ?_
      cases v with
      | integer n =>
          dsimp only
          split
          · exact failAt first.span _
          · exact andThen ih fun sizes => pure rfl
      | _ => exact failAt first.span _

theorem makeArray {φ : Span → Span → Prop} (room : Nat) (sizes : List Nat) :
    Agree ρ φ Eq (Action.makeArray room sizes) (Action.makeArray room sizes) := by
  unfold Action.makeArray
  cases Heap.oversized? room sizes with
  | some size => exact crash _
  | none =>
      refine changeHeap fun h h' agree => ?_
      obtain ⟨v, arrays, readers, writers, here, there⟩ :=
        Native.makeArray_patches sizes h h' agree.resembles
      rw [here, there]
      exact .same v (agree.patch arrays readers writers)

theorem declareAt (settles : Settles ρ) {at_ at' : Span} (placed : ρ at_ at') (s : ScopeId)
    (name : String) (v : Value) {α : Type} (a : α) :
    Agree ρ ρ Eq (Action.orAt at_ (Action.declare s name v) >>= fun _ => Pure.pure a)
      (Action.orAt at' (Action.declare s name v) >>= fun _ => Pure.pure a) :=
  andThen (orAt settles placed (declare s name v)) fun _ => pure rfl

theorem declareClass (settles : Settles ρ) (s : ScopeId) {decl decl' : ClassDecl}
    (same : decl.Agree ρ decl') : Agree ρ ρ Eq (declareClass decl s) (declareClass decl' s) := by
  refine bind (ofHeap fun _ _ agree => agree.parentClass same s) ?_
  intro found found' related
  cases related with
  | fault cause placed => exact failAt placed cause
  | found parent =>
      refine andThen (changeHeap fun _ _ agree => agree.newClass ⟨same, rfl, rfl⟩) fun v => ?_
      rw [same.name]
      exact declareAt settles same.span s decl.name v v

end Statements

section Running

variable {limits : Limits} {fuel left : Nat}

/-- Calls agree in code inside which at most `left` of them can nest. -/
def Closed (ρ : Span → Span → Prop) (limits : Limits) (fuel left : Nat) : Prop :=
  Calls ρ (contextAt limits fuel left) (contextAt limits fuel left)

mutual

theorem execute (settles : Settles ρ) (calls : Closed ρ limits fuel left) (s : ScopeId) :
    ∀ {stmt stmt' : Stmt}, stmt.Agree ρ stmt' →
      Agree ρ ρ Eq (execute (contextAt limits fuel left) s stmt)
        (Action.execute (contextAt limits fuel left) s stmt')
  | .declare .., _, .declare name placed value => by
      refine andThen (evaluate settles calls s value) fun v => ?_
      exact declareAt settles placed s name v _
  | .array .., _, .array name placed sizes => by
      refine andThen (dimensions settles calls s sizes) fun sizes => ?_
      refine andThen (makeArray _ sizes) fun v => ?_
      exact declareAt settles placed s name v _
  | .routine decl, _, .routine same => by
      refine andThen (changeHeap fun _ _ agree => agree.closure same s) fun v => ?_
      rw [same.name]
      exact declareAt settles same.span s decl.name v _
  | .classDecl _, _, .classDecl same => andThen (declareClass settles s same) fun v => pure rfl
  | .conditional _ _ none, _, .once test then_ => by
      refine andThen (evaluate settles calls s test) fun v => ?_
      refine andThen (ofHeap fun _ _ agree => (agree.resembles.truthy v).symm) fun holds => ?_
      cases holds with
      | true => exact nested s fun inner => executeBlock settles calls inner .null then_
      | false => exact pure rfl
  | .conditional _ _ (some _), _, .either test then_ else_ => by
      refine andThen (evaluate settles calls s test) fun v => ?_
      refine andThen (ofHeap fun _ _ agree => (agree.resembles.truthy v).symm) fun holds => ?_
      cases holds with
      | true => exact nested s fun inner => executeBlock settles calls inner .null then_
      | false => exact nested s fun inner => executeBlock settles calls inner .null else_
  | .switch .., _, .switch subject arms =>
      andThen (evaluate settles calls s subject) fun v => executeCases settles calls s v arms
  | .count _ _ _ _ body, _, .count name placed first last inside => by
      refine andThen (loopBound settles calls s first) fun a => ?_
      refine andThen (loopBound settles calls s last) fun b => ?_
      refine count placed s a b (fun inner => executeBlock settles calls inner .null inside) ?_ fuel
      exact fun inner => executeBlock_leads limits fuel left inner .null fun _ _ => trivial
  | .whileLoop .., _, .whileLoop placed test inside => by
      refine whileLoop _ placed (condition settles calls s _ test) ?_ _
      exact nested s fun inner => executeBlock settles calls inner .null inside
  | .untilLoop .., _, .untilLoop inside test => by
      refine untilLoop ?_ (condition settles calls s _ test) fuel
      exact nested s fun inner => executeBlock settles calls inner .null inside
  | .giveBack _ none, _, .giveBack placed .none => by
      refine andThen (pure rfl) fun v => ?_
      exact andThen (orAt settles placed (signalReturn s v)) fun _ => pure rfl
  | .giveBack _ (some _), _, .giveBack placed (.some value) => by
      refine andThen (evaluate settles calls s value) fun v => ?_
      exact andThen (orAt settles placed (signalReturn s v)) fun _ => pure rfl
  | .expression _, _, .expression same => andThen (evaluate settles calls s same) fun v => pure rfl

theorem executeBlock (settles : Settles ρ) (calls : Closed ρ limits fuel left) (s : ScopeId)
    (last : Value) : ∀ {block block' : List Stmt}, List.Forall₂ (Stmt.Agree ρ) block block' →
      Agree ρ ρ Eq (executeBlock (contextAt limits fuel left) s last block)
        (Action.executeBlock (contextAt limits fuel left) s last block')
  | [], _, .nil => pure rfl
  | _ :: _, _, .cons first rest => by
      refine andThen (execute settles calls s first) fun flow => ?_
      refine andThen (isTerminated s) fun ended => ?_
      cases ended with
      | true => exact pure rfl
      | false => exact executeBlock settles calls s _ rest

theorem executeCases (settles : Settles ρ) (calls : Closed ρ limits fuel left) (s : ScopeId)
    (subject : Value) : ∀ {arms arms' : List Case}, List.Forall₂ (Case.Agree ρ) arms arms' →
      Agree ρ ρ Eq (executeCases (contextAt limits fuel left) s subject arms)
        (Action.executeCases (contextAt limits fuel left) s subject arms')
  | [], _, .nil => pure rfl
  | ⟨none, _⟩ :: _, _, .cons (.arm .none inside) _ => 
      nested s fun inner => executeBlock settles calls inner .null inside
  | ⟨some _, _⟩ :: _, _, .cons (.arm (.some test) inside) rest => by
      refine andThen (evaluate settles calls s test) fun v => ?_
      refine andThen (ofHeap fun _ _ agree => (agree.resembles.valuesEqual subject v).symm) fun holds => ?_
      cases holds with
      | true => exact nested s fun inner => executeBlock settles calls inner .null inside
      | false => exact executeCases settles calls s subject rest

end

/-! ### Routines -/

theorem bindParameters (s : ScopeId) (names : List String) (vs : List Value) :
    Agree ρ (Near ρ) Eq (bindParameters s names vs) (bindParameters s names vs) := by
  induction names generalizing vs with
  | nil => exact pure rfl
  | cons name names ih =>
      cases vs with
      | nil => exact pure rfl
      | cons v vs => exact andThen (declare s name v) fun _ => ih vs

theorem invoke (limits : Limits) (id : RoutineId) (args : List Value) {s s' : Span} (placed : ρ s s')
    {run run' : RoutineDecl → ScopeId → Action Flow}
    (runs : ∀ {decl decl' : RoutineDecl}, decl.Agree ρ decl' → ∀ inner,
      Agree ρ ρ Eq (run decl inner) (run' decl' inner)) :
    Agree ρ (Near ρ) Eq (invoke limits id args s run) (invoke limits id args s' run') := by
  have placed' : Near ρ s s' := .inr placed
  refine bind (ofHeap fun _ _ agree => agree.routine id) ?_
  intro found found' same
  cases same with
  | none => exact fail _
  | @some r r' same =>
      obtain ⟨decl, scope⟩ := r
      obtain ⟨decl', scope'⟩ := r'
      obtain ⟨decls, rfl⟩ : decl.Agree ρ decl' ∧ scope' = scope := ⟨same.decl, same.scope⟩
      have ran := fun inner => (deeper (runs decls inner)).near
      cases decls with
      | decl kind name params inside _ =>
          dsimp only
          split
          · exact failAt placed' _
          · refine andThen getDepth fun depth => ?_
            split
            · exact failAt placed' _
            · refine andThen (codeless fun _ _ _ => rfl) fun inner => ?_
              refine andThen (bindParameters inner params args) fun _ => ?_
              refine andThen (ran inner) fun _ => ?_
              refine andThen (codeless fun _ _ _ => rfl) fun v => ?_
              cases kind with
              | function => exact pure rfl
              | procedure => exact pure rfl

/-- Calls agree, by induction on how many of them can nest. -/
theorem callRoutine (settles : Settles ρ) (limits : Limits) (fuel left : Nat) :
    Closed ρ limits fuel left := by
  induction left with
  | zero => exact fun id args _ _ placed => invoke limits id args placed fun _ _ => exhausted
  | succ left ih =>
      intro id args s s' placed
      refine invoke limits id args placed ?_
      intro decl decl' same inner
      cases same with
      | decl _ _ _ inside _ => exact executeBlock settles ih inner .null inside

end Running

end Agree

end Action

/-! ### Sessions -/

/-- Sessions whose machines agree. -/
structure Session.Agree (ρ : Span → Span → Prop) (a b : Session) : Prop where
  machine : a.machine.Agree ρ b.machine
  globals : b.globals = a.globals
  limits : b.limits = a.limits

/-- What two runs gave: the same value, faults of one cause, the same crash, or neither an
answer. -/
inductive Session.Answer.Agree (ρ : Span → Span → Prop) :
    Except Failure Value → Except Failure Value → Prop where
  | value (v : Value) : Agree ρ (.ok v) (.ok v)
  | fault (cause : Cause) {s s' : Span} (placed : ρ s s') :
      Agree ρ (.error (.fault ⟨cause, s⟩)) (.error (.fault ⟨cause, s'⟩))
  | crashed (c : Crash) : Agree ρ (.error (.crashed c)) (.error (.crashed c))
  | exhausted : Agree ρ (.error .exhausted) (.error .exhausted)

/-- Programs that agree give the same answers on sessions that agree, and leave
sessions that agree. -/
theorem Session.Agree.run (settles : Settles ρ) {a b : Session} (agree : a.Agree ρ b)
    {p p' : Program} (same : p.Agree ρ p') :
    Answer.Agree ρ (a.run p).1 (b.run p').1 ∧ (a.run p).2.Agree ρ (b.run p').2 := by
  obtain ⟨⟨heap, world, depth⟩, globals, limits⟩ := a
  obtain ⟨⟨heap', world', depth'⟩, globals', limits'⟩ := b
  obtain ⟨⟨heaps, worlds, depths⟩, rfl, rfl⟩ := agree
  have ends := Action.Agree.executeBlock settles
    (Action.Agree.callRoutine settles limits' ampleFuel limits'.depth) globals' .null same
    ⟨heap, world, 0⟩ ⟨heap', world', 0⟩ ⟨heaps, worlds, rfl⟩
  unfold Session.run
  dsimp only
  change Outcome.Agree ρ ρ Eq (Action.executeBlock (Action.context limits' ampleFuel) ..)
    (Action.executeBlock (Action.context limits' ampleFuel) ..) at ends
  generalize Action.executeBlock (Action.context limits' ampleFuel) globals' .null p.body
    ⟨heap, world, 0⟩ = o, Action.executeBlock (Action.context limits' ampleFuel) globals' .null p'.body
    ⟨heap', world', 0⟩ = o' at ends
  cases ends with
  | @done flow _ m m' related left =>
      subst related
      cases flow with
      | value v => exact ⟨.value v, left, rfl, rfl⟩
      | returned => exact ⟨.value .null, left, rfl, rfl⟩
  | failed cause placed left => exact ⟨.fault cause placed, left, rfl, rfl⟩
  | crashed c left => exact ⟨.crashed c, left, rfl, rfl⟩
  | exhausted => exact ⟨.exhausted, ⟨heaps, worlds, depths⟩, rfl, rfl⟩

end Pseudocode

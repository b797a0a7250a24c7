import Pseudocode.Proofs.Effects

/-!
Every run is made of the changes that `Heap.Run` lists.

`Leads P own x` says that the action `x`, however it ends, leaves a heap that a
run in its own scope can reach, at the depth of calls at which it began.
`leading` is the discipline of such actions, and `callRoutine_leads` closes the
recursion through calls: the body of a routine runs in a scope of its own, at
the place of its declaration.
-/

namespace Pseudocode

namespace Action

variable {P : Feature → Prop} {own : Option ScopeId} {s : ScopeId} {α β : Type}

def Leads (P : Feature → Prop) (own : Option ScopeId) (x : Action α) : Prop :=
  ∀ m, m.heap.Carries P → (x m).All fun m' => Heap.Run P own m.heap m'.heap ∧ m'.depth = m.depth

namespace Leads

theorem of_unscoped {x : Action α} (unscoped : Unscoped x) : Leads P own x := by
  intro m _
  refine ((unscoped.keeps m).and (unscoped.scopes_eq m)).imp ?_
  intro m' ⟨⟨code, depth⟩, scopes⟩
  exact ⟨.aside scopes code, depth⟩

theorem ofHeap (f : Heap → α) : Leads P own (ofHeap f) :=
  fun _ _ => ⟨.refl, rfl⟩

theorem tryOfHeap (f : Heap → Except Cause α) : Leads P own (tryOfHeap f) := by
  intro m _
  unfold Action.tryOfHeap
  cases f m.heap <;> exact ⟨.refl, rfl⟩

theorem changeHeap {f : Heap → α × Heap}
    (run : ∀ h : Heap, h.Carries P → Heap.Run P own h (f h).2) : Leads P own (changeHeap f) :=
  fun m carries => ⟨run m.heap carries, rfl⟩

theorem tryChangeHeap {f : Heap → Except Cause α × Heap}
    (run : ∀ h : Heap, h.Carries P → Heap.Run P own h (f h).2) : Leads P own (tryChangeHeap f) := by
  intro m carries
  rw [tryChangeHeap_apply]
  cases (f m.heap).1 <;> exact ⟨run m.heap carries, rfl⟩

theorem bind {x : Action α} {f : α → Action β} (first : Leads P own x)
    (second : ∀ a, Leads P own (f a)) : Leads P own (x >>= f) := by
  intro m carries
  refine all_bind (first m carries) (fun _ reached => reached) ?_
  intro a m' ⟨run, depth⟩
  refine (second a m' (run.carries carries)).imp ?_
  intro m'' ⟨run', depth'⟩
  exact ⟨run.trans run', depth'.trans depth⟩

theorem orAt {x : Action α} (span : Span) (leads : Leads P own x) : Leads P own (orAt span x) :=
  fun m carries => all_orAt span (leads m carries)

/-- A block runs in a scope inside the scope of the statement. -/
theorem enter {f : ScopeId → Action α} (inside : ∀ inner, Leads P (some inner) (f inner)) :
    Leads P (some s) (newBlock s >>= f) := by
  intro m carries
  have inner := inside m.heap.scopes.size { m with heap := (m.heap.newBlock s).2 }
    ⟨carries.routines, carries.classes⟩
  refine inner.imp ?_
  intro m' ⟨run, depth⟩
  exact ⟨.enter false (.inl rfl) run, depth⟩

theorem nested {body : ScopeId → Action Flow} (inside : ∀ inner, Leads P (some inner) (body inner)) :
    Leads P (some s) (nested s body) := by
  apply enter
  intro inner
  apply bind (inside inner)
  intro flow
  cases flow with
  | value _ => exact of_unscoped (.pure _)
  | returned => exact of_unscoped (.pure _)

theorem declare (name : String) (v : Value) : Leads P (some s) (declare s name v) :=
  tryChangeHeap fun h _ => h.declare_run s name v

theorem declareClass {decl : ClassDecl} (permitted : Permits P decl.features) :
    Leads P (some s) (declareClass decl s) := by
  intro m carries
  cases found : m.heap.parentClass decl s with
  | error f =>
      simp only [Action.declareClass, bind_apply, Action.ofHeap, found]
      exact ⟨.refl, rfl⟩
  | ok parent =>
      -- The class is made from what was found in the same heap.
      have made : Heap.Run P (some s) m.heap (m.heap.newClass ⟨decl, s, parent⟩).2 :=
        .classCell decl parent permitted found
      have named : Leads P (some s) (do
          Action.orAt decl.span (Action.declare s decl.name (m.heap.newClass ⟨decl, s, parent⟩).1)
          return (m.heap.newClass ⟨decl, s, parent⟩).1) :=
        bind (orAt decl.span (declare decl.name _)) fun _ => of_unscoped (.pure _)
      have rest := named { m with heap := (m.heap.newClass ⟨decl, s, parent⟩).2 }
        (made.carries carries)
      simp only [Action.declareClass, bind_apply, Action.ofHeap, found]
      refine rest.imp ?_
      rintro m' ⟨run, depth⟩
      exact ⟨made.trans run, depth⟩

theorem leaf {limits : Limits} {x : Action α} (leaf : Leaf limits P s x) : Leads P (some s) x := by
  cases leaf with
  | pure a => exact of_unscoped (.pure a)
  | fail cause => exact of_unscoped (.fail cause)
  | failAt span cause => exact of_unscoped (.failAt span cause)
  | lookup t name => exact tryOfHeap _
  | assign name v permitted => exact changeHeap fun h _ => .assign name v permitted
  | assignIndexed name i v =>
      refine tryChangeHeap fun h _ => ?_
      unfold Heap.assignIndexed
      split
      · have stored := (Heap.storeElement_blind ‹_› i v)
        have scopes := stored.commutes h h.scopes
        exact .aside (congrArg (fun r => r.2.scopes) scopes) (stored.keeps h)
      · exact .refl
      · exact .refl
  | storeAt container i v => exact of_unscoped (.storeAt container i v)
  | storeMember object field v =>
      cases object with
      | object o => exact tryChangeHeap fun h _ => h.setMember_run o field v
      | _ => exact of_unscoped (.fail _)
  | binary op l r => exact tryOfHeap _
  | unary op v => exact tryOfHeap _
  | member object field =>
      unfold Action.member
      split
      · exact tryOfHeap _
      · exact tryOfHeap _
      · exact of_unscoped (.ofExcept _)
  | index object i => exact of_unscoped (.index object i)
  | callNative f args => exact of_unscoped (.callNative f args)
  | callMethod m receiver args => exact of_unscoped (.callMethod m receiver args)
  | buildObject c => exact tryChangeHeap fun h carries => (h.buildFrom_run (c + 1) c carries).1
  | layer o name => exact ofHeap _
  | className c => exact ofHeap _
  | truthy v => exact ofHeap _
  | valuesEqual u v => exact ofHeap _
  | declare name v => exact declare name v
  | makeArray sizes => exact of_unscoped (.makeArray _ sizes)
  | refuseRound span => exact of_unscoped (.refuseRound _ span)
  | closure decl permitted => exact changeHeap fun h _ => h.closure_run s permitted
  | declareClass decl permitted => exact declareClass permitted

/-! ### Loops -/

theorem loopVariable (name : String) (span : Span) : Leads P (some s) (loopVariable s name span) := by
  refine bind (tryOfHeap _) fun v => ?_
  cases v with
  | integer n => exact of_unscoped (.pure n)
  | _ => exact of_unscoped (.failAt span _)

theorem countLoop {name : String} {last : Int64} {span : Span} {body : Action Flow}
    (inside : Leads P (some s) body) (fuel : Nat) : Leads P (some s) (countLoop s name last span body fuel) := by
  induction fuel with
  | zero => exact fun _ _ => trivial
  | succ fuel ih =>
      refine bind (loopVariable name span) fun current => ?_
      by_cases more : current.toInt ≤ last.toInt
      · simp only [more, if_true]
        refine bind inside fun flow => ?_
        cases flow with
        | returned => exact of_unscoped (.pure _)
        | value v =>
            refine bind (loopVariable name span) fun reached => ?_
            cases Integer.add? reached 1 with
            | none => exact of_unscoped (.pure _)
            | some next => exact bind (changeHeap fun h _ => .bind name _) fun _ => ih
      · simp only [more, if_false]
        exact of_unscoped (.pure _)

theorem untilLoop {body : Action Flow} {test : Action Bool} (inside : Leads P own body)
    (tested : Leads P own test) (fuel : Nat) : Leads P own (untilLoop body test fuel) := by
  induction fuel with
  | zero => exact fun _ _ => trivial
  | succ fuel ih =>
      refine bind inside fun flow => ?_
      cases flow with
      | returned => exact of_unscoped (.pure _)
      | value v =>
          refine bind tested fun ended => ?_
          cases ended with
          | true => exact of_unscoped (.pure _)
          | false => exact ih

end Leads

/-- How a block ends, given how its last statement does: a block has no value. -/
def endOfBlock : Flow → Flow
  | .returned => .returned
  | .value _ => .value .null

/-- A block runs in a scope that is made for it. -/
theorem nested_apply (s : ScopeId) (block : ScopeId → Action Flow) (m : Machine) :
    nested s block m =
      (block m.heap.scopes.size >>= fun flow => Pure.pure (endOfBlock flow))
        { m with heap := (m.heap.newBlock s).2 } := by
  have made : newBlock s m = .done m.heap.scopes.size { m with heap := (m.heap.newBlock s).2 } := rfl
  rw [nested, bind_apply, made]
  dsimp only
  rw [bind_apply, bind_apply]
  cases block m.heap.scopes.size { m with heap := (m.heap.newBlock s).2 } with
  | done flow m' => cases flow <;> rfl
  | failed _ _ | crashed _ _ | exhausted => rfl

/-- The discipline of actions that lead where runs can. -/
def leading (limits : Limits) (P : Feature → Prop) (fuel : Nat) : Discipline limits P fuel where
  rel s _ x y := x = y ∧ Leads P (some s) x
  leaf h := ⟨rfl, .leaf h⟩
  bind := by
    rintro s α β x _ f g ⟨rfl, first⟩ second
    obtain rfl : f = g := funext fun a => (second a).1
    exact ⟨rfl, first.bind fun a => (second a).2⟩
  orAt := by
    rintro s α x _ span ⟨rfl, leads⟩
    exact ⟨rfl, leads.orAt span⟩
  enter inside := ⟨rfl, .enter fun inner => (inside inner).2⟩
  signal v := ⟨rfl, .tryChangeHeap fun _ _ => .signal v⟩
  terminated := ⟨rfl, .ofHeap _⟩
  count := by
    intro s name first last span body permitted inside
    refine ⟨rfl, .enter fun loop => .bind (.declare name _) fun _ => ?_⟩
    exact .countLoop (.nested fun inner => (inside inner).2) fuel
  untilLoop _ inside tested := ⟨rfl, .untilLoop inside.2 tested.2 fuel⟩

/-! ### Calls -/

theorem bindParameters_leads (names : List String) (vs : List Value) :
    Leads P (some s) (bindParameters s names vs) := by
  induction names generalizing vs with
  | nil => exact .of_unscoped (.pure _)
  | cons name names ih =>
      cases vs with
      | nil => exact .of_unscoped (.pure _)
      | cons v vs => exact .bind (.declare name v) fun _ => ih vs

theorem deeper_leads {x : Action α} (leads : Leads P own x) : Leads P own (deeper x) := by
  intro m carries
  rw [deeper_apply, Outcome.all_onMachine]
  refine (leads { m with depth := m.depth + 1 } carries).imp ?_
  intro m' ⟨run, depth⟩
  exact ⟨run, congrArg (· - 1) depth⟩

/-- The part of a call that runs in its own scope. -/
def callBody (decl : RoutineDecl) (args : List Value) (run : RoutineDecl → ScopeId → Action Flow)
    (s : ScopeId) : Action Value := do
  bindParameters s decl.params args
  let _ ← deeper (run decl s)
  let v ← takeReturned s
  match decl.kind with
  | .function => return v.getD .null
  | .procedure => return .null

theorem invoke_eq (limits : Limits) (id : RoutineId) (args : List Value) (span : Span)
    (run : RoutineDecl → ScopeId → Action Flow) (m : Machine) :
    invoke limits id args span run m =
      match m.heap.routines[id]? with
      | none => .failed (.unplaced (.notCallable .function)) m
      | some ⟨decl, scope⟩ =>
          if args.length ≠ decl.params.length then
            .failed ⟨.arity decl.name decl.params.length args.length, span⟩ m
          else if limits.depth ≤ m.depth then
            .failed ⟨.misuse (.callDepth limits.depth decl.name), span⟩ m
          else callBody decl args run m.heap.scopes.size
            { m with heap := (m.heap.newCall scope).2 } := by
  unfold invoke
  rw [bind_apply]
  simp only [ofHeap]
  cases m.heap.routines[id]? with
  | none => rfl
  | some r =>
      obtain ⟨decl, scope⟩ := r
      dsimp only
      split
      · rfl
      · rw [bind_apply]
        simp only [getDepth]
        split
        · rfl
        · rfl

theorem callBody_leads {decl : RoutineDecl} {args : List Value}
    {run : RoutineDecl → ScopeId → Action Flow} (inside : Leads P (some s) (run decl s)) :
    Leads P (some s) (callBody decl args run s) := by
  refine .bind (bindParameters_leads decl.params args) fun _ => ?_
  refine .bind (deeper_leads inside) fun _ => ?_
  refine .bind (.changeHeap fun _ _ => .take) fun v => ?_
  cases decl.kind with
  | function => exact .of_unscoped (.pure _)
  | procedure => exact .of_unscoped (.pure _)

theorem invoke_leads {limits : Limits} {id : RoutineId} {args : List Value} {span : Span}
    {run : RoutineDecl → ScopeId → Action Flow}
    (inside : ∀ decl inner, Permits P decl.features → Leads P (some inner) (run decl inner)) :
    Leads P own (invoke limits id args span run) := by
  intro m carries
  rw [invoke_eq]
  split
  · exact ⟨.refl, rfl⟩
  · rename_i decl scope found
    have mem := Array.mem_of_getElem? found
    split
    · exact ⟨.refl, rfl⟩
    · split
      · exact ⟨.refl, rfl⟩
      · have body : Leads P (some m.heap.scopes.size) (callBody decl args run m.heap.scopes.size) :=
          callBody_leads (inside decl _ (carries.routines _ mem))
        have reached := body { m with heap := (m.heap.newCall scope).2 }
          ⟨carries.routines, carries.classes⟩
        refine reached.imp ?_
        intro m' ⟨run, depth⟩
        exact ⟨.enter true (.inr (.routine _ mem rfl)) run, depth⟩

/-- The context of code inside which at most `left` calls can nest. -/
def contextAt (limits : Limits) (fuel left : Nat) : Context :=
  ⟨limits, fuel, callRoutine limits fuel left⟩

theorem callRoutine_leads (limits : Limits) (fuel left : Nat) (id : RoutineId) (args : List Value)
    (span : Span) : Leads P own (callRoutine limits fuel left id args span) := by
  induction left generalizing own id args span with
  | zero => exact invoke_leads fun _ _ _ _ _ => trivial
  | succ left ih =>
      refine invoke_leads fun decl inner permitted => ?_
      let ctx := contextAt limits fuel left
      have calls : (leading ctx.limits P ctx.fuel).Calls ctx ctx := fun _ id args span => ⟨rfl, ih id args span⟩
      exact (Discipline.executeBlock calls inner .null decl.body (permits_routine.mp permitted).2).2

section

variable (limits : Limits) (fuel left : Nat)

theorem leading_calls :
    (leading limits P fuel).Calls (contextAt limits fuel left) (contextAt limits fuel left) :=
  fun _ id args span => ⟨rfl, callRoutine_leads limits fuel left id args span⟩

theorem evaluate_leads (s : ScopeId) {e : Expr} (permitted : Permits P e.features) :
    Leads P (some s) (evaluate (contextAt limits fuel left) s e) :=
  (Congruence.evaluate (leading_calls limits fuel left) s e permitted).2

theorem evaluateAll_leads (s : ScopeId) {es : List Expr} (permitted : Permits P (Expr.featuresAll es)) :
    Leads P (some s) (evaluateAll (contextAt limits fuel left) s es) :=
  (Congruence.evaluateAll (leading_calls limits fuel left) s es permitted).2

theorem condition_leads (s : ScopeId) (problem : ValueKind → TypeProblem) {e : Expr}
    (permitted : Permits P e.features) :
    Leads P (some s) (condition (contextAt limits fuel left) s problem e) :=
  (Congruence.condition (leading_calls limits fuel left) problem permitted).2

theorem loopBound_leads (s : ScopeId) {e : Expr} (permitted : Permits P e.features) :
    Leads P (some s) (loopBound (contextAt limits fuel left) s e) :=
  (Congruence.loopBound (leading_calls limits fuel left) permitted).2

theorem dimensions_leads (s : ScopeId) {es : List Expr} (permitted : Permits P (Expr.featuresAll es)) :
    Leads P (some s) (dimensions (contextAt limits fuel left) s es) :=
  (Congruence.dimensions (leading_calls limits fuel left) permitted).2

/-- A new object is made, and its constructor run, in new scopes only. -/
theorem instantiate_leads (c : ClassId) (args : List Value) (span : Span) :
    Leads P own (instantiate (contextAt limits fuel left) c args span) := by
  have call : ∀ id, Leads P own (callRoutine limits fuel left id args span) := fun id =>
    callRoutine_leads limits fuel left id args span
  refine .bind (.orAt span (.tryChangeHeap fun h carries => ?_)) fun o => ?_
  · exact (h.buildFrom_run (c + 1) c carries).1
  refine .bind (.ofHeap _) fun found => ?_
  match found with
  | some (layer, _) =>
      refine .bind (.tryOfHeap _) fun constructor => ?_
      cases constructor with
      | function id => exact .bind (call id) fun _ => .of_unscoped (.pure _)
      | procedure id => exact .bind (call id) fun _ => .of_unscoped (.pure _)
      | _ => exact .bind (.of_unscoped (.failAt span _)) fun _ => .of_unscoped (.pure _)
  | none =>
      by_cases empty : args.isEmpty = true
      · simp only [empty, if_true]
        exact .of_unscoped (.pure _)
      · simp only [empty]
        refine .bind (.ofHeap _) fun name => ?_
        exact .bind (.of_unscoped (.failAt span _)) fun _ => .of_unscoped (.pure _)

theorem execute_leads (s : ScopeId) {stmt : Stmt} (permitted : Permits P stmt.features) :
    Leads P (some s) (execute (contextAt limits fuel left) s stmt) :=
  (Discipline.execute (D := leading (contextAt limits fuel left).limits P (contextAt limits fuel left).fuel)
    (leading_calls limits fuel left) s stmt permitted).2

theorem executeBlock_leads (s : ScopeId) (last : Value) {block : List Stmt}
    (permitted : Permits P (Stmt.featuresAll block)) :
    Leads P (some s) (executeBlock (contextAt limits fuel left) s last block) :=
  (Discipline.executeBlock (D := leading (contextAt limits fuel left).limits P (contextAt limits fuel left).fuel)
    (leading_calls limits fuel left) s last block permitted).2

end

end Action

end Pseudocode

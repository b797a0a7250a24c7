import Pseudocode.Proofs.Constructors
import Pseudocode.Proofs.Unguarded.Basic

/-!
Nothing is caught.

`Same own x y` says that two actions do the same wherever flawless code can run in scope
`own`. It holds of running code and of running it without defences (`same_evaluate`,
`same_executeBlock`, `sameCalls`), whatever the trap. `Heap.Ready` is the invariant
that carries it: code leads from one such heap to the next (`Heap.Ready.run`).
-/

namespace Pseudocode

/-- A heap of flawless code in which the scope that code runs in, if it has one, exists. -/
structure Heap.Ready (h : Heap) (own : Option ScopeId) : Prop where
  sound : h.Sound
  carries : h.Carries Flawless
  hosts : h.Hosts own

variable {own : Option ScopeId} {s scope : ScopeId} {h h' : Heap} {m m' : Machine} {α β : Type}

namespace Heap.Ready

theorem run (ready : h.Ready own) (run : Run Flawless own h h') : h'.Ready own :=
  ⟨run.sound ready.sound ready.hosts, run.carries ready.carries, ready.hosts.mono run.size_le⟩

theorem forget (ready : h.Ready own) : h.Ready none := ⟨ready.sound, ready.carries, hosts_none⟩

theorem newScope (ready : h.Ready own) {around : ScopeId} (boundary : Bool)
    (lives : own = some around ∨ h.Anchors around) :
    (h.newScope { parent := some around, boundary }).2.Ready (some h.scopes.size) where
  sound := ready.sound.newScope (ready.sound.lives_lt ready.hosts lives) boundary
  carries := ⟨ready.carries.routines, ready.carries.classes⟩
  hosts := hosts_some (by simp)

theorem permits {id : RoutineId} {decl : RoutineDecl} (ready : h.Ready own)
    (found : h.routines[id]? = some ⟨decl, scope⟩) :
    decl.params.Nodup ∧ Permits Flawless (Stmt.featuresAll decl.body) := by
  have permitted := ready.carries.routines _ (Array.mem_of_getElem? found)
  rw [permits_routine, or_iff_left not_flawless_flaw] at permitted
  exact permitted

end Heap.Ready

namespace Action

/-- Two sequences go alike when both their parts do, the second where the first one ends. -/
theorem bind_eq {x y : Action α} {f g : α → Action β} (first : y m = x m)
    (second : ∀ a m', x m = .done a m' → g a m' = f a m') : (y >>= g) m = (x >>= f) m := by
  rw [bind_apply, bind_apply, first]
  cases ended : x m with
  | done a m' => exact second a m' ended
  | failed _ _ | crashed _ _ | exhausted => rfl

theorem Leads.run_of_done {x : Action α} (leads : Leads Flawless own x) (ready : m.heap.Ready own)
    {a : α} (done : x m = .done a m') : Heap.Run Flawless own m.heap m'.heap := by
  have reached := leads m ready.carries
  rw [done] at reached
  exact reached.1

/-- The two actions do the same wherever flawless code can run in scope `own`. -/
def Same (own : Option ScopeId) (x y : Action α) : Prop := ∀ m, m.heap.Ready own → y m = x m

namespace Same

variable {x y : Action α} {f g : α → Action β}

theorem refl : Same own x x := fun _ _ => rfl

theorem forget (same : Same none x y) : Same own x y := fun m ready => same m ready.forget

theorem bind (leads : Leads Flawless own x) (first : Same own x y)
    (second : ∀ a, Same own (f a) (g a)) : Same own (x >>= f) (y >>= g) := by
  intro m ready
  apply bind_eq (first m ready)
  exact fun a m' done => second a m' (ready.run (leads.run_of_done ready done))

/-- The second part is the same action. -/
theorem before (first : Same own x y) : Same own (x >>= f) (y >>= f) :=
  fun m ready => bind_eq (first m ready) fun _ _ _ => rfl

/-- The first part is the same action. -/
theorem after (leads : Leads Flawless own x) (second : ∀ a, Same own (f a) (g a)) :
    Same own (x >>= f) (x >>= g) :=
  bind leads refl second

theorem orAt (span : Span) (same : Same own x y) : Same own (orAt span x) (orAt span y) := by
  intro m ready
  unfold Action.orAt
  rw [same m ready]

theorem newBlock {f g : ScopeId → Action β}
    (inside : ∀ inner, Same (some inner) (f inner) (g inner)) :
    Same (some s) (newBlock s >>= f) (newBlock s >>= g) :=
  fun m ready => inside m.heap.scopes.size _ (ready.newScope false (.inl rfl))

theorem nested {body body' : ScopeId → Action Flow}
    (leads : ∀ inner, Leads Flawless (some inner) (body inner))
    (inside : ∀ inner, Same (some inner) (body inner) (body' inner)) :
    Same (some s) (nested s body) (nested s body') :=
  newBlock fun inner => bind (leads inner) (inside inner) fun _ => refl

/-! ### Loops -/

variable {test test' : Action Bool} {body body' : Action Flow}

theorem whileLoop (tests : Leads Flawless own test) (leads : Leads Flawless own body)
    (tested : Same own test test') (inside : Same own body body') (limit : Nat) (span : Span)
    (left : Nat) :
    Same own (whileLoop limit span test body left) (whileLoop limit span test' body' left) := by
  induction left with
  | zero => exact before tested
  | succ left ih =>
      apply bind tests tested
      intro holds
      cases holds with
      | false => exact refl
      | true =>
          apply bind leads inside
          intro flow
          cases flow with
          | returned => exact refl
          | value v => exact ih

theorem untilLoop (tests : Leads Flawless own test) (leads : Leads Flawless own body)
    (tested : Same own test test') (inside : Same own body body') (fuel : Nat) :
    Same own (untilLoop body test fuel) (untilLoop body' test' fuel) := by
  induction fuel with
  | zero => exact refl
  | succ fuel ih =>
      apply bind leads inside
      intro flow
      cases flow with
      | returned => exact refl
      | value v =>
          apply bind tests tested
          intro ended
          cases ended with
          | true => exact refl
          | false => exact ih

end Same

/-! ### Counting loops -/

variable (trap : Unguarded.Trap)

/-- A variable that is there can be read. -/
theorem loopVariable_eq {name : String} (bound : m.heap.hasLocal s name = true) (span : Span) :
    Unguarded.loopVariable trap s name span m = loopVariable s name span m := by
  obtain ⟨v, found⟩ := Option.isSome_iff_exists.mp bound
  have read : m.heap.lookup s name = .ok v := Heap.lookup_of_local? found
  simp only [Unguarded.loopVariable, loopVariable, lookup, bind_apply, ofHeap, tryOfHeap, read]
  cases v <;> rfl

theorem machine_of_loopVariable {name : String} {span : Span} {n : Int64}
    (done : loopVariable s name span m = .done n m') : m' = m := by
  simp only [loopVariable, lookup, bind_apply, tryOfHeap] at done
  cases read : m.heap.lookup s name with
  | error cause => simp [read] at done
  | ok v =>
      rw [read] at done
      cases v <;> cases done
      rfl

/-- The variable is there in each round, because no body takes it away. -/
theorem countLoop_eq {body body' : Action Flow} (leads : Leads Flawless (some s) body)
    (inside : Same (some s) body body') {name : String} (last : Int64) (span : Span) (fuel : Nat)
    (ready : m.heap.Ready (some s)) (bound : m.heap.hasLocal s name = true) :
    Unguarded.countLoop trap s name last span body' fuel m = countLoop s name last span body fuel m := by
  induction fuel generalizing m with
  | zero => rfl
  | succ fuel ih =>
      rw [Unguarded.countLoop, countLoop]
      apply bind_eq (loopVariable_eq trap bound span)
      intro current m' read
      obtain rfl := machine_of_loopVariable read
      by_cases more : current.toInt ≤ last.toInt
      · rw [if_pos more, if_pos more]
        apply bind_eq (inside m' ready)
        intro flow m₁ ended
        have run := leads.run_of_done ready ended
        cases flow with
        | returned => rfl
        | value v =>
            apply bind_eq (loopVariable_eq trap (run.hasLocal bound) span)
            intro reached m₂ again
            obtain rfl := machine_of_loopVariable again
            cases Integer.add? reached 1 with
            | none => rfl
            | some next =>
                have advanced : Heap.Run Flawless (some s) m₂.heap
                    (m₂.heap.setLocal s name (.integer next)) := .bind name _
                have all := run.trans advanced
                exact ih (ready.run all) (all.hasLocal bound)
      · rw [if_neg more, if_neg more]

/-! ### New objects -/

variable {limits : Limits} {fuel left : Nat}

theorem heap_of_tryChangeHeap {f : Heap → Except Cause α × Heap} {a : α}
    (done : tryChangeHeap f m = .done a m') : f m.heap = (.ok a, m'.heap) := by
  rw [tryChangeHeap_apply] at done
  split at done
  · rename_i ok
    cases done
    exact Prod.ext ok rfl
  · cases done

theorem done_of_orAt {x : Action α} {span : Span} {a : α} (done : orAt span x m = .done a m') :
    x m = .done a m' := by
  unfold orAt at done
  split at done
  · rename_i ended
    cases done
    exact ended
  · cases done
  · cases done
  · cases done

/-- Calls of routines are the same. -/
def SameCalls (trap : Unguarded.Trap) (limits : Limits) (fuel left : Nat) : Prop :=
  ∀ id args span, Same none (callRoutine limits fuel left id args span)
    (Unguarded.callRoutine trap limits fuel left id args span)

/-- The constructor that is found is a routine. -/
theorem same_instantiate {trap : Unguarded.Trap} (calls : SameCalls trap limits fuel left) (c : ClassId)
    (args : List Value) (span : Span) :
    Same none (instantiate (contextAt limits fuel left) c args span)
      (Unguarded.instantiate trap (Unguarded.contextAt trap limits fuel left) c args span) := by
  intro m ready
  apply bind_eq rfl
  intro o m₁ done
  have made : m.heap.buildObject c = (.ok o, m₁.heap) := heap_of_tryChangeHeap (done_of_orAt done)
  have run : Heap.Run Flawless none m.heap (m.heap.buildObject c).2 :=
    (Heap.buildFrom_run (c + 1) c ready.carries).1
  rw [made] at run
  apply bind_eq rfl
  rintro _ _ ⟨⟩
  dsimp only
  cases here : m₁.heap.layer? o Heap.constructorName with
  | none => rfl
  | some found =>
      obtain ⟨layer, member⟩ := found
      obtain ⟨v, id, bound, routine⟩ := Heap.constructor_of_buildObject ready.carries made here
      apply bind_eq rfl
      intro f m₂ read
      simp only [lookup, tryOfHeap, bound] at read
      cases read
      cases routine with
      | function => exact bind_eq (calls id args span m₁ (ready.run run)) fun _ _ _ => rfl
      | procedure => exact bind_eq (calls id args span m₁ (ready.run run)) fun _ _ _ => rfl

/-! ### Expressions -/

section Calls

variable {trap}

theorem same_callValue (calls : SameCalls trap limits fuel left) (function : Value)
    (receiver : Option Value) (args : List Value) (span : Span) :
    Same own (callValue (contextAt limits fuel left) function receiver args span)
      (callValue (Unguarded.contextAt trap limits fuel left) function receiver args span) := by
  unfold callValue
  cases function with
  | function id => exact (calls id args span).forget
  | procedure id => exact (calls id args span).forget
  | _ => exact .refl

mutual

theorem same_evaluate (calls : SameCalls trap limits fuel left) (s : ScopeId) :
    ∀ e : Expr, Permits Flawless e.features →
      Same (some s) (evaluate (contextAt limits fuel left) s e)
        (Unguarded.evaluate trap (Unguarded.contextAt trap limits fuel left) s e)
  | .identifier span name, _ => .refl
  | .integer _ n, _ => .refl
  | .float _ x, _ => .refl
  | .text _ t, _ => .refl
  | .null _, _ => .refl
  | .assign span target value, permitted => by
      simp only [Expr.features, permits_append] at permitted
      obtain ⟨⟨named, inTarget⟩, inValue⟩ := permitted
      have leads := evaluate_leads limits fuel left s inValue
      have same := same_evaluate calls s value inValue
      cases target with
      | identifier _ name => exact .orAt span (.before same)
      | member _ object field =>
          have inObject : Permits Flawless object.features := by simpa [Expr.features] using inTarget
          apply Same.orAt span
          apply Same.bind leads same
          intro v
          exact .before (same_evaluate calls s object inObject)
      | index _ object i =>
          simp only [Expr.features, permits_append] at inTarget
          apply Same.orAt span
          apply Same.bind leads same
          intro v
          apply Same.bind (evaluate_leads _ _ _ s inTarget.2) (same_evaluate calls s i inTarget.2)
          intro position
          have general : Same (some s)
              (evaluate (contextAt limits fuel left) s object >>= fun container =>
                storeAt container position v >>= fun _ => (Pure.pure v : Action Value))
              (Unguarded.evaluate trap (Unguarded.contextAt trap limits fuel left) s object >>=
                fun container => storeAt container position v >>= fun _ => Pure.pure v) :=
            .before (same_evaluate calls s object inTarget.1)
          cases object with
          | identifier _ name =>
              cases position with
              | integer n => exact .refl
              | _ => exact general
          | _ => exact general
      | _ =>
          -- No text has such a target.
          have valid := Expr.flawless_target.mp named
          cases valid
  | .binary span op left right, permitted => by
      simp only [Expr.features, permits_append] at permitted
      apply Same.orAt span
      apply Same.bind (evaluate_leads _ _ _ s permitted.1) (same_evaluate calls s left permitted.1)
      intro l
      exact .before (same_evaluate calls s right permitted.2)
  | .unary span op operand, permitted => by
      simp only [Expr.features] at permitted
      exact .orAt span (.before (same_evaluate calls s operand permitted))
  | .range span start stop, permitted => by
      simp only [Expr.features, permits_append] at permitted
      apply Same.orAt span
      apply Same.bind (evaluate_leads _ _ _ s permitted.1) (same_evaluate calls s start permitted.1)
      intro first
      exact .before (same_evaluate calls s stop permitted.2)
  | .member span object field, permitted => by
      simp only [Expr.features] at permitted
      exact .orAt span (.before (same_evaluate calls s object permitted))
  | .index span object i, permitted => by
      simp only [Expr.features, permits_append] at permitted
      apply Same.orAt span
      apply Same.bind (evaluate_leads _ _ _ s permitted.1) (same_evaluate calls s object permitted.1)
      intro v
      exact .before (same_evaluate calls s i permitted.2)
  | .call span callee args, permitted => by
      simp only [Expr.features, permits_append] at permitted
      have leads := evaluateAll_leads limits fuel left s permitted.2
      have same := same_evaluateAll calls s args permitted.2
      have leadsCallee := evaluate_leads limits fuel left s permitted.1
      have sameCallee := same_evaluate calls s callee permitted.1
      cases callee with
      | member calleeSpan object field =>
          have inObject : Permits Flawless object.features := by simpa [Expr.features] using permitted.1
          apply Same.orAt span
          apply Same.bind leads same
          intro vs
          apply Same.bind (evaluate_leads _ _ _ s inObject) (same_evaluate calls s object inObject)
          intro receiver
          have member : Leaf limits Flawless s (member receiver field) := .member receiver field
          apply Same.after (.orAt calleeSpan (.leaf member))
          exact fun function => same_callValue calls function (some receiver) vs span
      | identifier _ name =>
          apply Same.orAt span
          apply Same.bind leads same
          intro vs
          apply Same.bind leadsCallee sameCallee
          exact fun function => same_callValue calls function none vs span
      | index _ object i =>
          apply Same.orAt span
          apply Same.bind leads same
          intro vs
          apply Same.bind leadsCallee sameCallee
          exact fun function => same_callValue calls function none vs span
      | _ => exact .orAt span (.before same)
  | .create span classExpr args, permitted => by
      simp only [Expr.features, permits_append] at permitted
      apply Same.orAt span
      apply Same.bind (evaluateAll_leads _ _ _ s permitted.2) (same_evaluateAll calls s args permitted.2)
      intro vs
      apply Same.bind (evaluate_leads _ _ _ s permitted.1) (same_evaluate calls s classExpr permitted.1)
      intro v
      cases v with
      | classRef c => exact (same_instantiate calls c vs span).forget
      | _ => exact .refl

theorem same_evaluateAll (calls : SameCalls trap limits fuel left) (s : ScopeId) :
    ∀ es : List Expr, Permits Flawless (Expr.featuresAll es) →
      Same (some s) (evaluateAll (contextAt limits fuel left) s es)
        (Unguarded.evaluateAll trap (Unguarded.contextAt trap limits fuel left) s es)
  | [], _ => .refl
  | e :: es, permitted => by
      simp only [Expr.featuresAll, permits_append] at permitted
      apply Same.bind (evaluate_leads _ _ _ s permitted.1) (same_evaluate calls s e permitted.1)
      intro v
      exact .before (same_evaluateAll calls s es permitted.2)

end

/-! ### Statements -/

theorem same_condition (calls : SameCalls trap limits fuel left) (problem : ValueKind → TypeProblem)
    {e : Expr} (permitted : Permits Flawless e.features) :
    Same (some s) (condition (contextAt limits fuel left) s problem e)
      (Unguarded.condition trap (Unguarded.contextAt trap limits fuel left) s problem e) :=
  .before (same_evaluate calls s e permitted)

theorem same_loopBound (calls : SameCalls trap limits fuel left) {e : Expr}
    (permitted : Permits Flawless e.features) :
    Same (some s) (loopBound (contextAt limits fuel left) s e)
      (Unguarded.loopBound trap (Unguarded.contextAt trap limits fuel left) s e) :=
  .before (same_evaluate calls s e permitted)

theorem same_dimensions (calls : SameCalls trap limits fuel left) {es : List Expr}
    (permitted : Permits Flawless (Expr.featuresAll es)) :
    Same (some s) (dimensions (contextAt limits fuel left) s es)
      (Unguarded.dimensions trap (Unguarded.contextAt trap limits fuel left) s es) := by
  induction es with
  | nil => exact .refl
  | cons e es ih =>
      simp only [Expr.featuresAll, permits_append] at permitted
      apply Same.bind (evaluate_leads _ _ _ s permitted.1) (same_evaluate calls s e permitted.1)
      intro v
      cases v with
      | integer n =>
          by_cases negative : n.toInt < 0
          · simp only [negative, if_true]
            exact .refl
          · simp only [negative, if_false]
            exact .bind (dimensions_leads _ _ _ s permitted.2) (ih permitted.2) fun sizes => .refl
      | _ => exact .refl

/-- The variable of a counting loop is declared before the first round. -/
theorem same_count {body body' : ScopeId → Action Flow}
    (leads : ∀ inner, Leads Flawless (some inner) (body inner))
    (inside : ∀ inner, Same (some inner) (body inner) (body' inner)) (name : String)
    (first last : Int64) (span : Span) :
    Same (some s)
      (newBlock s >>= fun loop => declare loop name (.integer first) >>= fun _ =>
        countLoop loop name last span (nested loop body) fuel)
      (newBlock s >>= fun loop => declare loop name (.integer first) >>= fun _ =>
        Unguarded.countLoop trap loop name last span (nested loop body') fuel) := by
  apply Same.newBlock
  intro loop m ready
  apply bind_eq rfl
  intro _ m₁ done
  have declared : m.heap.declare loop name (.integer first) = (.ok (), m₁.heap) :=
    heap_of_tryChangeHeap done
  have run := (Leads.declare name (.integer first)).run_of_done ready done
  apply countLoop_eq trap (.nested leads) (.nested leads inside) last span fuel (ready.run run)
  exact Heap.hasLocal_of_declare (ready.hosts loop rfl) declared

mutual

theorem same_execute (calls : SameCalls trap limits fuel left) (s : ScopeId) :
    ∀ stmt : Stmt, Permits Flawless stmt.features →
      Same (some s) (execute (contextAt limits fuel left) s stmt)
        (Unguarded.execute trap (Unguarded.contextAt trap limits fuel left) s stmt)
  | .declare span name value, permitted => by
      simp only [Stmt.features] at permitted
      exact .before (same_evaluate calls s value permitted)
  | .array span name sizes, permitted => by
      simp only [Stmt.features] at permitted
      exact .before (same_dimensions calls permitted)
  | .routine decl, _ => .refl
  | .classDecl decl, _ => .refl
  | .conditional test yes none, permitted => by
      simp only [Stmt.features, permits_append] at permitted
      obtain ⟨⟨inTest, inYes⟩, _⟩ := permitted
      apply Same.bind (evaluate_leads _ _ _ s inTest) (same_evaluate calls s test inTest)
      intro v
      apply Same.after (.ofHeap _)
      intro holds
      cases holds with
      | true =>
          exact .nested (fun inner => executeBlock_leads _ _ _ inner _ inYes) fun inner =>
            same_executeBlock calls inner .null yes inYes
      | false => exact .refl
  | .conditional test yes (some no), permitted => by
      simp only [Stmt.features, Stmt.featuresElse, permits_append] at permitted
      obtain ⟨⟨inTest, inYes⟩, inNo⟩ := permitted
      apply Same.bind (evaluate_leads _ _ _ s inTest) (same_evaluate calls s test inTest)
      intro v
      apply Same.after (.ofHeap _)
      intro holds
      cases holds with
      | true =>
          exact .nested (fun inner => executeBlock_leads _ _ _ inner _ inYes) fun inner =>
            same_executeBlock calls inner .null yes inYes
      | false =>
          exact .nested (fun inner => executeBlock_leads _ _ _ inner _ inNo) fun inner =>
            same_executeBlock calls inner .null no inNo
  | .switch subject cases, permitted => by
      simp only [Stmt.features, permits_append] at permitted
      apply Same.bind (evaluate_leads _ _ _ s permitted.1) (same_evaluate calls s subject permitted.1)
      exact fun v => same_executeCases calls s v cases permitted.2
  | .count span name first last body, permitted => by
      simp only [Stmt.features, List.cons_append, permits_cons, permits_append] at permitted
      obtain ⟨_, ⟨inFirst, inLast⟩, inBody⟩ := permitted
      apply Same.bind (loopBound_leads _ _ _ s inFirst) (same_loopBound calls inFirst)
      intro first
      apply Same.bind (loopBound_leads _ _ _ s inLast) (same_loopBound calls inLast)
      intro last
      exact same_count (fun inner => executeBlock_leads _ _ _ inner _ inBody)
        (fun inner => same_executeBlock calls inner .null body inBody) name first last span
  | .whileLoop span test body, permitted => by
      simp only [Stmt.features, permits_append] at permitted
      have tests := condition_leads limits fuel left s .whileCondition permitted.1
      have leads inner := executeBlock_leads limits fuel left inner .null permitted.2
      apply Same.whileLoop tests (.nested leads) (same_condition calls _ permitted.1)
      exact .nested leads fun inner => same_executeBlock calls inner .null body permitted.2
  | .untilLoop body test, permitted => by
      simp only [Stmt.features, List.cons_append, permits_cons, permits_append] at permitted
      obtain ⟨_, inBody, inTest⟩ := permitted
      have tests := condition_leads limits fuel left s .untilCondition inTest
      have leads inner := executeBlock_leads limits fuel left inner .null inBody
      apply Same.untilLoop tests (.nested leads) (same_condition calls _ inTest)
      exact .nested leads fun inner => same_executeBlock calls inner .null body inBody
  | .giveBack span (some e), permitted => by
      simp only [Stmt.features] at permitted
      exact .before (same_evaluate calls s e permitted)
  | .giveBack span none, _ => .refl
  | .expression e, permitted => by
      simp only [Stmt.features] at permitted
      exact .before (same_evaluate calls s e permitted)

theorem same_executeBlock (calls : SameCalls trap limits fuel left) (s : ScopeId) (last : Value) :
    ∀ block : List Stmt, Permits Flawless (Stmt.featuresAll block) →
      Same (some s) (executeBlock (contextAt limits fuel left) s last block)
        (Unguarded.executeBlock trap (Unguarded.contextAt trap limits fuel left) s last block)
  | [], _ => .refl
  | stmt :: rest, permitted => by
      simp only [Stmt.featuresAll, permits_append] at permitted
      apply Same.bind (execute_leads _ _ _ s permitted.1) (same_execute calls s stmt permitted.1)
      intro flow
      apply Same.after (.ofHeap _)
      intro ended
      cases ended with
      | true => exact .refl
      | false => exact same_executeBlock calls s _ rest permitted.2

theorem same_executeCases (calls : SameCalls trap limits fuel left) (s : ScopeId) (subject : Value) :
    ∀ cases : List Case, Permits Flawless (Case.featuresAll cases) →
      Same (some s) (executeCases (contextAt limits fuel left) s subject cases)
        (Unguarded.executeCases trap (Unguarded.contextAt trap limits fuel left) s subject cases)
  | [], _ => .refl
  | ⟨none, body⟩ :: rest, permitted => by
      simp only [Case.featuresAll, permits_append] at permitted
      exact .nested (fun inner => executeBlock_leads _ _ _ inner _ permitted.1) fun inner =>
        same_executeBlock calls inner .null body permitted.1
  | ⟨some test, body⟩ :: rest, permitted => by
      simp only [Case.featuresAll, permits_append] at permitted
      obtain ⟨⟨inTest, inBody⟩, inRest⟩ := permitted
      apply Same.bind (evaluate_leads _ _ _ s inTest) (same_evaluate calls s test inTest)
      intro v
      apply Same.after (.ofHeap _)
      intro matched
      cases matched with
      | true =>
          exact .nested (fun inner => executeBlock_leads _ _ _ inner _ inBody) fun inner =>
            same_executeBlock calls inner .null body inBody
      | false => exact same_executeCases calls s subject rest inRest

end

end Calls

/-! ### Routines -/

theorem Same.deeper {x y : Action α} (same : Same own x y) : Same own (deeper x) (deeper y) := by
  intro m ready
  rw [deeper_apply, deeper_apply, same { m with depth := m.depth + 1 } ready]

/-- Names that differ, and are free, can be bound. -/
theorem bindParameters_eq {names : List String} (vs : List Value) (distinct : names.Nodup)
    (free : ∀ name ∈ names, m.heap.hasLocal s name = false) :
    Unguarded.bindParameters trap s names vs m = bindParameters s names vs m := by
  induction names generalizing vs m with
  | nil => rfl
  | cons name names ih =>
      cases vs with
      | nil => rfl
      | cons v vs =>
          obtain ⟨new, others⟩ := List.nodup_cons.mp distinct
          have unbound := free name List.mem_cons_self
          have declared : declare s name v m = .done () { m with heap := m.heap.setLocal s name v } := by
            simp only [declare, tryChangeHeap_apply, Heap.declare, unbound]
            rfl
          apply bind_eq
          · rw [Unguarded.declare, bind_apply, declared]
            simp only [ofHeap, unbound]
            rfl
          · intro _ m' done
            rw [declared] at done
            cases done
            apply ih vs others
            intro other mem
            have ne : other ≠ name := by
              rintro rfl
              exact new mem
            rw [Heap.hasLocal, Heap.local?_setLocal_of_ne v (.inr ne)]
            exact free other (List.mem_cons_of_mem name mem)

/-- No name is bound in the scope of a call at first. -/
theorem same_invoke {run run' : RoutineDecl → ScopeId → Action Flow}
    (inside : ∀ decl inner, Permits Flawless (Stmt.featuresAll decl.body) →
      Same (some inner) (run decl inner) (run' decl inner))
    (id : RoutineId) (args : List Value) (span : Span) :
    Same none (invoke limits id args span run) (Unguarded.invoke trap limits id args span run') := by
  intro m ready
  apply bind_eq rfl
  rintro _ _ ⟨⟩
  dsimp only
  cases found : m.heap.routines[id]? with
  | none => rfl
  | some routine =>
      obtain ⟨decl, scope⟩ := routine
      obtain ⟨distinct, permitted⟩ := ready.permits found
      by_cases many : args.length ≠ decl.params.length
      · simp only [if_pos many]
      · simp only [if_neg many]
        apply bind_eq rfl
        rintro _ _ ⟨⟩
        by_cases full : limits.depth ≤ m.depth
        · simp only [if_pos full]
        · simp only [if_neg full]
          apply bind_eq rfl
          rintro _ m₁ ⟨⟩
          have called : (m.heap.newCall scope).2.Ready (some m.heap.scopes.size) :=
            ready.newScope true (.inr (.routine _ (Array.mem_of_getElem? found) rfl))
          have free : ∀ name ∈ decl.params,
              (m.heap.newCall scope).2.hasLocal m.heap.scopes.size name = false :=
            fun name _ => Heap.hasLocal_newScope_self _ name
          apply bind_eq (bindParameters_eq trap args distinct free)
          intro _ m₂ bound
          have run := (bindParameters_leads decl.params args).run_of_done called bound
          exact bind_eq ((inside decl _ permitted).deeper m₂ (called.run run)) fun _ _ _ => rfl

/-- Calls of routines are the same, to whatever depth they nest. -/
theorem sameCalls (left : Nat) : SameCalls trap limits fuel left := by
  induction left with
  | zero => exact same_invoke trap fun _ _ _ => .refl
  | succ left ih =>
      apply same_invoke trap
      exact fun decl inner permitted => same_executeBlock ih inner .null decl.body permitted

end Action

end Pseudocode

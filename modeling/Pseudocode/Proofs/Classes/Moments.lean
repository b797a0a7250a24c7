import Pseudocode.Proofs.Classes.Careful
import Pseudocode.Proofs.Defences

/-!
The machines that a run visits.

`Visits limits fuel left x m m'` says that the action `x`, begun on `m`, comes through the
machine `m'`. It is `Passes` for careful actions: what an action is taken apart into has to
be careful on the machine on which it begins. So the heap is orderly whenever it was at
the start (`Visits.orderly`), and in a session that is given source texts it always is
(`Session.Visits.orderly`).
-/

namespace Pseudocode

namespace Action

inductive Visits (limits : Limits) (fuel : Nat) : Nat → {α : Type} → Action α → Machine → Machine → Prop where
  | start {left : Nat} {α : Type} (x : Action α) (m : Machine) : Visits limits fuel left x m m
  | finish {left : Nat} {α : Type} {R : Nat → α → Prop} {x : Action α} {m m' : Machine}
      (careful : Careful (contextAt limits fuel left) m.heap.classes.size R x) (ended : (x m).Leaves m') :
      Visits limits fuel left x m m'
  | first {left : Nat} {α β : Type} {x : Action α} {f : α → Action β} {m m' : Machine}
      (inside : Visits limits fuel left x m m') : Visits limits fuel left (x >>= f) m m'
  | next {left : Nat} {α β : Type} {R : Nat → α → Prop} {x : Action α} {f : α → Action β} {a : α}
      {m m₁ m' : Machine} (careful : Careful (contextAt limits fuel left) m.heap.classes.size R x)
      (done : x m = .done a m₁) (inside : Visits limits fuel left (f a) m₁ m') :
      Visits limits fuel left (x >>= f) m m'
  | placed {left : Nat} {α : Type} {x : Action α} {m m' : Machine} (span : Span)
      (inside : Visits limits fuel left x m m') : Visits limits fuel left (orAt span x) m m'
  | deeper {left : Nat} {α : Type} {x : Action α} {m m' : Machine}
      (inside : Visits limits fuel left x { m with depth := m.depth + 1 } m') :
      Visits limits fuel left (deeper x) m m'
  /-- A call: parameters are bound and the body is executed in a scope of its own. -/
  | call {left : Nat} {id : RoutineId} {args : List Value} {span : Span} {decl : RoutineDecl}
      {scope : ScopeId} {m m' : Machine} (admits : Admits limits m id args decl scope)
      (inside : Visits limits fuel left (callBody decl args (bodyAt limits fuel left) m.heap.scopes.size)
        (m.called scope) m') :
      Visits limits fuel (left + 1) (callRoutine limits fuel (left + 1) id args span) m m'

variable {limits : Limits} {fuel left : Nat} {α : Type} {n : Nat} {R : Nat → α → Prop} {x : Action α}
  {m m' : Machine}

theorem Careful.within (careful : Careful (contextAt limits fuel left) m.heap.classes.size R x)
    (orderly : m.heap.Orderly) : (x m).Within m.heap.classes.size R :=
  careful.preserves m orderly (Nat.le_refl _)

/-- What is orderly when a run begins is orderly all the time. -/
theorem Visits.orderly (visits : Visits limits fuel left x m m') (orderly : m.heap.Orderly) : m'.heap.Orderly := by
  induction visits with
  | start x m => exact orderly
  | finish careful ended => exact (careful.within orderly).orderly.leaves ended
  | first _ ih => exact ih orderly
  | next careful done _ ih =>
      have within := careful.within orderly
      rw [done] at within
      exact ih within.1
  | placed span _ ih => exact ih orderly
  | deeper _ ih => exact ih orderly
  | call admits _ ih => exact ih (Heap.orderly_iff.mpr ((Heap.orderly_iff.mp orderly).newScope _ true))

end Action

namespace Session

/-- The session visits the machine while it runs the program that the text is read as. -/
def Visits (session : Session) (source : String) (m : Machine) : Prop :=
  ∃ p fuel, parse source = .ok p ∧ Action.Visits session.limits fuel session.limits.depth
    (Action.executeBlock (Action.context session.limits fuel) session.globals .null p.body)
    { session.machine with depth := 0 } m

/-- While it runs the program the session has a class value: some cell of the heap holds it, or it
is the class of a `new` expression, whose arguments have been evaluated before it, so that the
layers of an object of this class are built next. -/
inductive HasClass (session : Session) (source : String) (c : ClassId) : Machine → Prop where
  | held {m : Machine} (visits : session.Visits source m) (holds : m.heap.Contains (.classRef c)) :
      HasClass session source c m
  | creates {m m₁ m₂ : Machine} {fuel left : Nat} {s : ScopeId} {args : List Expr} {vs : List Value} {e : Expr}
      (visits : session.Visits source m)
      (given : Action.evaluateAll (Action.contextAt session.limits fuel left) s args m = .done vs m₁)
      (found : Action.evaluate (Action.contextAt session.limits fuel left) s e m₁ = .done (.classRef c) m₂) :
      HasClass session source c m₂

variable {session : Session} {source : String} {p : Program} {c : ClassId} {m : Machine}

/-- The statements of a program that was read are careful. -/
theorem careful_of_parse (parsed : parse source = .ok p) (ctx : Context) (n : Nat) (s : ScopeId) :
    Action.Careful ctx n Flow.Below (Action.executeBlock ctx s .null p.body) :=
  (Action.Tracked.executeBlock n s (Value.below_null n) p.body (proper_of_parse parsed)).careful

theorem orderly_run (orderly : session.heap.Orderly) (parsed : parse source = .ok p) :
    (session.run p).2.heap.Orderly := by
  let begins : Machine := { session.machine with depth := 0 }
  have careful := careful_of_parse parsed (Action.contextAt session.limits ampleFuel session.limits.depth)
    begins.heap.classes.size session.globals
  have within := careful.within (m := begins) orderly
  exact run_all (Q := fun m => m.heap.Orderly) orderly within.orderly

/-- The machine with which a text has come to its end was visited. -/
theorem visits_end (ran : (session.execute source).1.toBool = true) :
    session.Visits source (session.execute source).2.machine := by
  unfold execute at ran ⊢
  cases parsed : parse source with
  | error e =>
      rw [parsed] at ran
      cases ran
  | ok p =>
      rw [parsed] at ran
      have visits : ∀ m, (Action.executeBlock (Action.context session.limits ampleFuel) session.globals .null p.body
          { session.machine with depth := 0 }).Leaves m → session.Visits source m := by
        intro m ended
        exact ⟨p, ampleFuel, parsed, .finish (careful_of_parse parsed _ _ _) ended⟩
      dsimp only at ran ⊢
      rw [run_eq] at ran ⊢
      generalize Action.executeBlock (Action.context session.limits ampleFuel) session.globals .null p.body
        { session.machine with depth := 0 } = o at visits ran ⊢
      cases o with
      | done flow m => cases flow <;> exact visits m (.done _ m)
      | failed _ _ | crashed _ _ | exhausted => cases ran

/-- Whatever source texts a session is given, its heap stays orderly. -/
theorem feed_orderly (limits : Limits) (world : World) (earlier : List String) :
    ((start limits world).feed earlier).heap.Orderly := by
  apply feed_kept (Q := fun session => session.heap.Orderly)
  · intro session source orderly
    exact execute_kept (Q := fun session => session.heap.Orderly) orderly
      (fun p parsed => orderly_run orderly parsed) fun _ kept => kept
  · exact Heap.orderly_iff.mpr (.start limits world)

theorem Visits.orderly (visits : session.Visits source m) (orderly : session.heap.Orderly) : m.heap.Orderly := by
  obtain ⟨p, fuel, -, visits⟩ := visits
  exact visits.orderly orderly

/-- Class values refer to classes that are there. -/
theorem HasClass.known (has : session.HasClass source c m) (orderly : session.heap.Orderly) :
    m.heap.Orderly ∧ c < m.heap.classes.size := by
  cases has with
  | held visits holds =>
      have orderly := visits.orderly orderly
      exact ⟨orderly, orderly.below holds⟩
  | @creates before m₁ _ fuel left s args vs e visits given found =>
      let ctx := Action.contextAt session.limits fuel left
      have first : Action.Careful ctx before.heap.classes.size _ _ := (Action.Tracked.evaluateAll _ s args).careful
      have within := first.within (visits.orderly orderly)
      rw [given] at within
      have second : Action.Careful ctx m₁.heap.classes.size _ _ := (Action.Tracked.evaluate _ s e).careful
      have within := second.within within.1
      rw [found] at within
      exact ⟨within.1, within.2.2⟩

end Session

end Pseudocode

import Pseudocode.Proofs.Classes.Tracked
import Pseudocode.Proofs.Links.Walk

/-!
Links throughout a session.

A class is linked to the class that a name stands for when it is declared. So it is younger
than that one only where no value refers to a class that is not there.
`Meets limits fuel left s x m active m'` is `Passes` for actions of which this is known: what
an action is taken apart into is tracked as well as made of leaves and calls (`Part`), as all
evaluation is. So the heap is tidy at each of these moments if it was at the start
(`Meets.tidy`), and in a session it always is (`Session.Reachable.tidy`).
-/

namespace Pseudocode

namespace Action

/-- A part of evaluation: it is made of leaves and calls, and begun when there are `n` classes
it has to do with no class that is not there. -/
structure Part (limits : Limits) (fuel left : Nat) (s : ScopeId) (n : Nat) {α : Type} (R : Nat → α → Prop)
    (x : Action α) : Prop where
  made : Made (contextAt limits fuel left) s x
  tracked : Tracked .any (contextAt limits fuel left) n R x

/-- A call like those that `Admits` describes, with arguments that refer to no class that is
not there. -/
structure Calls (limits : Limits) (m : Machine) (id : RoutineId) (args : List Value) (decl : RoutineDecl)
    (scope : ScopeId) : Prop where
  admits : Admits limits m id args decl scope
  below : AllBelow m.heap.classes.size args

inductive Meets (limits : Limits) (fuel : Nat) :
    Nat → ScopeId → {α : Type} → Action α → Machine → List RoutineId → Machine → Prop where
  | start {left : Nat} {s : ScopeId} {α : Type} (x : Action α) (m : Machine) :
      Meets limits fuel left s x m [] m
  | finish {left : Nat} {s : ScopeId} {α : Type} {R : Nat → α → Prop} {x : Action α} {m m' : Machine}
      (part : Part limits fuel left s m.heap.classes.size R x) (ended : (x m).Leaves m') :
      Meets limits fuel left s x m [] m'
  | first {left : Nat} {s : ScopeId} {α β : Type} {x : Action α} {f : α → Action β} {m m' : Machine}
      {active : List RoutineId} (inside : Meets limits fuel left s x m active m') :
      Meets limits fuel left s (x >>= f) m active m'
  | next {left : Nat} {s : ScopeId} {α β : Type} {R : Nat → α → Prop} {x : Action α} {f : α → Action β}
      {a : α} {m m₁ m' : Machine} {active : List RoutineId}
      (part : Part limits fuel left s m.heap.classes.size R x) (done : x m = .done a m₁)
      (inside : Meets limits fuel left s (f a) m₁ active m') :
      Meets limits fuel left s (x >>= f) m active m'
  | placed {left : Nat} {s : ScopeId} {α : Type} {x : Action α} {m m' : Machine} {active : List RoutineId}
      (span : Span) (inside : Meets limits fuel left s x m active m') :
      Meets limits fuel left s (orAt span x) m active m'
  | block {left : Nat} {s : ScopeId} {α : Type} {f : ScopeId → Action α} {m m' : Machine}
      {active : List RoutineId}
      (inside : Meets limits fuel left m.heap.scopes.size (f m.heap.scopes.size)
        { m with heap := (m.heap.newBlock s).2 } active m') :
      Meets limits fuel left s (newBlock s >>= f) m active m'
  /-- The parameters of a call are bound. -/
  | entering {left : Nat} {s scope : ScopeId} {id : RoutineId} {args : List Value} {span : Span}
      {decl : RoutineDecl} {m m' : Machine} (calls : Calls limits m id args decl scope)
      (inside : Meets limits fuel left m.heap.scopes.size
        (bindParameters m.heap.scopes.size decl.params args) (m.called scope) [] m') :
      Meets limits fuel (left + 1) s (callRoutine limits fuel (left + 1) id args span) m [] m'
  /-- The body of the routine is executed, one call deeper. -/
  | body {left : Nat} {s scope : ScopeId} {id : RoutineId} {args : List Value} {span : Span}
      {decl : RoutineDecl} {m m₁ m' : Machine} {active : List RoutineId}
      (calls : Calls limits m id args decl scope)
      (bound : bindParameters m.heap.scopes.size decl.params args (m.called scope) = .done () m₁)
      (inside : Meets limits fuel left m.heap.scopes.size
        (bodyAt limits fuel left decl m.heap.scopes.size) { m₁ with depth := m₁.depth + 1 } active m') :
      Meets limits fuel (left + 1) s (callRoutine limits fuel (left + 1) id args span) m (active ++ [id]) m'
  /-- The body has been executed, and what it returned is still parked. -/
  | leaving {left : Nat} {s scope : ScopeId} {id : RoutineId} {args : List Value} {span : Span}
      {decl : RoutineDecl} {m m' : Machine} (calls : Calls limits m id args decl scope)
      (ended : (entered (bodyAt limits fuel left) decl args m.heap.scopes.size (m.called scope)).Leaves m') :
      Meets limits fuel (left + 1) s (callRoutine limits fuel (left + 1) id args span) m [] m'

variable {limits : Limits} {fuel left : Nat} {s scope : ScopeId} {α : Type} {R : Nat → α → Prop}
  {x : Action α} {id : RoutineId} {args : List Value} {decl : RoutineDecl} {active : List RoutineId}
  {m m' : Machine}

/-- All execution is of this kind. -/
theorem part_executeBlock (n : Nat) (s : ScopeId) (block : List Stmt) :
    Part limits fuel left s n Flow.Below (executeBlock (contextAt limits fuel left) s .null block) where
  made := executeBlock_made (contextAt limits fuel left) s .null block
  tracked := .executeBlock n s (Value.below_null n) block fun _ _ => trivial

theorem Meets.passes (meets : Meets limits fuel left s x m active m') :
    Passes limits fuel left s x m active m' := by
  induction meets with
  | start x m => exact .start x m
  | finish part ended => exact .finish part.made ended
  | first _ ih => exact .first ih
  | next part done _ ih => exact .next part.made done ih
  | placed span _ ih => exact .placed span ih
  | block _ ih => exact .block ih
  | entering calls _ ih => exact .entering calls.admits ih
  | body calls bound _ ih => exact .body calls.admits bound ih
  | leaving calls ended => exact .leaving calls.admits ended

/-! ### Tidy heaps -/

theorem Part.ends (part : Part limits fuel left s m.heap.classes.size R x) (tidy : m.heap.Tidy .any) :
    (x m).Ends .any m.heap.classes.size R :=
  part.tracked.upholds m tidy (Nat.le_refl _)

/-- The heap with the scope of a call holds what the heap before it held. -/
theorem Calls.enters {β : Type} {R : Nat → β → Prop} {y : Action β} (calls : Calls limits m id args decl scope)
    (tracked : ∀ n, AllBelow n args → Tracked .any (contextAt limits fuel left) n R y) (tidy : m.heap.Tidy .any) :
    (y (m.called scope)).Ends .any m.heap.classes.size R :=
  (tracked _ calls.below).upholds (m.called scope) (tidy.newScope (some scope) true) (Nat.le_refl _)

theorem Meets.tidy (meets : Meets limits fuel left s x m active m') (tidy : m.heap.Tidy .any) :
    m'.heap.Tidy .any := by
  induction meets with
  | start x m => exact tidy
  | finish part ended => exact (part.ends tidy).tidy.leaves ended
  | first _ ih => exact ih tidy
  | next part done _ ih =>
      have ends := part.ends tidy
      rw [done] at ends
      exact ih ends.1
  | placed span _ ih => exact ih tidy
  | @block _ s _ _ _ _ _ _ ih => exact ih (tidy.newScope (some s) false)
  | @entering _ _ scope _ _ _ _ _ _ _ _ ih => exact ih (tidy.newScope (some scope) true)
  | @body left _ _ _ args _ decl m _ _ _ calls bound _ ih =>
      have binds : ∀ n, AllBelow n args → Tracked .any (contextAt limits fuel left) n Anything
          (bindParameters m.heap.scopes.size decl.params args) := fun _ below => .bindParameters _ _ below
      have ends := calls.enters binds tidy
      rw [bound] at ends
      exact ih ends.1
  | @leaving left _ _ _ args _ decl m _ calls ended =>
      have enters : ∀ n, AllBelow n args → Tracked .any (contextAt limits fuel left) n Flow.Below
          (entered (bodyAt limits fuel left) decl args m.heap.scopes.size) := fun _ below =>
        .bind (.bindParameters _ _ below) fun k _ _ _ => .deeper (part_executeBlock k _ decl.body).tracked
      exact (calls.enters enters tidy).tidy.leaves ended

end Action

namespace Session

/-- The machine occurs while the session runs the program. -/
def Meets (session : Session) (p : Program) (m : Machine) : Prop :=
  ∃ fuel active, Action.Meets session.limits fuel session.limits.depth session.globals
    (Action.executeBlock (Action.context session.limits fuel) session.globals .null p.body)
    { session.machine with depth := 0 } active m

variable {session : Session} {p : Program} {m : Machine}

/-- The machine with which a program comes to its end occurs, also where it fails. -/
theorem meets_end (ended : (session.run p).1 ≠ .error .exhausted) :
    session.Meets p (session.run p).2.machine := by
  have meets : ∀ m, (Action.executeBlock (Action.context session.limits ampleFuel) session.globals .null p.body
      { session.machine with depth := 0 }).Leaves m → session.Meets p m :=
    fun m ended => ⟨ampleFuel, [], .finish (Action.part_executeBlock _ _ _) ended⟩
  rw [run_eq] at ended ⊢
  generalize Action.executeBlock (Action.context session.limits ampleFuel) session.globals .null p.body
    { session.machine with depth := 0 } = o at meets ended ⊢
  cases o with
  | done flow m => cases flow <;> exact meets m (.done _ m)
  | failed f m => exact meets m (.failed f m)
  | crashed c m => exact meets m (.crashed c m)
  | exhausted => exact absurd rfl ended

theorem tidy_run (tidy : session.heap.Tidy .any) (p : Program) : (session.run p).2.heap.Tidy .any := by
  let begins : Machine := { session.machine with depth := 0 }
  have part : Action.Part session.limits ampleFuel session.limits.depth session.globals begins.heap.classes.size
      Flow.Below _ := Action.part_executeBlock _ _ p.body
  have ends := part.ends tidy
  exact run_all (Q := fun m => m.heap.Tidy .any) tidy ends.tidy

theorem Reachable.tidy (reachable : session.Reachable) : session.heap.Tidy .any := by
  induction reachable with
  | start limits world => exact .start limits world
  | run _ p ih => exact tidy_run ih p
  | execute _ source ih =>
      exact execute_kept (Q := fun after => after.heap.Tidy .any) ih (fun p _ => tidy_run ih p) fun _ tidy => tidy

theorem Reachable.meets_tidy (reachable : session.Reachable) (meets : session.Meets p m) :
    m.heap.Tidy .any := by
  obtain ⟨fuel, active, meets⟩ := meets
  exact meets.tidy reachable.tidy

theorem Reachable.linked (reachable : session.Reachable) (meets : session.Meets p m) : m.heap.Linked := by
  have tidy := reachable.meets_tidy meets
  obtain ⟨fuel, active, meets⟩ := meets
  have passes : session.Passes p active m := ⟨fuel, meets.passes⟩
  exact ⟨(reachable.passes_heap passes).sound.linksBack, tidy.linksBack,
    (reachable.passes_layered passes).linksBack⟩

/-- The links of the heap are well founded. Whatever programs and source texts a session has run,
at every moment of the next program each scope lies in an older one, each class inherits from an
older one and each layer of an object is over an older one; for scopes, classes and layers stay
where they were made, with the same links, and others come after them. So whatever the values
refer to, the walks that look for a name, for the boundary of a `return` and for the declaration
of a member come to an end, and so does the building of the layers of an object of any class that
some value refers to: what is found is what a walk finds that nothing bounds. -/
theorem links_lead_back (reachable : session.Reachable) (meets : session.Meets p m) :
    m.heap.Linked ∧ session.heap.KeepsLinks m.heap ∧
      WellFounded (fun t s => m.heap.parent? s = some t) ∧
      WellFounded (fun p c => m.heap.superclass? c = some p) ∧
      WellFounded (fun b o => m.heap.base? o = some b) ∧
      (∀ c, m.heap.Contains (.classRef c) → c < m.heap.classes.size) ∧ m.heap.WalksEnd := by
  have linked := reachable.linked meets
  have tidy := reachable.meets_tidy meets
  obtain ⟨fuel, active, meets⟩ := meets
  have kept : session.heap.KeepsLinks m.heap := meets.passes.run.keepsLinks
  exact ⟨linked, kept, linked.scopes.wellFounded, linked.classes.wellFounded, linked.objects.wellFounded,
    fun c holds => tidy.below holds, linked.walksEnd⟩

/-- An array that is an element of itself, a function that gives itself back, and an object that
is its own friend. -/
def knots : Program :=
  ⟨[.array .unplaced "knot" [.integer .unplaced 1],
    .expression (.assign .unplaced (.index .unplaced (.identifier .unplaced "knot") (.integer .unplaced 0))
      (.identifier .unplaced "knot")),
    .routine ⟨.function, "itself", [], [.giveBack .unplaced (some (.identifier .unplaced "itself"))], .unplaced⟩,
    .classDecl ⟨"Pet", none, [.field .everywhere .unplaced "friend"], .unplaced⟩,
    .classDecl ⟨"Dog", some ("Pet", .unplaced), [], .unplaced⟩,
    .declare .unplaced "rex" (.create .unplaced (.identifier .unplaced "Dog") []),
    .expression (.assign .unplaced (.member .unplaced (.identifier .unplaced "rex") "friend")
      (.identifier .unplaced "rex"))]⟩

theorem links_lead_back_knots : ∃ m, (start {} {}).Meets knots m ∧
    ((m.heap.items 0)[0]?).any (Value.same (.array 0)) = true ∧
    ((m.heap.local? 0 "itself").any (Value.same (.function 0)) = true ∧
      (m.heap.routines[0]?).map Routine.scope = some 0) ∧
    (m.heap.local? 1 "friend").any (Value.same (.object 1)) = true ∧
    (m.heap.parent? 2 = some 1 ∧ m.heap.superclass? 1 = some 0 ∧ m.heap.base? 1 = some 0) ∧
    m.heap.Linked ∧ m.heap.WalksEnd := by
  obtain ⟨ended, knot, function, friend, links⟩ : ((start {} {}).run knots).1.toBool = true ∧
      (((((start {} {}).run knots).2.machine.heap.items 0)[0]?).any (Value.same (.array 0)) = true) ∧
      ((((start {} {}).run knots).2.machine.heap.local? 0 "itself").any (Value.same (.function 0)) = true ∧
        (((start {} {}).run knots).2.machine.heap.routines[0]?).map Routine.scope = some 0) ∧
      (((start {} {}).run knots).2.machine.heap.local? 1 "friend").any (Value.same (.object 1)) = true ∧
      (((start {} {}).run knots).2.machine.heap.parent? 2 = some 1 ∧
        ((start {} {}).run knots).2.machine.heap.superclass? 1 = some 0 ∧
        ((start {} {}).run knots).2.machine.heap.base? 1 = some 0) := by
    decide +kernel
  have answers : ((start {} {}).run knots).1 ≠ .error .exhausted := by
    intro exhausted
    rw [exhausted] at ended
    cases ended
  have meets := meets_end answers
  obtain ⟨linked, -, -, -, -, -, walks⟩ := links_lead_back (.start {} {}) meets
  exact ⟨_, meets, knot, function, friend, links, linked, walks⟩

end Session

end Pseudocode

import Pseudocode.Proofs.Moments

/-!
The depth of calls.

The machine counts the routines that are being executed. At every moment of a run
the count is the number of routines whose bodies have been entered and not left
(`Passes.depth_eq`), and it never goes past the limit (`Passes.depth_le`). Whether a
call is refused is read off the count alone (`callRoutine_refused_iff`). However a
program ends, no call is left in the count (`Session.Reachable.depth_eq`).
-/

namespace Pseudocode

namespace Action

variable {limits : Limits} {fuel left : Nat} {s scope : ScopeId} {α : Type} {x : Action α}
  {m m' : Machine} {active : List RoutineId} {id : RoutineId} {args : List Value} {span : Span}
  {decl : RoutineDecl}

/-! ### At every moment -/

theorem Leads.depth_eq {own : Option ScopeId} (leads : Leads (fun _ => True) own x)
    (ended : (x m).Leaves m') : m'.depth = m.depth :=
  ((leads m (Heap.carries_true m.heap)).leaves ended).2

theorem Leads.depth_of_done {own : Option ScopeId} {a : α} (leads : Leads (fun _ => True) own x)
    (done : x m = .done a m') : m'.depth = m.depth := by
  apply leads.depth_eq
  rw [done]
  exact .done a m'

@[simp] theorem depth_called (m : Machine) (scope : ScopeId) : (m.called scope).depth = m.depth := rfl

theorem depth_of_bindParameters {names : List String} {vs : List Value}
    (bound : bindParameters s names vs m = .done () m') : m'.depth = m.depth :=
  (bindParameters_leads names vs).depth_of_done bound

/-- The count is the number of routines that are being executed. -/
theorem Passes.depth_eq (passes : Passes limits fuel left s x m active m') :
    m'.depth = m.depth + active.length := by
  induction passes with
  | start x m => rfl
  | finish made ended => exact made.leads.depth_eq ended
  | first _ ih => exact ih
  | next made done _ ih => rw [ih, made.leads.depth_of_done done]
  | placed span _ ih => exact ih
  | block _ ih => exact ih
  | entering admits _ ih => exact ih
  | body admits bound _ ih =>
      have before := depth_of_bindParameters bound
      rw [depth_called] at before
      simp only [ih, before, List.length_append, List.length_singleton]
      omega
  | leaving admits ended =>
      have after := entered_leads.depth_eq ended
      rwa [depth_called] at after

/-- A routine is entered only below the limit, so the count never passes it. -/
theorem Passes.depth_le (passes : Passes limits fuel left s x m active m')
    (within : m.depth ≤ limits.depth) : m'.depth ≤ limits.depth := by
  induction passes with
  | start x m => exact within
  | finish made ended => rwa [made.leads.depth_eq ended]
  | first _ ih => exact ih within
  | next made done _ ih =>
      apply ih
      rwa [made.leads.depth_of_done done]
  | placed span _ ih => exact ih within
  | block _ ih => exact ih within
  | entering admits _ ih => exact ih within
  | body admits bound _ ih =>
      have before := depth_of_bindParameters bound
      rw [depth_called] at before
      apply ih
      rw [before]
      exact admits.room
  | leaving admits ended =>
      have after := entered_leads.depth_eq ended
      rw [depth_called] at after
      rwa [after]

/-! ### Refused calls -/

/-- A call that is made leaves the scope of the call behind. -/
theorem callBody_size (run : RoutineDecl → ScopeId → Action Flow)
    (inside : Leads (fun _ => True) (some m.heap.scopes.size) (run decl m.heap.scopes.size)) :
    (callBody decl args run m.heap.scopes.size (m.called scope)).All
      fun m' => m.heap.scopes.size < m'.heap.scopes.size := by
  have leads : Leads (fun _ => True) _ (callBody decl args run m.heap.scopes.size) :=
    callBody_leads inside
  apply (leads (m.called scope) (Heap.carries_true _)).imp
  intro m' ⟨run, _⟩
  have grown : (m.called scope).heap.scopes.size = m.heap.scopes.size + 1 := Heap.size_newScope ..
  have larger := run.size_le
  omega

/-- A call of a routine with the right number of arguments is refused, and then
changes nothing, exactly when there is no room for it. -/
theorem invoke_refused_iff {run : RoutineDecl → ScopeId → Action Flow}
    (inside : ∀ decl s, Leads (fun _ => True) (some s) (run decl s))
    (found : m.heap.routines[id]? = some ⟨decl, scope⟩) (fits : args.length = decl.params.length) :
    invoke limits id args span run m =
        .failed ⟨.misuse (.callDepth limits.depth decl.name), span⟩ m ↔
      limits.depth ≤ m.depth := by
  have counted : ¬ args.length ≠ decl.params.length := fun differs => differs fits
  rw [invoke_eq, found]
  simp only [if_neg counted]
  by_cases full : limits.depth ≤ m.depth
  · rw [if_pos full]
    exact ⟨fun _ => full, fun _ => rfl⟩
  · rw [if_neg full]
    constructor
    · intro refused
      have grown : (callBody decl args run m.heap.scopes.size (m.called scope)).All _ :=
        callBody_size run (inside decl _)
      unfold Machine.called at grown
      rw [refused] at grown
      exact absurd grown (Nat.lt_irrefl _)
    · intro full'
      exact absurd full' full

theorem callRoutine_refused_iff (left : Nat) (found : m.heap.routines[id]? = some ⟨decl, scope⟩)
    (fits : args.length = decl.params.length) :
    callRoutine limits fuel left id args span m =
        .failed ⟨.misuse (.callDepth limits.depth decl.name), span⟩ m ↔
      limits.depth ≤ m.depth := by
  cases left with
  | zero => exact invoke_refused_iff (fun _ _ _ _ => trivial) found fits
  | succ left =>
      apply invoke_refused_iff _ found fits
      intro decl s
      exact (executeBlock_made (contextAt limits fuel left) s .null decl.body).leads

end Action

/-! ### Sessions -/

namespace Session

/-- The session with another count of calls. -/
def atDepth (session : Session) (depth : Nat) : Session :=
  { session with machine := { session.machine with depth := depth } }

theorem run_depth {session : Session} (idle : session.machine.depth = 0) (p : Program) :
    (session.run p).2.machine.depth = 0 := by
  have leads := (Action.executeBlock_made (Action.contextAt session.limits ampleFuel
    session.limits.depth) session.globals .null p.body).leads
      { session.machine with depth := 0 } (Heap.carries_true _)
  exact run_all (Q := fun m => m.depth = 0) idle (leads.imp fun _ reached => reached.2)

theorem execute_depth {session : Session} (idle : session.machine.depth = 0) (source : String) :
    (session.execute source).2.machine.depth = 0 :=
  execute_kept (Q := fun after => after.machine.depth = 0) idle (fun p _ => run_depth idle p) fun _ same => same

/-- Between programs no call is counted, however the last one ended. -/
theorem Reachable.depth_eq {session : Session} (reachable : session.Reachable) :
    session.machine.depth = 0 := by
  induction reachable with
  | start limits world => rfl
  | run _ p ih => exact run_depth ih p
  | execute _ source ih => exact execute_depth ih source

/-- The same result, with the same heap and world after it. -/
def SameStep (one other : Except Failure Value × Session) : Prop :=
  one.1 = other.1 ∧ one.2.heap = other.2.heap ∧ one.2.world = other.2.world

theorem finish_atDepth (session : Session) (depth : Nat) (o : Outcome Flow) :
    SameStep ((session.atDepth depth).finish o) (session.finish o) := by
  cases o with
  | done flow m => cases flow <;> exact ⟨rfl, rfl, rfl⟩
  | failed _ _ | crashed _ _ | exhausted => exact ⟨rfl, rfl, rfl⟩

/-- A program does not see the count that it finds. -/
theorem run_atDepth (session : Session) (depth : Nat) (p : Program) :
    SameStep ((session.atDepth depth).run p) (session.run p) := by
  rw [run_eq, run_eq]
  exact session.finish_atDepth depth _

theorem execute_atDepth (session : Session) (depth : Nat) (source : String) :
    SameStep ((session.atDepth depth).execute source) (session.execute source) := by
  unfold execute
  cases parse source with
  | error e => exact ⟨rfl, rfl, rfl⟩
  | ok p =>
      have same := session.run_atDepth depth p
      dsimp only
      generalize (session.atDepth depth).run p = one at same ⊢
      generalize session.run p = other at same ⊢
      obtain ⟨verdict, after⟩ := one
      obtain ⟨verdict', after'⟩ := other
      obtain ⟨result, heap, world⟩ := same
      cases result
      cases verdict with
      | ok v => exact ⟨rfl, heap, world⟩
      | error failure =>
          cases failure with
          | crashed c => exact ⟨rfl, heap, world⟩
          | _ => exact ⟨rfl, heap, congrArg (World.record · _) world⟩

/-- A program or a source text failed, and left the second session. -/
inductive FailsTo (session : Session) : Session → Prop where
  | run {p : Program} {failure : Failure} {after : Session}
      (failed : session.run p = (.error failure, after)) : FailsTo session after
  | execute {source : String} {failure : Failure} {after : Session}
      (failed : session.execute source = (.error failure, after)) : FailsTo session after

theorem Reachable.failsTo {session after : Session} (reachable : session.Reachable)
    (fails : session.FailsTo after) : after.Reachable := by
  cases fails with
  | @run p _ _ failed =>
      have next := reachable.run p
      rwa [failed] at next
  | @execute source _ _ failed =>
      have next := reachable.execute source
      rwa [failed] at next

/-- The depth of calls is exact. At every moment of a run it is the number of routines
that are being executed, within the limit, and a call with the right number of arguments
is refused for its depth exactly when it would be one more than the limit. A call, however
it ends, leaves the depth as it was. After a program or a source text that failed no call
is counted, and what comes next does not depend on the count. -/
theorem depth_counts_calls :
    (∀ (session : Session) (p : Program) (active : List RoutineId) (m : Machine),
      session.Passes p active m →
      m.depth = active.length ∧ m.depth ≤ session.limits.depth ∧
      ∀ (fuel left : Nat) (id : RoutineId) (args : List Value) (span : Span) (decl : RoutineDecl)
        (scope : ScopeId), m.heap.routines[id]? = some ⟨decl, scope⟩ →
        args.length = decl.params.length →
        (Action.callRoutine session.limits fuel left id args span m =
            .failed ⟨.misuse (.callDepth session.limits.depth decl.name), span⟩ m ↔
          active.length = session.limits.depth)) ∧
    (∀ limits fuel left id args span m,
      (Action.callRoutine limits fuel left id args span m).All fun m' => m'.depth = m.depth) ∧
    ∀ session after : Session, session.Reachable → session.FailsTo after →
      after.machine.depth = 0 ∧
      ∀ depth, (∀ p, SameStep ((after.atDepth depth).run p) (after.run p)) ∧
        ∀ source, SameStep ((after.atDepth depth).execute source) (after.execute source) := by
  constructor
  · rintro session p active m ⟨fuel, passes⟩
    have counted : m.depth = active.length := by
      rw [passes.depth_eq]
      exact Nat.zero_add _
    have within := passes.depth_le (Nat.zero_le _)
    refine ⟨counted, within, ?_⟩
    intro fuel left id args span decl scope found fits
    rw [Action.callRoutine_refused_iff left found fits, ← counted]
    exact ⟨fun full => Nat.le_antisymm within full, fun full => Nat.le_of_eq full.symm⟩
  constructor
  · intro limits fuel left id args span m
    have leads : Action.Leads (fun _ => True) none _ :=
      Action.callRoutine_leads limits fuel left id args span
    apply (leads m (Heap.carries_true m.heap)).imp
    intro m' ⟨_, same⟩
    exact same
  · intro session after reachable fails
    constructor
    · exact (reachable.failsTo fails).depth_eq
    · intro depth
      exact ⟨after.run_atDepth depth, after.execute_atDepth depth⟩

/-- A procedure that calls itself. -/
def callingOn : RoutineDecl :=
  ⟨.procedure, "on", [], [.expression (.call .unplaced (.identifier .unplaced "on") [])], .unplaced⟩

/-- A session that knows the procedure and allows one call. -/
def oneCall : Session := ((start { rounds := 0, depth := 1 } {}).run ⟨[.routine callingOn]⟩).2

/-- The machine when the body of the procedure begins. -/
def insideCall : Machine := { oneCall.machine.called 0 with depth := 1 }

theorem depth_counts_calls_inside :
    oneCall.Passes ⟨callingOn.body⟩ [0] insideCall ∧
      Action.callRoutine oneCall.limits 0 0 0 [] .unplaced insideCall =
        .failed ⟨.misuse (.callDepth 1 "on"), .unplaced⟩ insideCall := by
  have passes : oneCall.Passes ⟨callingOn.body⟩ [0] insideCall := by
    -- The arguments and the name of the procedure are evaluated before the call.
    refine ⟨0, .first (.first (.placed .unplaced (.next (.leaf (.pure [])) rfl (.next ?_ rfl ?_))))⟩
    · exact .orAt .unplaced (.leaf (.lookup _ "on"))
    · have admits : Action.Admits oneCall.limits oneCall.machine 0 [] callingOn 0 :=
        ⟨rfl, rfl, Nat.one_pos⟩
      exact .body admits rfl (.start _ _)
  obtain ⟨-, -, refused⟩ := depth_counts_calls.1 oneCall ⟨callingOn.body⟩ [0] insideCall passes
  exact ⟨passes, (refused 0 0 0 [] .unplaced callingOn 0 rfl rfl).mpr rfl⟩

end Session

end Pseudocode

import Pseudocode.Proofs.Depth
import Pseudocode.Proofs.Returning

/-!
Programs in pieces.

A block runs like its front part and then the rest of it, with the value that the
front part left (`executeBlock_append`). Outside of calls no statement returns, so
the value with which a block begins is forgotten by its first statement
(`executeBlock_last`), and nothing of a run stays behind but the heap and the world.
A session therefore cannot tell whether a program was entered as a whole or in
pieces (`runInTurn_eq_run`).
-/

namespace Pseudocode

/-- Where no call is around, nothing returns. -/
theorem Sim.not_returned {s : ScopeId} {x : Action Flow} {y : Action Signal} {m m' : Machine}
    (sim : Sim false s x y) (stands : Stands false s m) : x m ≠ .done .returned m' := by
  intro ended
  have matched := sim.agrees m stands
  rw [ended] at matched
  generalize y m.plain = o at matched
  cases matched with
  | returned v _ inside _ =>
      rw [stands.inside] at inside
      cases inside

namespace Action

/-! ### Blocks in two parts -/

/-- The rest of a block after a part of it ended. -/
def resume (ctx : Context) (s : ScopeId) (rest : List Stmt) : Flow → Action Flow
  | .value v => executeBlock ctx s v rest
  | .returned => pure .returned

theorem executeBlock_append (ctx : Context) (s : ScopeId) (last : Value) (front rest : List Stmt) :
    executeBlock ctx s last (front ++ rest) =
      executeBlock ctx s last front >>= resume ctx s rest := by
  induction front generalizing last with
  | nil => rfl
  | cons stmt front ih =>
      funext m
      simp only [List.cons_append, executeBlock, bind_apply]
      cases execute ctx s stmt m with
      | done flow m' =>
          simp only [isTerminated, ofHeap]
          by_cases left : m'.heap.isTerminated s = true
          · simp only [left, if_true]
            rfl
          · simp only [left, Bool.false_eq_true, if_false, ih]
            rfl
      | failed _ _ | crashed _ _ | exhausted => rfl

/-- The value that a block begins with is forgotten by its first statement. -/
theorem executeBlock_last {s : ScopeId} {m : Machine} (limits : Limits) (fuel left : Nat)
    (stands : Stands false s m) (last last' : Value) (stmt : Stmt) (rest : List Stmt) :
    executeBlock (contextAt limits fuel left) s last (stmt :: rest) m =
      executeBlock (contextAt limits fuel left) s last' (stmt :: rest) m := by
  have sim : Sim false s _ _ := Sim.execute (corresponds limits fuel left) s stmt
  simp only [executeBlock, bind_apply]
  cases ended : execute (contextAt limits fuel left) s stmt m with
  | done flow m' =>
      -- Only after a `return` would the value from before still count.
      cases flow with
      | value v => rfl
      | returned => exact absurd ended (sim.not_returned stands)
  | failed _ _ | crashed _ _ | exhausted => rfl

end Action

/-! ### Sessions -/

namespace Session

variable {session : Session}

/-- Runs programs one after another, until one fails. The value is that of the last
program that is not empty, `last` when there is none. -/
def runInTurn (session : Session) (last : Value) : List Program → Except Failure Value × Session
  | [] => (.ok last, session)
  | p :: rest =>
      match session.run p with
      | (.ok v, session) => runInTurn session (if p.body.isEmpty then last else v) rest
      | (.error failure, session) => (.error failure, session)

/-- A block in the outermost scope, when the statements before it have come to the
value `last`. -/
def blockFrom (session : Session) (last : Value) (block : List Stmt) : Action Flow :=
  Action.executeBlock (Action.contextAt session.limits ampleFuel session.limits.depth)
    session.globals last block

/-- The result of a block and the session after it. -/
def runFrom (session : Session) (last : Value) (block : List Stmt) :
    Except Failure Value × Session :=
  session.finish (session.blockFrom last block session.machine)

/-- The results are the same, and so are the sessions after them, unless there is no
end to come after. -/
def SameEnd (one other : Except Failure Value × Session) : Prop :=
  one.1 = other.1 ∧ (other.1 ≠ .error .exhausted → one.2 = other.2)

namespace Reachable

theorem machine_idle (reachable : session.Reachable) :
    { session.machine with depth := 0 } = session.machine := by
  rw [← reachable.depth_eq]

theorem run_eq_runFrom (reachable : session.Reachable) (p : Program) :
    session.run p = session.runFrom .null p.body := by
  rw [run_eq, reachable.machine_idle]
  rfl

theorem stands_idle (reachable : session.Reachable) :
    Stands false session.globals session.machine := by
  have stands := reachable.stands
  rwa [reachable.machine_idle] at stands

theorem blockFrom_ne_returned (reachable : session.Reachable) (last : Value) (block : List Stmt)
    (m : Machine) : session.blockFrom last block session.machine ≠ .done .returned m := by
  have same := corresponds session.limits ampleFuel session.limits.depth
  have sim : Sim false session.globals _ _ := Sim.executeBlock same session.globals last block
  exact sim.not_returned reachable.stands_idle

/-- A program that is not empty, at the front of a longer one. -/
theorem blockFrom_append (reachable : session.Reachable) (last : Value) (stmt : Stmt)
    (more rest : List Stmt) :
    session.blockFrom last (stmt :: more ++ rest) session.machine =
      match session.blockFrom .null (stmt :: more) session.machine with
      | .done (.value v) m => session.blockFrom v rest m
      | ended => ended := by
  have forgotten : session.blockFrom last (stmt :: more) session.machine =
      session.blockFrom .null (stmt :: more) session.machine :=
    Action.executeBlock_last _ _ _ reachable.stands_idle last .null stmt more
  rw [← forgotten]
  unfold blockFrom
  rw [Action.executeBlock_append, Action.bind_apply]
  cases Action.executeBlock (Action.contextAt session.limits ampleFuel session.limits.depth)
      session.globals last (stmt :: more) session.machine with
  | done flow m => cases flow <;> rfl
  | failed _ _ | crashed _ _ | exhausted => rfl

end Reachable

/-- What comes after some pieces does not depend on the session that they began in. -/
theorem sameEnd_finish (session : Session) (m : Machine) {result : Except Failure Value × Session}
    {o : Outcome Flow} (same : SameEnd result (finish { session with machine := m } o)) :
    SameEnd result (session.finish o) := by
  cases o with
  | done flow m' => cases flow <;> exact same
  | failed _ _ | crashed _ _ => exact same
  | exhausted => exact ⟨same.1, fun ends => absurd rfl ends⟩

/-- One piece: when it ends the others go on with its value, and when it fails they do
not begin. -/
theorem Reachable.sameEnd_append (reachable : session.Reachable) (last : Value) (p : Program)
    (rest : List Stmt) {result : Except Failure Value × Session}
    (ended : ∀ v session', session.run p = (.ok v, session') →
      SameEnd result (session'.runFrom (if p.body.isEmpty then last else v) rest))
    (failed : ∀ failure session', session.run p = (.error failure, session') →
      result = (.error failure, session')) :
    SameEnd result (session.runFrom last (p.body ++ rest)) := by
  have ran := reachable.run_eq_runFrom p
  obtain ⟨body⟩ := p
  cases body with
  | nil => exact ended .null session ran
  | cons stmt more =>
      unfold runFrom at ran ⊢
      rw [reachable.blockFrom_append]
      cases o : session.blockFrom .null (stmt :: more) session.machine with
      | done flow m =>
          rw [o] at ran
          cases flow with
          | value v => exact sameEnd_finish session m (ended v _ ran)
          | returned => exact absurd o (reachable.blockFrom_ne_returned _ _ m)
      | failed _ _ | crashed _ _ =>
          rw [o] at ran
          rw [failed _ _ ran]
          exact ⟨rfl, fun _ => rfl⟩
      | exhausted =>
          rw [o] at ran
          rw [failed _ _ ran]
          exact ⟨rfl, fun _ => rfl⟩

theorem Reachable.runInTurn_sameEnd (reachable : session.Reachable) (last : Value)
    (pieces : List Program) :
    SameEnd (session.runInTurn last pieces)
      (session.runFrom last (pieces.flatMap Program.body)) := by
  induction pieces generalizing session last with
  | nil => exact ⟨rfl, fun _ => rfl⟩
  | cons p rest ih =>
      rw [List.flatMap_cons]
      apply reachable.sameEnd_append
      · intro v session' ran
        have after : session'.Reachable := by
          have step := reachable.run p
          rwa [ran] at step
        simp only [runInTurn, ran]
        exact ih after _
      · intro failure session' ran
        simp only [runInTurn, ran]

/-- A session is the sum of its pieces. However a program is cut into programs, running
them in turn comes to the same value or failure as running it whole, and leaves the
same session: the same heap, variables, output and accesses to the world. A program
that does not end does not end in pieces either. -/
theorem runInTurn_eq_run (reachable : session.Reachable) (p : Program) (pieces : List Program)
    (cut : pieces.flatMap Program.body = p.body) :
    (session.runInTurn .null pieces).1 = (session.run p).1 ∧
      ((session.run p).1 ≠ .error .exhausted →
        (session.runInTurn .null pieces).2 = (session.run p).2) := by
  rw [reachable.run_eq_runFrom, ← cut]
  exact reachable.runInTurn_sameEnd .null pieces

/-- A session whose first program failed after a declaration. -/
def interrupted : Session :=
  ((start {} {}).run ⟨[.declare .unplaced "x" (.integer .unplaced 1),
    .expression (.identifier .unplaced "missing")]⟩).2

/-- An assignment, nothing, and the variable. -/
def resetting : List Program :=
  [⟨[.expression (.assign .unplaced (.identifier .unplaced "x") (.integer .unplaced 7))]⟩, ⟨[]⟩,
    ⟨[.expression (.identifier .unplaced "x")]⟩]

theorem runInTurn_resetting :
    (interrupted.run ⟨resetting.flatMap Program.body⟩).1 = .ok (.integer 7) ∧
      interrupted.runInTurn .null resetting = interrupted.run ⟨resetting.flatMap Program.body⟩ := by
  have reachable : interrupted.Reachable := .run (.start {} {}) _
  have ended : (interrupted.run ⟨resetting.flatMap Program.body⟩).1 = .ok (.integer 7) := rfl
  obtain ⟨value, same⟩ := runInTurn_eq_run reachable ⟨resetting.flatMap Program.body⟩ resetting rfl
  refine ⟨ended, Prod.ext value (same ?_)⟩
  rw [ended]
  exact nofun

end Session

end Pseudocode

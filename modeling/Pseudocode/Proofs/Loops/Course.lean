import Pseudocode.Eval
import Pseudocode.Proofs.Outcome

/-!
The course of a loop.

A `Loop` is the loop without any bound on its rounds. `Rounds` are rounds that
complete, with the machines on which the body was started; `Course` is a whole
execution, from the first test to the outcome. Both list every start of the body,
so the length of the list is the number of times that the body is started. Since
actions are functions of the machine, a loop has at most one course
(`Course.unique`); a loop that goes on for ever has none.

`Loop.run` is the loop with a bound. Below its bound it ends as the loop does
(`Course.run_eq`); otherwise it completes that many rounds
(`exists_ending_or_rounds`).
-/

namespace Pseudocode

/-- The outcome of an action that gives no result is that of the actions around it. -/
inductive Outcome.Stops {α β : Type} : Outcome α → Outcome β → Prop
  | failed {f : Fault} {m : Machine} : Stops (.failed f m) (.failed f m)
  | crashed {c : Crash} {m : Machine} : Stops (.crashed c m) (.crashed c m)
  | exhausted : Stops .exhausted .exhausted

theorem Outcome.Stops.of_failed {α β : Type} {o : Outcome α} {f : Fault} {m : Machine} (failed : o = .failed f m) :
    o.Stops (.failed f m : Outcome β) := by
  subst failed
  exact .failed

theorem Outcome.Stops.of_crashed {α β : Type} {o : Outcome α} {c : Crash} {m : Machine}
    (crashed : o = .crashed c m) : o.Stops (.crashed c m : Outcome β) := by
  subst crashed
  exact .crashed

structure Loop where
  /-- Whether the body is to run. -/
  test : Action Bool
  body : Action Flow
  /-- Prepares the next round. Without one the loop is over. -/
  next : Action Bool

namespace Loop

variable {loop : Loop} {m m₁ m₂ m' : Machine} {starts starts₁ starts₂ last : List Machine}
  {r r' : Outcome Flow}

/-- Rounds that complete, after each of which there is another one. -/
inductive Rounds (loop : Loop) : Machine → List Machine → Machine → Prop
  | none {m : Machine} : Rounds loop m [] m
  | more {m start m₁ m₂ m' : Machine} {v : Value} {starts : List Machine}
      (holds : loop.test m = .done true start) (completes : loop.body start = .done (.value v) m₁)
      (goesOn : loop.next m₁ = .done true m₂) (rest : Rounds loop m₂ starts m') :
      Rounds loop m (start :: starts) m'

/-- How a loop ends: with the test of a round, in its body, or after it. -/
inductive Ending (loop : Loop) : Machine → List Machine → Outcome Flow → Prop
  | finished {m m' : Machine} (fails : loop.test m = .done false m') :
      Ending loop m [] (.done (.value .null) m')
  | untested {m : Machine} {r : Outcome Flow} (stops : (loop.test m).Stops r) : Ending loop m [] r
  | returns {m start m' : Machine} (holds : loop.test m = .done true start)
      (returns : loop.body start = .done .returned m') : Ending loop m [start] (.done .returned m')
  | broken {m start : Machine} {r : Outcome Flow} (holds : loop.test m = .done true start)
      (stops : (loop.body start).Stops r) : Ending loop m [start] r
  | final {m start m₁ m' : Machine} {v : Value} (holds : loop.test m = .done true start)
      (completes : loop.body start = .done (.value v) m₁) (ends : loop.next m₁ = .done false m') :
      Ending loop m [start] (.done (.value .null) m')
  | unready {m start m₁ : Machine} {v : Value} {r : Outcome Flow}
      (holds : loop.test m = .done true start) (completes : loop.body start = .done (.value v) m₁)
      (stops : (loop.next m₁).Stops r) : Ending loop m [start] r

/-- The execution of a loop: the machines on which the body is started, in order,
and the outcome. -/
inductive Course (loop : Loop) (m : Machine) : List Machine → Outcome Flow → Prop
  | intro {m₁ : Machine} {starts last : List Machine} {r : Outcome Flow}
      (rounds : loop.Rounds m starts m₁) (ending : loop.Ending m₁ last r) :
      Course loop m (starts ++ last) r

/-! ### Rounds one after the other -/

theorem Rounds.trans (first : loop.Rounds m starts₁ m₁) (second : loop.Rounds m₁ starts₂ m₂) :
    loop.Rounds m (starts₁ ++ starts₂) m₂ := by
  induction first with
  | none => exact second
  | more holds completes goesOn _ ih => exact .more holds completes goesOn (ih second)

theorem Rounds.course (rounds : loop.Rounds m starts₁ m₁) (course : loop.Course m₁ starts₂ r) :
    loop.Course m (starts₁ ++ starts₂) r := by
  cases course with
  | intro rest ending =>
      rw [← List.append_assoc]
      exact .intro (rounds.trans rest) ending

/-- Of two executions of the same loop the shorter one begins the longer one. -/
theorem Rounds.split (first : loop.Rounds m starts₁ m₁) (second : loop.Rounds m starts₂ m₂)
    (shorter : starts₁.length ≤ starts₂.length) :
    ∃ rest, starts₂ = starts₁ ++ rest ∧ loop.Rounds m₁ rest m₂ := by
  induction first generalizing starts₂ with
  | none => exact ⟨starts₂, rfl, second⟩
  | more holds completes goesOn _ ih =>
      cases second with
      | none => cases shorter
      | more holds' completes' goesOn' rest' =>
          cases holds.symm.trans holds'
          cases completes.symm.trans completes'
          cases goesOn.symm.trans goesOn'
          obtain ⟨rest, same, rounds⟩ := ih rest' (Nat.le_of_succ_le_succ shorter)
          exact ⟨rest, congrArg _ same, rounds⟩

/-- Where a loop ends no round completes. -/
theorem Ending.not_rounds (ending : loop.Ending m last r) (rounds : loop.Rounds m starts m') :
    starts = [] := by
  cases rounds with
  | none => rfl
  | more holds completes goesOn _ =>
      exfalso
      cases ending with
      | finished fails => cases fails.symm.trans holds
      | untested stops =>
          rw [holds] at stops
          cases stops
      | returns holds' returns =>
          cases holds.symm.trans holds'
          cases returns.symm.trans completes
      | broken holds' stops =>
          cases holds.symm.trans holds'
          rw [completes] at stops
          cases stops
      | final holds' completes' ends =>
          cases holds.symm.trans holds'
          cases completes.symm.trans completes'
          cases ends.symm.trans goesOn
      | unready holds' completes' stops =>
          cases holds.symm.trans holds'
          cases completes.symm.trans completes'
          rw [goesOn] at stops
          cases stops

/-! ### Loops with a bound -/

/-- The loop with at most `left` rounds, and what comes after them. -/
def run (loop : Loop) (after : Action Flow) : Nat → Action Flow
  | 0 => after
  | left + 1 => do
      if ← loop.test then
        match ← loop.body with
        | .returned => return .returned
        | .value _ => if ← loop.next then run loop after left else return .value .null
      else return .value .null

variable {after : Action Flow}

theorem Rounds.run_eq (rounds : loop.Rounds m starts m') (left : Nat) :
    loop.run after (left + starts.length) m = loop.run after left m' := by
  induction rounds with
  | none => rfl
  | more holds completes goesOn _ ih =>
      rw [List.length_cons, ← Nat.add_assoc]
      simp only [run, Action.bind_apply, holds, completes, goesOn, if_true]
      exact ih

theorem Ending.run_eq (ending : loop.Ending m last r) (left : Nat) :
    loop.run after (left + 1) m = r := by
  unfold run
  cases ending with
  | finished fails =>
      simp only [Action.bind_apply, fails]
      rfl
  | untested stops =>
      rw [Action.bind_apply]
      revert stops
      generalize loop.test m = tested
      rintro ⟨⟩ <;> rfl
  | returns holds returns =>
      simp only [Action.bind_apply, holds, returns, if_true]
      rfl
  | @broken start _ holds stops =>
      simp only [Action.bind_apply, holds, if_true]
      revert stops
      generalize loop.body start = ended
      rintro ⟨⟩ <;> rfl
  | final holds completes ends =>
      simp only [Action.bind_apply, holds, completes, ends, if_true]
      rfl
  | @unready start m₁ v _ holds completes stops =>
      simp only [Action.bind_apply, holds, completes, if_true]
      revert stops
      generalize loop.next m₁ = prepared
      rintro ⟨⟩ <;> rfl

/-- The bounded loop ends as the loop does when fewer rounds than the bound come
before the end. -/
theorem Rounds.run_of_ending (rounds : loop.Rounds m starts m₁) (ending : loop.Ending m₁ last r)
    {bound : Nat} (below : starts.length < bound) : loop.run after bound m = r := by
  have enough : bound = bound - starts.length - 1 + 1 + starts.length := by omega
  rw [enough, rounds.run_eq, ending.run_eq]

theorem Course.run_eq (course : loop.Course m starts r) {bound : Nat} (below : starts.length < bound) :
    loop.run after bound m = r := by
  cases course with
  | intro rounds ending =>
      rw [List.length_append] at below
      exact rounds.run_of_ending ending (Nat.lt_of_le_of_lt (Nat.le_add_right _ _) below)

/-- A loop that ends in a round has started the body there if the test let it. -/
theorem Ending.last_eq (ending : loop.Ending m last r) :
    last = match loop.test m with
      | .done true start => [start]
      | _ => [] := by
  cases ending with
  | finished fails => rw [fails]
  | untested stops =>
      revert stops
      generalize loop.test m = tested
      rintro ⟨⟩ <;> rfl
  | returns holds _ => rw [holds]
  | broken holds _ => rw [holds]
  | final holds _ _ => rw [holds]
  | unready holds _ _ => rw [holds]

/-- The body is started at most once where no round completes. -/
theorem Ending.length_le (ending : loop.Ending m last r) : last.length ≤ 1 := by
  rw [ending.last_eq]
  split
  · exact Nat.le_refl 1
  · exact Nat.zero_le 1

/-- No more rounds complete than those before the end. -/
theorem Rounds.length_le (rounds : loop.Rounds m starts₂ m₂) (before : loop.Rounds m starts₁ m₁)
    (ending : loop.Ending m₁ last r) : starts₂.length ≤ starts₁.length := by
  rcases Nat.le_total starts₂.length starts₁.length with fewer | more
  · exact fewer
  · obtain ⟨rest, rfl, further⟩ := before.split rounds more
    have same : starts₁ ++ rest = starts₁ := by
      rw [ending.not_rounds further, List.append_nil]
    exact Nat.le_of_eq (congrArg List.length same)

/-- A loop has at most one course. -/
theorem Course.unique (first : loop.Course m starts₁ r) (second : loop.Course m starts₂ r') :
    starts₁ = starts₂ ∧ r = r' := by
  have starts : starts₁ = starts₂ := by
    cases first with
    | intro rounds₁ ending₁ =>
        cases second with
        | intro rounds₂ ending₂ =>
            have fewer := rounds₁.length_le rounds₂ ending₂
            have more := rounds₂.length_le rounds₁ ending₁
            obtain ⟨rest, rfl, further⟩ := rounds₁.split rounds₂ fewer
            cases ending₁.not_rounds further
            cases further
            rw [ending₁.last_eq, ending₂.last_eq, List.append_nil]
  subst starts
  have below := Nat.lt_succ_self starts₁.length
  have ran : loop.run Action.exhausted (starts₁.length + 1) m = r := first.run_eq below
  exact ⟨rfl, ran.symm.trans (second.run_eq below)⟩

/-- What a round makes greater is greater at every later start of the body. -/
theorem Course.pairwise {μ : Machine → Nat}
    (tests : ∀ m start, loop.test m = .done true start → μ m ≤ μ start)
    (turns : ∀ start v m₁ m₂, loop.body start = .done (.value v) m₁ →
      loop.next m₁ = .done true m₂ → μ start < μ m₂)
    (course : loop.Course m starts r) :
    starts.Pairwise (μ · < μ ·) ∧ ∀ start ∈ starts, μ m ≤ μ start := by
  cases course with
  | intro rounds ending =>
      induction rounds with
      | none =>
          rw [List.nil_append, ending.last_eq]
          split
          · rename_i holds
            exact ⟨List.pairwise_singleton .., by simpa using tests _ _ holds⟩
          · exact ⟨.nil, nofun⟩
      | more holds completes goesOn _ ih =>
          obtain ⟨increasing, above⟩ := ih ending
          have here := tests _ _ holds
          have further := turns _ _ _ _ completes goesOn
          refine ⟨List.pairwise_cons.mpr ⟨?_, increasing⟩, ?_⟩
          · intro later mem
            exact Nat.lt_of_lt_of_le further (above later mem)
          · intro later mem
            rcases List.mem_cons.mp mem with rfl | mem
            · exact here
            · exact Nat.le_trans here (Nat.le_trans (Nat.le_of_lt further) (above later mem))

end Loop

end Pseudocode

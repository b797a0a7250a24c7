import Pseudocode.Proofs.Loops.Course
import Pseudocode.Proofs.Spans.Execution
import Pseudocode.Proofs.Termination

/-!
What a counting loop counts.

`Loop.ofCount` is the loop of a `for` statement in the scope of the loop. A body that
leaves the variable as it found it runs once for each integer from the first bound to
the last, in order (`counts_range`): by induction on the numbers that are left, from
one round, after which one number less is left. After the greatest integer there is
no next one, and the loop is over.
-/

namespace Pseudocode

open Pseudocode.Action

variable {loop : Loop} {s scope : ScopeId} {name : String} {span : Span} {current last : Int64}
  {m m' : Machine}

/-- The machine on which a block inside scope `s` runs: it has a new scope for it. -/
def Machine.inside (m : Machine) (s : ScopeId) : Machine :=
  { m with heap := (m.heap.newBlock s).2 }

/-- The machine on which a counting loop in scope `s` begins: the scope of the loop is new,
and binds the variable to the first number. -/
def Machine.counting (m : Machine) (s : ScopeId) (name : String) (first : Int64) : Machine :=
  { m with heap := (m.heap.newBlock s).2.setLocal m.heap.scopes.size name (.integer first) }

/-! ### The variable -/

namespace Heap

theorem local?_newBlock (h : Heap) (s t : ScopeId) (name : String) :
    (h.newBlock s).2.local? t name = h.local? t name := by
  unfold local?
  rw [show (h.newBlock s).2.scope? t = _ from scope?_newScope ..]
  split
  · rename_i new
    rw [scope?_eq_none_iff.mpr (Nat.le_of_eq new.symm)]
    rfl
  · rfl

/-- A block sees what the scope around it binds. -/
theorem lookup_newBlock {h : Heap} {v : Value} (bound : h.local? s name = some v) :
    (h.newBlock s).2.lookup h.scopes.size name = .ok v := by
  obtain ⟨cell, found, value⟩ := Option.bind_eq_some_iff.mp bound
  have older : s < h.scopes.size := lt_of_scope? found
  have here : (h.newBlock s).2.scope? h.scopes.size = some { parent := some s } := by
    rw [show (h.newBlock s).2.scope? h.scopes.size = _ from scope?_newScope .., if_pos rfl]
  have around : (h.newBlock s).2.scope? s = some cell := by
    rw [show (h.newBlock s).2.scope? s = _ from scope?_newScope .., if_neg (Nat.ne_of_lt older), found]
  obtain ⟨steps, enough⟩ := Nat.exists_eq_add_of_lt older
  have unbound : ({ parent := some s } : Scope).get? name = none := rfl
  simp only [lookup, lookup?, enough, lookupFrom]
  rw [← enough, here]
  simp only [unbound, around, value]

end Heap

theorem Action.loopVariable_of_local? (bound : m.heap.local? scope name = some (.integer current))
    (span : Span) : loopVariable scope name span m = .done current m := by
  unfold Action.loopVariable
  rw [bind_apply]
  simp only [lookup, tryOfHeap, Heap.lookup_of_local? bound]
  rfl

/-! ### Counting loops as loops -/

namespace Loop

/-- The loop that runs the body as long as the variable in a scope is not above `last`, and
adds one to it after each round. -/
def counting (scope : ScopeId) (name : String) (last : Int64) (span : Span) (body : Action Flow) :
    Loop where
  test := do
    let current ← loopVariable scope name span
    return decide (current.toInt ≤ last.toInt)
  body := body
  next := do
    let reached ← loopVariable scope name span
    match Integer.add? reached 1 with
    | none => return false
    | some next =>
        setLocal scope name (.integer next)
        return true

/-- The loop of a `for` statement whose loop has the scope `scope`. -/
def ofCount (ctx : Context) (scope : ScopeId) (name : String) (last : Int64) (span : Span)
    (body : List Stmt) : Loop :=
  counting scope name last span (nested scope fun inner => executeBlock ctx inner .null body)

/-- The body leaves the variable as it found it, whenever the loop comes to it. -/
def Undisturbed (loop : Loop) (scope : ScopeId) (name : String) (m : Machine) : Prop :=
  ∀ starts at' start, loop.Rounds m starts at' → loop.test at' = .done true start →
    ∃ v after, loop.body start = .done (.value v) after ∧
      after.heap.local? scope name = start.heap.local? scope name

theorem counting_test {body : Action Flow}
    (bound : m.heap.local? scope name = some (.integer current)) :
    (counting scope name last span body).test m = .done (decide (current.toInt ≤ last.toInt)) m := by
  change (loopVariable scope name span >>= _) m = _
  rw [bind_apply, loopVariable_of_local? bound]
  rfl

theorem counting_next {body : Action Flow}
    (bound : m.heap.local? scope name = some (.integer current)) :
    (counting scope name last span body).next m = match Integer.add? current 1 with
      | none => .done false m
      | some next => .done true { m with heap := m.heap.setLocal scope name (.integer next) } := by
  change (loopVariable scope name span >>= _) m = _
  rw [bind_apply, loopVariable_of_local? bound]
  dsimp only
  cases Integer.add? current 1 <;> rfl

end Loop

theorem Action.countLoop_eq_run (scope : ScopeId) (name : String) (last : Int64) (span : Span)
    (body : Action Flow) (fuel : Nat) : countLoop scope name last span body fuel
      = (Loop.counting scope name last span body).run exhausted fuel := by
  induction fuel with
  | zero => rfl
  | succ fuel ih =>
      funext m
      unfold countLoop Loop.run
      rw [ih]
      simp only [Loop.counting, bind_apply]
      cases loopVariable scope name span m with
      | failed _ _ | crashed _ _ | exhausted => rfl
      | done current m₁ =>
          by_cases more : current.toInt ≤ last.toInt
          · simp only [more, if_true, decide_true, pure_apply, bind_apply]
            cases body m₁ with
            | failed _ _ | crashed _ _ | exhausted => rfl
            | done flow m₂ =>
                cases flow with
                | returned => rfl
                | value v =>
                    simp only [bind_apply]
                    cases loopVariable scope name span m₂ with
                    | failed _ _ | crashed _ _ | exhausted => rfl
                    | done reached m₃ =>
                        dsimp only
                        cases Integer.add? reached 1 <;> rfl
          · simp only [more, if_false, decide_false]
            rfl

/-! ### One round after the other -/

namespace Loop

variable {ctx : Context} {body : List Stmt}

theorem Undisturbed.after {starts : List Machine} (undisturbed : loop.Undisturbed scope name m)
    (rounds : loop.Rounds m starts m') : loop.Undisturbed scope name m' := by
  intro further at' start more holds
  exact undisturbed (starts ++ further) at' start (rounds.trans more) holds

/-- The variable has the numbers from `current` on, one after the other. -/
def Counts (starts : List Machine) (scope : ScopeId) (name : String) (current : Int64) : Prop :=
  ∀ (i : Nat) (start : Machine), starts[i]? = some start →
    ∃ n : Int64, n.toInt = current.toInt + i ∧ start.heap.local? scope name = some (.integer n)

theorem Counts.nil : Counts [] scope name current := by
  intro i start at'
  cases at'

theorem Counts.cons {starts : List Machine} {next : Int64}
    (here : m.heap.local? scope name = some (.integer current))
    (rest : starts ≠ [] → next.toInt = current.toInt + 1) (counts : Counts starts scope name next) :
    Counts (m :: starts) scope name current := by
  intro i start at'
  cases i with
  | zero =>
      cases at'
      exact ⟨current, (Int.add_zero _).symm, here⟩
  | succ i =>
      obtain ⟨n, value, bound⟩ := counts i start at'
      have grown := rest (by rintro rfl; cases at')
      exact ⟨n, by omega, bound⟩

/-- A round of an undisturbed loop leaves one number less to count. -/
theorem counting_course {body : Action Flow} (n : Nat) :
    ∀ (m : Machine) (current : Int64), m.heap.local? scope name = some (.integer current) →
      (counting scope name last span body).Undisturbed scope name m →
      (last.toInt + 1 - current.toInt).toNat = n →
      ∃ starts m', (counting scope name last span body).Course m starts (.done (.value .null) m') ∧
        starts.length = n ∧ Counts starts scope name current := by
  induction n with
  | zero =>
      intro m current bound _ left
      have tested : (counting scope name last span body).test m = .done _ m := counting_test bound
      rw [decide_eq_false (by omega : ¬ current.toInt ≤ last.toInt)] at tested
      exact ⟨[] ++ [], m, .intro .none (.finished tested), rfl, .nil⟩
  | succ n ih =>
      intro m current bound undisturbed left
      have tested : (counting scope name last span body).test m = .done _ m := counting_test bound
      rw [decide_eq_true (by omega : current.toInt ≤ last.toInt)] at tested
      obtain ⟨v, after, completes, kept⟩ := undisturbed [] m m .none tested
      have bound' := kept.trans bound
      have advanced : (counting scope name last span body).next after = _ := counting_next bound'
      cases added : Integer.add? current 1 with
      | none =>
          -- The last number is the greatest integer.
          have greatest := Integer.narrow?_eq_none_iff.mp added
          have bounds := Integer.toInt_bounds current
          have bounds' := Integer.toInt_bounds last
          have one : (1 : Int64).toInt = 1 := by decide
          rw [added] at advanced
          refine ⟨[] ++ [m], after, .intro .none (.final tested completes advanced), ?_, ?_⟩
          · simp only [List.nil_append, List.length_singleton]
            omega
          · have none : Counts [] scope name current := .nil
            exact .cons bound (fun more => absurd rfl more) none
      | some next =>
          have grown := toInt_of_add?_one added
          rw [added] at advanced
          let m₂ : Machine := { after with heap := after.heap.setLocal scope name (.integer next) }
          have valid : scope < after.heap.scopes.size := by
            obtain ⟨cell, found, -⟩ := Option.bind_eq_some_iff.mp bound'
            exact Heap.lt_of_scope? found
          have round : (counting scope name last span body).Rounds m [m] m₂ :=
            .more tested completes advanced .none
          obtain ⟨starts, m', course, length, counts⟩ := ih m₂ next
            (Heap.local?_setLocal_self name _ valid) (undisturbed.after round) (by omega)
          exact ⟨[m] ++ starts, m', round.course course, congrArg (· + 1) length,
            .cons bound (fun _ => grown) counts⟩

end Loop

/-! ### Rounds in scopes of their own -/

section

variable {ctx : Context} {limits : Limits} {fuel left : Nat} {body : List Stmt}

/-- The body that is started on `start` runs in a new scope inside the scope of the loop,
where the variable has the number `n`. -/
structure Loop.InRound (ctx : Context) (scope : ScopeId) (name : String) (last : Int64) (span : Span)
    (body : List Stmt) (start : Machine) (n : Int64) : Prop where
  value : start.heap.local? scope name = some (.integer n)
  runs : (Loop.ofCount ctx scope name last span body).body start =
    (executeBlock ctx start.heap.scopes.size .null body >>= fun flow => Pure.pure (endOfBlock flow))
      (start.inside scope)
  child : (start.inside scope).heap.scope? start.heap.scopes.size = some { parent := some scope }
  seen : (start.inside scope).heap.lookup start.heap.scopes.size name = .ok (.integer n)

theorem Loop.ofCount_body (ctx : Context) (start : Machine) :
    (ofCount ctx scope name last span body).body start =
      (executeBlock ctx start.heap.scopes.size .null body >>=
        fun flow => Pure.pure (endOfBlock flow)) (start.inside scope) :=
  nested_apply ..

theorem Loop.inRound {n : Int64} (bound : m.heap.local? scope name = some (.integer n)) :
    Loop.InRound ctx scope name last span body m n where
  value := bound
  runs := ofCount_body ..
  child := by
    rw [show (m.inside scope).heap.scope? m.heap.scopes.size = _ from Heap.scope?_newScope .., if_pos rfl]
  seen := Heap.lookup_newBlock bound

/-- Every round makes scopes, and none is ever taken away. -/
theorem Loop.ofCount_fresh {starts : List Machine} {r : Outcome Flow}
    (course : (ofCount (contextAt limits fuel left) scope name last span body).Course m starts r) :
    starts.Pairwise (·.heap.scopes.size < ·.heap.scopes.size) := by
  refine (course.pairwise (μ := (·.heap.scopes.size)) ?_ ?_).1
  · intro m start holds
    have leads : Leads (fun _ => True) (some scope)
        (ofCount (contextAt limits fuel left) scope name last span body).test :=
      .bind (.loopVariable name span) fun _ => .of_unscoped (.pure _)
    have reached := leads m (Heap.carries_true m.heap)
    rw [holds] at reached
    exact reached.1.size_le
  · intro start v m₁ m₂ completes goesOn
    have block : Leads (fun _ => True) (some start.heap.scopes.size)
        (executeBlock (contextAt limits fuel left) start.heap.scopes.size .null body >>=
          fun flow => Pure.pure (endOfBlock flow)) :=
      .bind (executeBlock_leads limits fuel left _ .null fun _ _ => trivial) fun _ =>
        .of_unscoped (.pure _)
    have within := block (start.inside scope) (Heap.carries_true _)
    rw [← ofCount_body, completes] at within
    have grown : (start.inside scope).heap.scopes.size = start.heap.scopes.size + 1 :=
      Heap.size_newScope ..
    have leads : Leads (fun _ => True) (some scope)
        (ofCount (contextAt limits fuel left) scope name last span body).next := by
      refine .bind (.loopVariable name span) fun reached => ?_
      cases Integer.add? reached 1 with
      | none => exact .of_unscoped (.pure _)
      | some next =>
          exact .bind (.changeHeap fun h _ => .bind name _) fun _ => .of_unscoped (.pure _)
    have advanced := leads m₁ (Heap.carries_true m₁.heap)
    rw [goesOn] at advanced
    have inside := within.1.size_le
    have after := advanced.1.size_le
    omega

/-- A `for` statement whose bounds are integers begins its loop. -/
theorem Action.execute_count {ctx : Context} {s : ScopeId} {first last : Expr} {m₁ m₂ : Machine}
    {a b : Int64} (lower : evaluate ctx s first m = .done (.integer a) m₁)
    (upper : evaluate ctx s last m₁ = .done (.integer b) m₂) :
    execute ctx s (.count span name first last body) m =
      (Loop.ofCount ctx m₂.heap.scopes.size name b span body).run exhausted ctx.fuel
        (m₂.counting s name a) := by
  have firstBound : loopBound ctx s first m = .done a m₁ := by
    unfold loopBound
    rw [bind_apply, lower]
    rfl
  have lastBound : loopBound ctx s last m₁ = .done b m₂ := by
    unfold loopBound
    rw [bind_apply, upper]
    rfl
  unfold execute
  rw [bind_apply, firstBound]
  dsimp only
  rw [bind_apply, lastBound]
  dsimp only
  rw [newLoop_apply, countLoop_eq_run]
  rfl

theorem Machine.counting_local? (m : Machine) (s : ScopeId) (name : String) (first : Int64) :
    (m.counting s name first).heap.local? m.heap.scopes.size name = some (.integer first) := by
  apply Heap.local?_setLocal_self
  rw [show (m.heap.newBlock s).2.scopes.size = _ from Heap.size_newScope ..]
  exact Nat.lt_succ_self _

/-- A `for` statement runs its body once for each integer from the first bound to the last,
both included. Its loop begins in a new scope that binds the variable to the first bound. As
long as the bodies complete and leave the variable as they found it, the variable has the
numbers of the range one after the other, without a gap and without one past the greatest
integer, each time in a new scope inside that of the loop, and the loop then ends with null.
A body that fails, crashes or returns is the last one that is started, and the statement ends
as it does, whatever the bodies before it did to the variable. There are fewer numbers than the
bound on rounds of a session (`Session.ampleFuel`). -/
theorem counts_range (limits : Limits) (fuel left : Nat) (s : ScopeId) (span : Span) (name : String)
    (first last : Expr) (body : List Stmt) {m m₁ m₂ : Machine} {a b : Int64}
    (ample : twoPow 64 < fuel)
    (lower : evaluate (contextAt limits fuel left) s first m = .done (.integer a) m₁)
    (upper : evaluate (contextAt limits fuel left) s last m₁ = .done (.integer b) m₂) :
    let ctx := contextAt limits fuel left
    let scope := m₂.heap.scopes.size
    let loop := Loop.ofCount ctx scope name b span body
    let begun := m₂.counting s name a
    let outcome := execute ctx s (.count span name first last body) m
    (loop.Undisturbed scope name begun → ∃ starts m',
      outcome = .done (.value .null) m' ∧ loop.Course begun starts outcome ∧
      starts.length = (b.toInt + 1 - a.toInt).toNat ∧
      (∀ (i : Nat) (start : Machine), starts[i]? = some start → ∃ n : Int64,
        n.toInt = a.toInt + i ∧ Loop.InRound ctx scope name b span body start n) ∧
      starts.Pairwise (·.heap.scopes.size < ·.heap.scopes.size)) ∧
    ∀ starts at' start, loop.Rounds begun starts at' → starts.length < fuel →
      loop.test at' = .done true start →
      (∀ f m', loop.body start = .failed f m' →
        outcome = .failed f m' ∧ loop.Course begun (starts ++ [start]) outcome) ∧
      (∀ c m', loop.body start = .crashed c m' →
        outcome = .crashed c m' ∧ loop.Course begun (starts ++ [start]) outcome) ∧
      ∀ m', loop.body start = .done .returned m' →
        outcome = .done .returned m' ∧ loop.Course begun (starts ++ [start]) outcome := by
  intro ctx scope loop begun outcome
  have ran : outcome = loop.run exhausted fuel begun := execute_count lower upper
  constructor
  · intro undisturbed
    obtain ⟨starts, m', course, length, counts⟩ := Loop.counting_course
      (b.toInt + 1 - a.toInt).toNat begun a (m₂.counting_local? s name a) undisturbed rfl
    have bounds := Integer.toInt_bounds a
    have bounds' := Integer.toInt_bounds b
    have size : twoPow 64 = 18446744073709551616 := by decide
    simp only [Integer.least, Integer.greatest] at bounds bounds'
    have ended : outcome = .done (.value .null) m' := ran.trans (course.run_eq (by omega))
    refine ⟨starts, m', ended, ended ▸ course, length, ?_, Loop.ofCount_fresh course⟩
    intro i start at'
    obtain ⟨n, value, bound⟩ := counts i start at'
    exact ⟨n, value, Loop.inRound bound⟩
  · intro starts at' start rounds within holds
    have last : ∀ r, loop.Ending at' [start] r →
        outcome = r ∧ loop.Course begun (starts ++ [start]) outcome := by
      intro r ending
      have ended : outcome = r := ran.trans (rounds.run_of_ending ending within)
      exact ⟨ended, ended ▸ .intro rounds ending⟩
    refine ⟨?_, ?_, ?_⟩
    · exact fun f m' fails => last _ (.broken holds (.of_failed fails))
    · exact fun c m' crashes => last _ (.broken holds (.of_crashed crashes))
    · exact fun m' returns => last _ (.returns holds returns)

end

/-- From the last integer but one to the last one there are two; and a `return` outside
of routines ends a loop in its first round. -/
theorem counts_range_greatest :
    let m := (Session.start {} {}).machine
    let ctx := contextAt {} Session.ampleFuel 0
    let from' : Expr := .integer .unplaced 9223372036854775806
    let upTo : Expr := .integer .unplaced 9223372036854775807
    (∃ m' starts, execute ctx 0 (.count .unplaced "i" from' upTo []) m = .done (.value .null) m' ∧
      (Loop.ofCount ctx 1 "i" 9223372036854775807 .unplaced []).Course (m.counting 0 "i" 9223372036854775806)
        starts (.done (.value .null) m') ∧ starts.length = 2) ∧
    ∃ m', execute ctx 0 (.count .unplaced "i" from' upTo [.giveBack .unplaced none]) m
      = .failed ⟨.returnOutsideFunction, .unplaced⟩ m' := by
  intro m ctx from' upTo
  have ample : twoPow 64 < Session.ampleFuel := by decide
  constructor
  · have range := counts_range {} Session.ampleFuel 0 0 .unplaced "i" from' upTo [] ample
      (m := m) rfl rfl
    have undisturbed : (Loop.ofCount ctx 1 "i" 9223372036854775807 .unplaced []).Undisturbed 1 "i"
        (m.counting 0 "i" 9223372036854775806) :=
      fun _ _ start _ _ => ⟨.null, start.inside 1, rfl, Heap.local?_newBlock ..⟩
    obtain ⟨starts, m', ended, course, length, -⟩ := range.1 undisturbed
    exact ⟨m', starts, ended, ended ▸ course, length⟩
  · have range := counts_range {} Session.ampleFuel 0 0 .unplaced "i" from' upTo
      [.giveBack .unplaced none] ample (m := m) rfl rfl
    have round := range.2 [] _ _ .none (by decide) rfl
    exact ⟨_, (round.1 _ _ rfl).1⟩

end Pseudocode

import Pseudocode.Machine

/-!
How actions end.

`Outcome.All` is a property of the machine that an action leaves, whether it
ends with a result, with a fault or with a crash. `Outcome.Ended` says that there is
an ending, and which crashes it can be.
-/

namespace Pseudocode

namespace Outcome

variable {α β : Type}

/-- The machine that is left has the property; without an answer there is none. -/
def All (Q : Machine → Prop) : Outcome α → Prop
  | done _ m => Q m
  | failed _ m => Q m
  | crashed _ m => Q m
  | exhausted => True

/-- The same ending with the machine changed. -/
def onMachine (f : Machine → Machine) : Outcome α → Outcome α
  | done a m => done a (f m)
  | failed e m => failed e (f m)
  | crashed c m => crashed c (f m)
  | exhausted => exhausted

/-- There is a result, a fault, or a crash that may be. -/
def Ended (May : Crash → Prop) : Outcome α → Prop
  | done _ _ => True
  | failed _ _ => True
  | crashed c _ => May c
  | exhausted => False

theorem All.imp {Q R : Machine → Prop} {o : Outcome α} (all : o.All Q) (imp : ∀ m, Q m → R m) :
    o.All R := by
  cases o with
  | done _ m | failed _ m | crashed _ m => exact imp m all
  | exhausted => trivial

theorem All.and {Q R : Machine → Prop} {o : Outcome α} (left : o.All Q) (right : o.All R) :
    o.All fun m => Q m ∧ R m := by
  cases o with
  | done _ m | failed _ m | crashed _ m => exact ⟨left, right⟩
  | exhausted => trivial

theorem all_onMachine {Q : Machine → Prop} {f : Machine → Machine} {o : Outcome α} :
    (o.onMachine f).All Q ↔ o.All fun m => Q (f m) := by
  cases o <;> exact Iff.rfl

theorem onMachine_congr {f g : Machine → Machine} {o : Outcome α}
    (all : o.All fun m => f m = g m) : o.onMachine f = o.onMachine g := by
  cases o with
  | done a m => exact congrArg (done a) all
  | failed e m => exact congrArg (failed e) all
  | crashed c m => exact congrArg (crashed c) all
  | exhausted => rfl

end Outcome

namespace Action

variable {α β : Type}

/-! ### Sequencing -/

theorem bind_apply (x : Action α) (f : α → Action β) (m : Machine) :
    (x >>= f) m = match x m with
      | .done a m => f a m
      | .failed e m => .failed e m
      | .crashed c m => .crashed c m
      | .exhausted => .exhausted :=
  rfl

/-- What gives a result in two steps gives one in each. -/
theorem bind_eq_done {x : Action α} {f : α → Action β} {m m' : Machine} {b : β}
    (ended : (x >>= f) m = .done b m') : ∃ a m₁, x m = .done a m₁ ∧ f a m₁ = .done b m' := by
  rw [bind_apply] at ended
  cases first : x m with
  | done a m₁ =>
      rw [first] at ended
      exact ⟨a, m₁, rfl, ended⟩
  | failed _ _ | crashed _ _ | exhausted =>
      rw [first] at ended
      cases ended

theorem pure_apply (a : α) (m : Machine) : (Pure.pure a : Action α) m = .done a m :=
  rfl

theorem changeHeap_apply (f : Heap → α × Heap) (m : Machine) :
    changeHeap f m = .done (f m.heap).1 { m with heap := (f m.heap).2 } :=
  rfl

theorem tryChangeHeap_apply (f : Heap → Except Cause α × Heap) (m : Machine) :
    tryChangeHeap f m = match (f m.heap).1 with
      | .ok a => .done a { m with heap := (f m.heap).2 }
      | .error cause => .failed (.unplaced cause) { m with heap := (f m.heap).2 } := by
  obtain ⟨heap, world, depth⟩ := m
  simp only [tryChangeHeap]
  obtain ⟨verdict, heap'⟩ := f heap
  cases verdict <;> rfl

theorem draw_apply (range : Draw) (answer : Generator → List Draw → Option α) (m : Machine) :
    draw range answer m = match answer m.world.generator m.world.drawn with
      | some a => .done a { m with world := m.world.drawFrom range }
      | none => .crashed (.range range) { m with world := m.world.drawFrom range } :=
  rfl

theorem deeper_apply (x : Action α) (m : Machine) :
    deeper x m = (x { m with depth := m.depth + 1 }).onMachine
      fun m' => { m' with depth := m'.depth - 1 } := by
  change (match x { m with depth := m.depth + 1 } with
    | .done a m' => Outcome.done a { m' with depth := m'.depth - 1 }
    | .failed f m' => .failed f { m' with depth := m'.depth - 1 }
    | .crashed c m' => .crashed c { m' with depth := m'.depth - 1 }
    | .exhausted => .exhausted) = _
  cases x { m with depth := m.depth + 1 } <;> rfl

/-- What holds after the first action, and after every second one, holds after
both. -/
theorem all_bind {Q R : Machine → Prop} {x : Action α} {f : α → Action β} {m : Machine}
    (first : (x m).All Q) (failing : ∀ m', Q m' → R m') (second : ∀ a m', Q m' → (f a m').All R) :
    ((x >>= f) m).All R := by
  rw [bind_apply]
  cases h : x m with
  | done a m' =>
      rw [h] at first
      exact second a m' first
  | failed _ m' | crashed _ m' =>
      rw [h] at first
      exact failing m' first
  | exhausted => trivial

theorem all_orAt {Q : Machine → Prop} {x : Action α} {m : Machine} (span : Span)
    (all : (x m).All Q) : (orAt span x m).All Q := by
  unfold orAt
  cases h : x m with
  | done _ m' | failed _ m' | crashed _ m' =>
      rw [h] at all
      exact all
  | exhausted => trivial

/-! ### Coming to an end -/

variable {May : Crash → Prop}

theorem bind_ended {x : Action α} {f : α → Action β} {m : Machine} (first : (x m).Ended May)
    (second : ∀ a m', x m = .done a m' → (f a m').Ended May) : ((x >>= f) m).Ended May := by
  rw [bind_apply]
  cases h : x m with
  | done a m' => exact second a m' h
  | failed _ _ => trivial
  | crashed c m' =>
      rw [h] at first
      exact first
  | exhausted =>
      rw [h] at first
      exact first

theorem orAt_ended {x : Action α} {m : Machine} (span : Span) (ended : (x m).Ended May) :
    (orAt span x m).Ended May := by
  unfold orAt
  cases h : x m with
  | done _ _ | failed _ _ => trivial
  | crashed _ _ | exhausted =>
      rw [h] at ended
      exact ended

theorem tryOfHeap_ended (f : Heap → Except Cause α) (m : Machine) : (tryOfHeap f m).Ended May := by
  unfold tryOfHeap
  cases f m.heap <;> trivial

theorem tryChangeHeap_ended (f : Heap → Except Cause α × Heap) (m : Machine) :
    (tryChangeHeap f m).Ended May := by
  rw [tryChangeHeap_apply]
  cases (f m.heap).1 <;> trivial

end Action

end Pseudocode

import Pseudocode.Proofs.Sound

/-!
Which names a scope binds.

The body of a block, a call and the making of an object bind names in new scopes
only, so the scopes that were there list the same names afterwards, in the same
order. Whatever else evaluation does, it adds names at the end of a scope's list
and nothing more.
-/

namespace Pseudocode

namespace Action

/-- What evaluation in scope `s` consists of: the operations on scopes, the
steps that an expression is made of, and the evaluation of every kind of code. -/
inductive Operation (limits : Limits) (fuel left : Nat) (s : ScopeId) :
    {α : Type} → Action α → Prop where
  | leaf {α : Type} {x : Action α} (leaf : Leaf limits (fun _ => True) s x) :
      Operation limits fuel left s x
  | setLocal (name : String) (v : Value) : Operation limits fuel left s (setLocal s name v)
  | newBlock : Operation limits fuel left s (newBlock s)
  | newCall : Operation limits fuel left s (newCall s)
  | signalReturn (v : Value) : Operation limits fuel left s (signalReturn s v)
  | takeReturned : Operation limits fuel left s (takeReturned s)
  | evaluate (e : Expr) : Operation limits fuel left s (evaluate (contextAt limits fuel left) s e)
  | execute (stmt : Stmt) : Operation limits fuel left s (execute (contextAt limits fuel left) s stmt)
  | executeBlock (last : Value) (block : List Stmt) :
      Operation limits fuel left s (executeBlock (contextAt limits fuel left) s last block)
  | call (id : RoutineId) (args : List Value) (span : Span) :
      Operation limits fuel left s (callRoutine limits fuel left id args span)
  | instantiate (c : ClassId) (args : List Value) (span : Span) :
      Operation limits fuel left s (instantiate (contextAt limits fuel left) c args span)

variable {α : Type} {limits : Limits} {fuel left : Nat} {s : ScopeId} {m : Machine}

/-- A scope that is only made is one in which nothing has run yet. -/
theorem newScope_leads (boundary : Bool) :
    Leads (fun _ => True) (some s)
      (changeHeap fun h => h.newScope { parent := some s, boundary }) :=
  .changeHeap fun _ _ => .enter boundary (.inl rfl) .refl

theorem Operation.leads {x : Action α} (operation : Operation limits fuel left s x) :
    Leads (fun _ => True) (some s) x := by
  cases operation with
  | leaf leaf => exact .leaf leaf
  | setLocal name v => exact .changeHeap fun _ _ => .bind name v
  | newBlock => exact newScope_leads false
  | newCall => exact newScope_leads true
  | signalReturn v => exact .tryChangeHeap fun _ _ => .signal v
  | takeReturned => exact .changeHeap fun _ _ => .take
  | evaluate e => exact evaluate_leads limits fuel left s fun _ _ => trivial
  | execute stmt => exact execute_leads limits fuel left s fun _ _ => trivial
  | executeBlock last block => exact executeBlock_leads limits fuel left s last fun _ _ => trivial
  | call id args span => exact callRoutine_leads limits fuel left id args span
  | instantiate c args span => exact instantiate_leads limits fuel left c args span

/-- Every scope of the first heap lists the same names in the second. -/
def SameNames (h h' : Heap) : Prop := ∀ t < h.scopes.size, h'.localNames t = h.localNames t

/-- Code that has no scope of its own binds no name in a scope that is there. -/
theorem sameNames_of_leads {x : Action α} (leads : Leads (fun _ => True) none x)
    (reachable : m.heap.Reachable) : (x m).All fun m' => SameNames m.heap m'.heap := by
  refine (leads m (Heap.carries_true m.heap)).imp ?_
  intro m' ⟨run, _⟩ t old
  exact run.localNames_eq reachable.sound Heap.hosts_none old nofun

/-- The body of a block binds names in the scope of the block, which is new. -/
theorem sameNames_nested {body : ScopeId → Action Flow}
    (leads : ∀ inner, Leads (fun _ => True) (some inner) (body inner)) (reachable : m.heap.Reachable)
    (valid : s < m.heap.scopes.size) :
    (nested s body m).All fun m' => SameNames m.heap m'.heap := by
  let m₁ : Machine := { m with heap := (m.heap.newBlock s).2 }
  have sound : m₁.heap.Sound := reachable.sound.newScope valid false
  have inside : (body m.heap.scopes.size m₁).All fun m' => SameNames m.heap m'.heap := by
    refine (leads m.heap.scopes.size m₁ (Heap.carries_true m₁.heap)).imp ?_
    intro m' ⟨run, _⟩ t old
    have grown : m₁.heap.scopes.size = m.heap.scopes.size + 1 := Heap.size_newScope ..
    have own : m₁.heap.Hosts (some m.heap.scopes.size) :=
      Heap.hosts_some (by rw [grown]; exact Nat.lt_succ_self _)
    have other : some m.heap.scopes.size ≠ some t := by
      intro same
      exact Nat.ne_of_gt old (Option.some.inj same)
    rw [run.localNames_eq sound own (by rw [grown]; exact Nat.lt_succ_of_lt old) other]
    exact Heap.localNames_newScope_of_lt _ old
  rw [nested_apply]
  exact all_bind inside (fun _ same => same) fun _ _ same => same

/-- Blocks, calls and new objects leak no names: the scopes that were there list
the same names afterwards, however the execution ended. And no operation removes
or moves a name: it leaves a reachable heap in which each scope's list of names
continues the list from before. -/
theorem localNames_framed (limits : Limits) (fuel left : Nat) (m : Machine)
    (reachable : m.heap.Reachable) :
    (∀ s body, s < m.heap.scopes.size →
      (nested s (fun inner => executeBlock (contextAt limits fuel left) inner .null body) m).All
        fun m' => SameNames m.heap m'.heap) ∧
    (∀ id args span, (callRoutine limits fuel left id args span m).All
      fun m' => SameNames m.heap m'.heap) ∧
    (∀ c args span, (instantiate (contextAt limits fuel left) c args span m).All
      fun m' => SameNames m.heap m'.heap) ∧
    ∀ s, s < m.heap.scopes.size → ∀ {α : Type} (x : Action α), Operation limits fuel left s x →
      (x m).All fun m' => m'.heap.Reachable ∧
        ∀ t, m.heap.localNames t <+: m'.heap.localNames t := by
  refine ⟨?_, ?_, ?_, ?_⟩
  · intro s body valid
    refine sameNames_nested (fun inner => ?_) reachable valid
    exact executeBlock_leads limits fuel left inner .null fun _ _ => trivial
  · intro id args span
    exact sameNames_of_leads (callRoutine_leads limits fuel left id args span) reachable
  · intro c args span
    exact sameNames_of_leads (instantiate_leads limits fuel left c args span) reachable
  · intro s valid α x operation
    refine (operation.leads m (Heap.carries_true m.heap)).imp ?_
    intro m' ⟨run, _⟩
    exact ⟨reachable.run (Heap.hosts_some valid) run, run.names_grow⟩

/-- A block at the top of a new session that declares a variable. However it ends, the only
scope there was has the names that it had. -/
theorem localNames_framed_start :
    ((Session.start {} {}).machine.heap.scopes.size = 1) ∧
      (nested 0 (fun inner => executeBlock (contextAt {} 5 5) inner .null
          [.declare .unplaced "x" (.integer .unplaced 1)]) (Session.start {} {}).machine).All
        fun m' => SameNames (Session.start {} {}).machine.heap m'.heap :=
  ⟨rfl, (localNames_framed {} 5 5 (Session.start {} {}).machine (.start {} {})).1 0 _ (by decide)⟩

end Action

end Pseudocode

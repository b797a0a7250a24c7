import Pseudocode.Proofs.Spans.Machine

/-!
Expressions that agree are evaluated alike.

Two actions agree when, on machines that agree, they end in the same way: with
related results, or with faults of the same cause, on machines that still agree. The
spans of the faults are related by `ρ` once a construct has placed them; before that
they may also both have no place (`Near ρ`).
-/

namespace Pseudocode

variable {ρ : Span → Span → Prop}

/-- The spans are related, or neither is a place. -/
def Near (ρ : Span → Span → Prop) (s s' : Span) : Prop :=
  (s = .unplaced ∧ s' = .unplaced) ∨ ρ s s'

/-- The relation is kept when faults that are placed already get another place. -/
def Settles (ρ : Span → Span → Prop) : Prop :=
  ∀ {a a' s s' : Span}, ρ a a' → ρ s s' → ρ (a.orElse s) (a'.orElse s')

inductive Outcome.Agree {α α' : Type} (ρ φ : Span → Span → Prop) (R : α → α' → Prop) :
    Outcome α → Outcome α' → Prop where
  | done {a : α} {a' : α'} {m m' : Machine} (related : R a a') (left : m.Agree ρ m') :
      Outcome.Agree ρ φ R (.done a m) (.done a' m')
  | failed (cause : Cause) {s s' : Span} {m m' : Machine} (placed : φ s s') (left : m.Agree ρ m') :
      Outcome.Agree ρ φ R (.failed ⟨cause, s⟩ m) (.failed ⟨cause, s'⟩ m')
  | crashed (c : Crash) {m m' : Machine} (left : m.Agree ρ m') :
      Outcome.Agree ρ φ R (.crashed c m) (.crashed c m')
  | exhausted : Outcome.Agree ρ φ R .exhausted .exhausted

namespace Action

variable {α α' β β' : Type} {φ : Span → Span → Prop} {R : α → α' → Prop} {S : β → β' → Prop}

def Agree (ρ φ : Span → Span → Prop) (R : α → α' → Prop) (x : Action α) (x' : Action α') : Prop :=
  ∀ m m', m.Agree ρ m' → Outcome.Agree ρ φ R (x m) (x' m')

namespace Agree

/-! ### Composition -/

theorem pure {a : α} {a' : α'} (related : R a a') : Agree ρ φ R (Pure.pure a) (Pure.pure a') :=
  fun _ _ agree => .done related agree

theorem fail (cause : Cause) : Agree ρ (Near ρ) R (fail cause : Action α) (fail cause : Action α') :=
  fun _ _ agree => .failed cause (.inl ⟨rfl, rfl⟩) agree

theorem failAt {s s' : Span} (placed : φ s s') (cause : Cause) :
    Agree ρ φ R (failAt s cause : Action α) (failAt s' cause : Action α') :=
  fun _ _ agree => .failed cause placed agree

theorem crash (c : Crash) : Agree ρ φ R (crash c : Action α) (crash c : Action α') :=
  fun _ _ agree => .crashed c agree

theorem exhausted : Agree ρ φ R (exhausted : Action α) (exhausted : Action α') :=
  fun _ _ _ => .exhausted

theorem bind {x : Action α} {x' : Action α'} {f : α → Action β} {f' : α' → Action β'}
    (first : Agree ρ φ R x x') (second : ∀ a a', R a a' → Agree ρ φ S (f a) (f' a')) :
    Agree ρ φ S (x >>= f) (x' >>= f') := by
  intro m m' agree
  have ends := first m m' agree
  rw [bind_apply, bind_apply]
  generalize x m = o, x' m' = o' at ends
  cases ends with
  | done related left => exact second _ _ related _ _ left
  | failed cause placed left => exact .failed cause placed left
  | crashed c left => exact .crashed c left
  | exhausted => exact .exhausted

/-- The second action goes on from the same result. -/
theorem andThen {x x' : Action α} {f : α → Action β} {f' : α → Action β'} (first : Agree ρ φ Eq x x')
    (second : ∀ a, Agree ρ φ S (f a) (f' a)) : Agree ρ φ S (x >>= f) (x' >>= f') := by
  refine bind first ?_
  rintro a _ rfl
  exact second a

/-- Faults that have related places. -/
theorem near {x : Action α} {x' : Action α'} (agree : Agree ρ ρ R x x') : Agree ρ (Near ρ) R x x' := by
  intro m m' machines
  have ends := agree m m' machines
  generalize x m = o, x' m' = o' at ends
  cases ends with
  | done related left => exact .done related left
  | failed cause placed left => exact .failed cause (.inr placed) left
  | crashed c left => exact .crashed c left
  | exhausted => exact .exhausted

/-- A construct gives its place to faults that have none. -/
theorem orAt (settles : Settles ρ) {s s' : Span} (placed : ρ s s') {x : Action α} {x' : Action α'}
    (agree : Agree ρ (Near ρ) R x x') : Agree ρ ρ R (orAt s x) (orAt s' x') := by
  intro m m' machines
  have ends := agree m m' machines
  unfold Action.orAt
  generalize x m = o, x' m' = o' at ends
  cases ends with
  | done related left => exact .done related left
  | failed cause found left =>
      refine .failed cause ?_ left
      rcases found with ⟨rfl, rfl⟩ | found
      · exact placed
      · exact settles found placed
  | crashed c left => exact .crashed c left
  | exhausted => exact .exhausted

/-! ### The heap -/

theorem aloof {x : Action α} (aloof : Aloof x) : Agree ρ (Near ρ) Eq x x := by
  intro m m' machines
  have ends := aloof _ Machine.Agree.aside m m' machines
  generalize x m = o, x m' = o' at ends
  cases ends with
  | done a left => exact .done rfl left
  | failed cause left => exact .failed cause (.inl ⟨rfl, rfl⟩) left
  | crashed c left => exact .crashed c left

theorem native {x : Action α} (native : Native x) : Agree ρ (Near ρ) Eq x x := aloof native.aloof

theorem ofHeap {f : Heap → α} {f' : Heap → α'}
    (same : ∀ h h' : Heap, h.Agree ρ h' → R (f h) (f' h')) : Agree ρ φ R (ofHeap f) (ofHeap f') :=
  fun _ _ agree => .done (same _ _ agree.heap) agree

theorem tryOfHeap {f : Heap → Except Cause α}
    (same : ∀ h h' : Heap, h.Agree ρ h' → f h' = f h) :
    Agree ρ (Near ρ) Eq (tryOfHeap f) (tryOfHeap f) := by
  intro m m' agree
  unfold Action.tryOfHeap
  rw [same _ _ agree.heap]
  cases f m.heap with
  | ok a => exact .done rfl agree
  | error cause => exact .failed cause (.inl ⟨rfl, rfl⟩) agree

theorem changeHeap {f f' : Heap → α × Heap}
    (twins : ∀ h h' : Heap, h.Agree ρ h' → Twins ρ (f h) (f' h')) :
    Agree ρ φ Eq (changeHeap f) (changeHeap f') := by
  intro m m' agree
  have both := twins _ _ agree.heap
  rw [changeHeap_apply, changeHeap_apply]
  generalize f m.heap = x, f' m'.heap = x' at both
  cases both with
  | same a heaps => exact .done rfl ⟨heaps, agree.world, agree.depth⟩

theorem tryChangeHeap {f f' : Heap → Except Cause α × Heap}
    (twins : ∀ h h' : Heap, h.Agree ρ h' → Twins ρ (f h) (f' h')) :
    Agree ρ (Near ρ) Eq (tryChangeHeap f) (tryChangeHeap f') := by
  intro m m' agree
  have both := twins _ _ agree.heap
  rw [tryChangeHeap_apply, tryChangeHeap_apply]
  generalize f m.heap = x, f' m'.heap = x' at both
  cases both with
  | same verdict heaps =>
      cases verdict with
      | ok a => exact .done rfl ⟨heaps, agree.world, agree.depth⟩
      | error cause => exact .failed cause (.inl ⟨rfl, rfl⟩) ⟨heaps, agree.world, agree.depth⟩

theorem deeper {x : Action α} {x' : Action α'} (agree : Agree ρ φ R x x') :
    Agree ρ φ R (deeper x) (deeper x') := by
  intro m m' machines
  have ends := agree { m with depth := m.depth + 1 } { m' with depth := m'.depth + 1 }
    ⟨machines.heap, machines.world, congrArg (· + 1) machines.depth⟩
  rw [deeper_apply, deeper_apply]
  generalize x { m with depth := m.depth + 1 } = o, x' { m' with depth := m'.depth + 1 } = o' at ends
  cases ends with
  | done related left =>
      exact .done related ⟨left.heap, left.world, congrArg (· - 1) left.depth⟩
  | failed cause placed left =>
      exact .failed cause placed ⟨left.heap, left.world, congrArg (· - 1) left.depth⟩
  | crashed c left => exact .crashed c ⟨left.heap, left.world, congrArg (· - 1) left.depth⟩
  | exhausted => exact .exhausted

/-! ### Scopes -/

theorem lookup (s : ScopeId) (name : String) :
    Agree ρ (Near ρ) Eq (lookup s name) (lookup s name) :=
  tryOfHeap fun _ _ agree => agree.lookup s name

theorem declare (s : ScopeId) (name : String) (v : Value) :
    Agree ρ (Near ρ) Eq (declare s name v) (declare s name v) :=
  tryChangeHeap fun _ _ agree => (Heap.declare_codeless s name v).twins agree

theorem assign (s : ScopeId) (name : String) (v : Value) :
    Agree ρ φ Eq (assign s name v) (assign s name v) :=
  changeHeap fun _ _ agree => (Heap.assign_codeless s name v).twins agree

theorem assignIndexed (s : ScopeId) (name : String) (i : Int64) (v : Value) :
    Agree ρ (Near ρ) Eq (assignIndexed s name i v) (assignIndexed s name i v) :=
  tryChangeHeap fun _ _ agree => (Heap.assignIndexed_codeless s name i v).twins agree

theorem signalReturn (s : ScopeId) (v : Value) :
    Agree ρ (Near ρ) Eq (signalReturn s v) (signalReturn s v) :=
  tryChangeHeap fun _ _ agree => (Heap.signalReturn_codeless s v).twins agree

/-- A change of scopes that always works. -/
theorem codeless {f : Heap → α × Heap} (codeless : Heap.Codeless f) :
    Agree ρ φ Eq (Action.changeHeap f) (Action.changeHeap f) :=
  changeHeap fun _ _ agree => codeless.twins agree

/-! ### Members and calls -/

theorem member (object : Value) (name : String) :
    Agree ρ (Near ρ) Eq (member object name) (member object name) := by
  unfold Action.member
  split
  · exact tryOfHeap fun _ _ agree => agree.getMember _ name
  · exact tryOfHeap fun _ _ agree => by rw [agree.className]
  · exact native (.ofExcept _)

theorem storeMember (object : Value) (field : String) (v : Value) :
    Agree ρ (Near ρ) Eq (storeMember object field v) (storeMember object field v) := by
  unfold Action.storeMember
  split
  · exact tryChangeHeap fun _ _ agree => agree.setMember _ field v
  · exact fail _

/-- Routines are called alike. -/
def Calls (ρ : Span → Span → Prop) (ctx ctx' : Context) : Prop :=
  ∀ id args {s s' : Span}, ρ s s' → Agree ρ (Near ρ) Eq (ctx.call id args s) (ctx'.call id args s')

section Evaluation

variable {ctx ctx' : Context}

theorem callValue (calls : Calls ρ ctx ctx') (function : Value) (receiver : Option Value)
    (args : List Value) {s s' : Span} (placed : ρ s s') :
    Agree ρ (Near ρ) Eq (callValue ctx function receiver args s)
      (callValue ctx' function receiver args s') := by
  unfold Action.callValue
  split
  · exact native (.callNative _ args)
  · split
    · exact native (.callMethod _ _ args)
    · exact fail _
  · exact calls _ args placed
  · exact calls _ args placed
  · exact fail _

theorem instantiate (settles : Settles ρ) (calls : Calls ρ ctx ctx') (c : ClassId)
    (args : List Value) {s s' : Span} (placed : ρ s s') :
    Agree ρ (Near ρ) Eq (instantiate ctx c args s) (instantiate ctx' c args s') := by
  have built : Agree ρ (Near ρ) Eq (Action.orAt s (Action.tryChangeHeap fun h => h.buildObject c))
      (Action.orAt s' (Action.tryChangeHeap fun h => h.buildObject c)) :=
    near (orAt settles placed (tryChangeHeap fun _ _ agree => Heap.Agree.buildFrom (c + 1) c agree))
  have placed' : Near ρ s s' := .inr placed
  have finish {o : ObjectId} : Agree ρ (Near ρ) Eq (Pure.pure (Value.object o) : Action Value)
      (Pure.pure (Value.object o)) :=
    pure rfl
  refine andThen built fun o => bind (ofHeap fun _ _ agree => agree.layer? o Heap.constructorName) ?_
  intro found found' same
  cases same with
  | some same =>
      dsimp only
      rw [same.1]
      refine andThen (lookup _ _) fun v => ?_
      cases v with
      | function id => exact andThen (calls id args placed) fun _ => finish
      | procedure id => exact andThen (calls id args placed) fun _ => finish
      | _ => exact andThen (failAt placed' _) fun _ => finish
  | none =>
      dsimp only
      split
      · exact andThen (pure rfl) fun _ => finish
      · refine andThen (ofHeap fun _ _ agree => (agree.className c).symm) fun name => ?_
        exact andThen (failAt placed' _) fun _ => finish

mutual

theorem evaluate (settles : Settles ρ) (calls : Calls ρ ctx ctx') (s : ScopeId) :
    ∀ {e e' : Expr}, e.Agree ρ e' →
    Agree ρ ρ Eq (evaluate ctx s e) (Action.evaluate ctx' s e')
  | .identifier .., _, .identifier placed name => orAt settles placed (lookup s name)
  | .integer .., _, .integer _ _ => pure rfl
  | .float .., _, .float _ _ => pure rfl
  | .text .., _, .text _ _ => pure rfl
  | .null _, _, .null _ => pure rfl
  | .assign _ target _, _, .assign placed left right => by
      have value := (evaluate settles calls s right).near
      cases left with
      | identifier _ name =>
          refine orAt settles placed (andThen value fun v => ?_)
          exact andThen (assign s name v) fun _ => pure rfl
      | member _ inner field =>
          refine orAt settles placed (andThen value fun v => ?_)
          refine andThen (evaluate settles calls s inner).near fun container => ?_
          exact andThen (storeMember container field v) fun _ => pure rfl
      | index _ inner position =>
          refine orAt settles placed (andThen value fun v => ?_)
          refine andThen (evaluate settles calls s position).near fun i => ?_
          have object := (evaluate settles calls s inner).near
          have general := andThen object fun container =>
            andThen (native (ρ := ρ) (.storeAt container i v)) fun _ => pure (R := Eq) (a := v) rfl
          -- An array that a variable stands for is changed without reading the variable first.
          cases inner with
          | identifier _ name =>
              cases i with
              | integer n => exact andThen (assignIndexed s name n v) fun _ => pure rfl
              | _ => exact general
          | _ => exact general
      | _ =>
          refine orAt settles placed (andThen value fun v => ?_)
          exact fail _
  | .binary .., _, .binary op placed left right => by
      refine orAt settles placed (andThen (evaluate settles calls s left).near fun l => ?_)
      exact andThen (evaluate settles calls s right).near fun r => native (.binary op l r)
  | .unary .., _, .unary op placed inner =>
      orAt settles placed (andThen (evaluate settles calls s inner).near fun v => native (.unary op v))
  | .range .., _, .range placed first last => by
      refine orAt settles placed (andThen (evaluate settles calls s first).near fun a => ?_)
      refine andThen (evaluate settles calls s last).near fun b => ?_
      split
      · exact pure rfl
      · exact fail _
  | .member .., _, .member placed inner field =>
      orAt settles placed (andThen (evaluate settles calls s inner).near fun v => member v field)
  | .index .., _, .index placed inner position => by
      refine orAt settles placed (andThen (evaluate settles calls s inner).near fun v => ?_)
      exact andThen (evaluate settles calls s position).near fun i => native (.index v i)
  | .call .., _, .call placed callee given => by
      have args := (evaluateAll settles calls s given).near
      have function := (evaluate settles calls s callee).near
      cases callee with
      | member at_ inner field =>
          refine orAt settles placed (andThen args fun vs => ?_)
          refine andThen (evaluate settles calls s inner).near fun receiver => ?_
          refine andThen (orAt settles at_ (member receiver field)).near fun f => ?_
          exact callValue calls f (some receiver) vs placed
      | identifier =>
          refine orAt settles placed (andThen args fun vs => ?_)
          exact andThen function fun f => callValue calls f none vs placed
      | index =>
          refine orAt settles placed (andThen args fun vs => ?_)
          exact andThen function fun f => callValue calls f none vs placed
      | _ => exact orAt settles placed (andThen args fun vs => failAt (.inr (by assumption)) _)
  | .create .., _, .create placed created given => by
      refine orAt settles placed (andThen (evaluateAll settles calls s given).near fun vs => ?_)
      refine andThen (evaluate settles calls s created).near fun v => ?_
      cases v with
      | classRef c => exact instantiate settles calls c vs placed
      | _ => exact fail _

theorem evaluateAll (settles : Settles ρ) (calls : Calls ρ ctx ctx') (s : ScopeId) :
    ∀ {es es' : List Expr}, List.Forall₂ (Expr.Agree ρ) es es' →
    Agree ρ ρ Eq (evaluateAll ctx s es) (Action.evaluateAll ctx' s es')
  | [], _, .nil => pure rfl
  | _ :: _, _, .cons first rest => by
      refine andThen (evaluate settles calls s first) fun v => ?_
      exact andThen (evaluateAll settles calls s rest) fun vs => pure rfl

end

end Evaluation

end Agree

end Action

end Pseudocode

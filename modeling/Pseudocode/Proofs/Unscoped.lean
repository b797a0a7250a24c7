import Pseudocode.Proofs.Aloof

/-!
Actions that stay away from scopes.

An action is `Unscoped` when replacing the scopes of the machine changes nothing
about what it does, and it leaves routines, classes, objects and the depth of calls
as they are. Operators, built-in functions and everything
done to arrays and files is of this kind.
-/

namespace Pseudocode

/-- The heap with other scopes. -/
def Heap.withScopes (h : Heap) (scopes : Array Scope) : Heap := { h with scopes := scopes }

/-- The machine with other scopes. -/
def Machine.withScopes (m : Machine) (scopes : Array Scope) : Machine :=
  { m with heap := m.heap.withScopes scopes }

/-- The heaps have the same routines, classes and objects. -/
structure Heap.SameCode (h h' : Heap) : Prop where
  routines : h'.routines = h.routines
  classes : h'.classes = h.classes
  objects : h'.objects = h.objects

namespace Action

variable {α : Type}

structure Unscoped (x : Action α) : Prop where
  commutes : ∀ m scopes, x (m.withScopes scopes) = (x m).onMachine (·.withScopes scopes)
  keeps : ∀ m, (x m).All fun m' => m.heap.SameCode m'.heap ∧ m'.depth = m.depth

namespace Unscoped

/-- Scopes that nobody looks at stay as they are. -/
theorem scopes_eq {x : Action α} (unscoped : Unscoped x) (m : Machine) :
    (x m).All fun m' => m'.heap.scopes = m.heap.scopes := by
  have same := unscoped.commutes m m.heap.scopes
  rw [show m.withScopes m.heap.scopes = m from rfl] at same
  cases h : x m with
  | done a m' =>
      rw [h] at same
      simp only [Outcome.onMachine, Outcome.done.injEq, true_and] at same
      exact congrArg (·.heap.scopes) same
  | failed e m' =>
      rw [h] at same
      simp only [Outcome.onMachine, Outcome.failed.injEq, true_and] at same
      exact congrArg (·.heap.scopes) same
  | crashed c m' =>
      rw [h] at same
      simp only [Outcome.onMachine, Outcome.crashed.injEq, true_and] at same
      exact congrArg (·.heap.scopes) same
  | exhausted => trivial

theorem pure (a : α) : Unscoped (Pure.pure a : Action α) :=
  ⟨fun _ _ => rfl, fun _ => ⟨⟨rfl, rfl, rfl⟩, rfl⟩⟩

theorem fail (cause : Cause) : Unscoped (fail cause : Action α) :=
  ⟨fun _ _ => rfl, fun _ => ⟨⟨rfl, rfl, rfl⟩, rfl⟩⟩

theorem failAt (span : Span) (cause : Cause) : Unscoped (failAt span cause : Action α) :=
  ⟨fun _ _ => rfl, fun _ => ⟨⟨rfl, rfl, rfl⟩, rfl⟩⟩

theorem crash (c : Crash) : Unscoped (crash c : Action α) :=
  ⟨fun _ _ => rfl, fun _ => ⟨⟨rfl, rfl, rfl⟩, rfl⟩⟩

theorem refuseRound (limit : Nat) (span : Span) : Unscoped (refuseRound limit span : Action α) := by
  unfold Action.refuseRound
  split
  · exact failAt span _
  · exact crash _

theorem ofExcept (verdict : Except Cause α) : Unscoped (ofExcept verdict) := by
  cases verdict with
  | ok a => exact pure a
  | error cause => exact fail cause

/-- Something read off the heap that does not depend on scopes. -/
theorem ofHeap {f : Heap → α} (blind : ∀ h scopes, f (h.withScopes scopes) = f h) :
    Unscoped (ofHeap f) where
  commutes m scopes := by
    have same : f (m.withScopes scopes).heap = f m.heap := blind m.heap scopes
    simp only [Action.ofHeap, same, Outcome.onMachine]
  keeps _ := ⟨⟨rfl, rfl, rfl⟩, rfl⟩

/-- A change of the heap that neither depends on scopes nor touches them. -/
structure Blind (f : Heap → α × Heap) : Prop where
  commutes : ∀ h scopes, f (h.withScopes scopes) = ((f h).1, (f h).2.withScopes scopes)
  keeps : ∀ h : Heap, h.SameCode (f h).2

theorem changeHeap {f : Heap → α × Heap} (blind : Blind f) : Unscoped (changeHeap f) where
  commutes m scopes := by
    rw [changeHeap_apply, changeHeap_apply]
    have same : f (m.withScopes scopes).heap = _ := blind.commutes m.heap scopes
    rw [same]
    rfl
  keeps m := ⟨blind.keeps m.heap, rfl⟩

end Unscoped

end Action

/-! ### Reading values -/

namespace Heap

variable (h : Heap) (scopes : Array Scope)

theorem resembles_withScopes : h.Resembles (h.withScopes scopes) := by
  refine ⟨rfl, rfl, rfl, ?_⟩
  intro v
  cases v <;> rfl

theorem valuesEqual_withScopes (u v : Value) :
    (h.withScopes scopes).valuesEqual u v = h.valuesEqual u v :=
  (h.resembles_withScopes scopes).valuesEqual u v

theorem truthy_withScopes (v : Value) : v.truthy (h.withScopes scopes) = v.truthy h :=
  (h.resembles_withScopes scopes).truthy v

theorem layerFrom_withScopes (name : String) (steps : Nat) (o : ObjectId) :
    (h.withScopes scopes).layerFrom name steps o = h.layerFrom name steps o := by
  induction steps generalizing o with
  | zero => rfl
  | succ steps ih =>
      simp only [layerFrom, ih]
      rfl

/-! ### Arrays -/

/-- A change of arrays only. -/
theorem blind_of_patches {α : Type} {f : Heap → α × Heap} (patches : Action.Patches f) :
    Action.Unscoped.Blind f := by
  constructor
  · intro h scopes
    obtain ⟨a, arrays, readers, writers, here, there⟩ :=
      patches h (h.withScopes scopes) (h.resembles_withScopes scopes)
    rw [here, there]
    rfl
  · intro h
    obtain ⟨a, arrays, readers, writers, here, -⟩ := patches h h ⟨rfl, rfl, rfl, fun _ => rfl⟩
    rw [here]
    exact ⟨rfl, rfl, rfl⟩

theorem makeArray_blind (sizes : List Nat) : Action.Unscoped.Blind (makeArray sizes) :=
  blind_of_patches (Action.Native.makeArray_patches sizes)

theorem storeElement_blind (a : ArrayId) (i : Int64) (v : Value) :
    Action.Unscoped.Blind fun h => h.storeElement a i v :=
  blind_of_patches (Action.Native.storeElement_patches a i v)

end Heap

namespace Action.Unscoped

variable {α : Type}

/-! ### Operators, built-in functions and methods -/

/-- What has to do with arrays, files and the world only has nothing to do with
scopes. -/
theorem of_aloof {x : Action α} (aloof : Aloof x) : Unscoped x where
  commutes m scopes := by
    have aside : Aside fun m m' => m' = m.withScopes scopes := by
      refine ⟨?_, ?_, ?_⟩
      · rintro m _ rfl
        exact m.heap.resembles_withScopes scopes
      · rintro m _ rfl
        rfl
      · rintro m _ rfl _ _ _ _
        rfl
    have ends := aloof _ aside m _ rfl
    generalize x m = o at ends ⊢
    generalize x (m.withScopes scopes) = o' at ends ⊢
    cases ends with
    | done a left => rw [left]; rfl
    | failed cause left => rw [left]; rfl
    | crashed c left => rw [left]; rfl
  keeps m := by
    have aside : Aside fun m₁ m₂ => m₂ = m₁ ∧ m.heap.SameCode m₁.heap ∧ m₁.depth = m.depth := by
      refine ⟨?_, ?_, ?_⟩
      · rintro m₁ _ ⟨rfl, -⟩
        exact ⟨rfl, rfl, rfl, fun _ => rfl⟩
      · rintro m₁ _ ⟨rfl, -⟩
        rfl
      · rintro m₁ _ ⟨rfl, code, depth⟩ _ _ _ _
        exact ⟨rfl, ⟨code.routines, code.classes, code.objects⟩, depth⟩
    have ends := aloof _ aside m m ⟨rfl, ⟨rfl, rfl, rfl⟩, rfl⟩
    cases found : x m with
    | done a m' =>
        rw [found] at ends
        cases ends with
        | done _ left => exact left.2
    | failed fault m' =>
        rw [found] at ends
        cases ends with
        | failed _ left => exact left.2
    | crashed c m' =>
        rw [found] at ends
        cases ends with
        | crashed _ left => exact left.2
    | exhausted => trivial

theorem of_native {x : Action α} (native : Native x) : Unscoped x := of_aloof native.aloof

theorem binary (op : BinaryOp) (l r : Value) :
    Unscoped (Action.tryOfHeap fun h => Operator.binary h op l r) :=
  of_native (.binary op l r)

theorem unary (op : UnaryOp) (v : Value) :
    Unscoped (Action.tryOfHeap fun h => Operator.unary h op v) :=
  of_native (.unary op v)

theorem index (object i : Value) : Unscoped (Action.index object i) := of_native (.index object i)

theorem storeAt (container i v : Value) : Unscoped (Action.storeAt container i v) :=
  of_native (.storeAt container i v)

theorem makeArray (room : Nat) (sizes : List Nat) : Unscoped (Action.makeArray room sizes) := by
  unfold Action.makeArray
  split
  · exact crash _
  · exact changeHeap (Heap.makeArray_blind sizes)

theorem callNative (f : NativeFunction) (args : List Value) :
    Unscoped (Action.callNative f args) :=
  of_native (.callNative f args)

theorem callMethod (m : NativeMethod) (receiver : Value) (args : List Value) :
    Unscoped (Action.callMethod m receiver args) :=
  of_native (.callMethod m receiver args)

end Action.Unscoped

end Pseudocode

import Pseudocode.Object

/-!
What the operations on scopes do to each scope.

Every operation either adds a scope or changes one in place, so it is described
by `scope?` afterwards. From this follow the facts about single names: `setLocal`
binds its name and keeps every other, and names are only ever added at the end.
A walk outward is described by one step of it (`lookupFrom_step`, `resolveFrom_step`).
What a `return` does is invisible in `plain` heaps, which have no marks.
-/

namespace Pseudocode

/-- The scope without its marks. -/
def Scope.plain (s : Scope) : Scope := { bindings := s.bindings, parent := s.parent }

/-- The heap without the marks of its scopes. -/
def Heap.plain (h : Heap) : Heap := { h with scopes := h.scopes.map Scope.plain }

namespace Scope

@[simp] theorem get?_set_self (s : Scope) (name : String) (v : Value) :
    (s.set name v).get? name = some v :=
  Bindings.lookup_put_self s.bindings name v

theorem get?_set_of_ne (s : Scope) {name other : String} (v : Value) (ne : other ≠ name) :
    (s.set name v).get? other = s.get? other :=
  Bindings.lookup_put_of_ne s.bindings v ne

theorem names_set (s : Scope) (name : String) (v : Value) :
    (s.set name v).names = if name ∈ s.names then s.names else s.names ++ [name] :=
  Bindings.names_put s.bindings name v

/-- A scope binds a name exactly when it lists it. -/
theorem isSome_get?_iff (s : Scope) (name : String) :
    (s.get? name).isSome = true ↔ name ∈ s.names := by
  unfold get? names Bindings.names
  induction s.bindings with
  | nil => simp
  | cons b rest ih =>
      obtain ⟨n, w⟩ := b
      by_cases same : name = n
      · subst same
        simp
      · have ne : (name == n) = false := beq_eq_false_iff_ne.mpr same
        simp only [List.lookup_cons, ne, List.map_cons, List.mem_cons, same, false_or]
        exact ih

end Scope

namespace Heap

variable (h : Heap)

/-! ### One scope after each operation -/

theorem scope?_modifyScope (t : ScopeId) (f : Scope → Scope) (s : ScopeId) :
    (h.modifyScope t f).scope? s = if t = s then (h.scope? s).map f else h.scope? s :=
  Array.getElem?_modify

theorem scope?_newScope (scope : Scope) (s : ScopeId) :
    (h.newScope scope).2.scope? s = if s = h.scopes.size then some scope else h.scope? s :=
  Array.getElem?_push

theorem scope?_setLocal (t : ScopeId) (name : String) (v : Value) (s : ScopeId) :
    (h.setLocal t name v).scope? s =
      if t = s then (h.scope? s).map (·.set name v) else h.scope? s :=
  h.scope?_modifyScope t _ s

@[simp] theorem size_modifyScope (t : ScopeId) (f : Scope → Scope) :
    (h.modifyScope t f).scopes.size = h.scopes.size :=
  Array.size_modify

@[simp] theorem size_setLocal (t : ScopeId) (name : String) (v : Value) :
    (h.setLocal t name v).scopes.size = h.scopes.size :=
  h.size_modifyScope t _

@[simp] theorem size_newScope (scope : Scope) :
    (h.newScope scope).2.scopes.size = h.scopes.size + 1 :=
  Array.size_push ..

variable {h} {s : ScopeId}

theorem scope?_eq_none_iff : h.scope? s = none ↔ h.scopes.size ≤ s :=
  Array.getElem?_eq_none_iff

theorem exists_scope? (valid : s < h.scopes.size) : ∃ scope, h.scope? s = some scope :=
  ⟨_, Array.getElem?_eq_getElem valid⟩

theorem lt_of_scope? {scope : Scope} (found : h.scope? s = some scope) : s < h.scopes.size := by
  obtain ⟨valid, -⟩ := Array.getElem?_eq_some_iff.mp found
  exact valid

/-! ### Single names -/

theorem hasLocal_of_scope? {scope : Scope} (found : h.scope? s = some scope) (name : String) :
    h.hasLocal s name = (scope.get? name).isSome := by
  simp only [hasLocal, local?, found, Option.bind_some]

theorem localNames_of_scope? {scope : Scope} (found : h.scope? s = some scope) :
    h.localNames s = scope.names := by
  simp only [localNames, found]

/-- A name is bound in a scope exactly when the scope lists it. -/
theorem hasLocal_iff (name : String) : h.hasLocal s name = true ↔ name ∈ h.localNames s := by
  cases found : h.scope? s with
  | none => simp [hasLocal, local?, localNames, found]
  | some scope =>
      rw [hasLocal_of_scope? found, localNames_of_scope? found]
      exact scope.isSome_get?_iff name

theorem lt_of_hasLocal {name : String} (bound : h.hasLocal s name = true) : s < h.scopes.size := by
  obtain ⟨v, value⟩ := Option.isSome_iff_exists.mp bound
  obtain ⟨scope, found, -⟩ := Option.bind_eq_some_iff.mp value
  exact lt_of_scope? found

theorem localNames_setLocal_of_ne {t : ScopeId} (name : String) (v : Value) (ne : t ≠ s) :
    (h.setLocal t name v).localNames s = h.localNames s := by
  simp only [localNames, scope?_setLocal, if_neg ne]

/-- `setLocal` adds its name at the end of the scope's list, unless it is there. -/
theorem localNames_setLocal_self (name : String) (v : Value) (valid : s < h.scopes.size) :
    (h.setLocal s name v).localNames s =
      if name ∈ h.localNames s then h.localNames s else h.localNames s ++ [name] := by
  obtain ⟨scope, found⟩ := exists_scope? valid
  simp only [localNames, scope?_setLocal, if_pos, found, Option.map_some, Scope.names_set]

theorem localNames_setLocal_of_bound {t : ScopeId} {name : String} (v : Value)
    (bound : h.hasLocal t name = true) (s : ScopeId) :
    (h.setLocal t name v).localNames s = h.localNames s := by
  by_cases ne : t = s
  · subst ne
    have mem := (hasLocal_iff name).mp bound
    by_cases valid : t < h.scopes.size
    · rw [localNames_setLocal_self name v valid, if_pos mem]
    · have absent : h.scope? t = none := scope?_eq_none_iff.mpr (Nat.le_of_not_lt valid)
      simp [localNames, scope?_setLocal, absent]
  · exact localNames_setLocal_of_ne name v ne

theorem local?_setLocal_self (name : String) (v : Value) (valid : s < h.scopes.size) :
    (h.setLocal s name v).local? s name = some v := by
  obtain ⟨scope, found⟩ := exists_scope? valid
  simp [local?, scope?_setLocal, found]

theorem hasLocal_setLocal_self (name : String) (v : Value) (valid : s < h.scopes.size) :
    (h.setLocal s name v).hasLocal s name = true := by
  rw [hasLocal, local?_setLocal_self name v valid, Option.isSome_some]

theorem localNames_newScope_of_lt (scope : Scope) (valid : s < h.scopes.size) :
    (h.newScope scope).2.localNames s = h.localNames s := by
  simp only [localNames, scope?_newScope, if_neg (Nat.ne_of_lt valid)]

theorem hasLocal_newScope_self (scope : Scope) (name : String) :
    (h.newScope scope).2.hasLocal h.scopes.size name = (scope.get? name).isSome := by
  apply hasLocal_of_scope?
  rw [scope?_newScope, if_pos rfl]

theorem localNames_eq_nil (invalid : h.scopes.size ≤ s) : h.localNames s = [] := by
  simp only [localNames, scope?_eq_none_iff.mpr invalid]

theorem local?_setLocal_of_ne {t : ScopeId} {name other : String} (v : Value)
    (ne : t ≠ s ∨ other ≠ name) : (h.setLocal t name v).local? s other = h.local? s other := by
  unfold local?
  rw [scope?_setLocal]
  split
  · rename_i same
    subst same
    have differs : other ≠ name := ne.resolve_left fun ne => ne rfl
    cases h.scope? t with
    | none => rfl
    | some scope => exact scope.get?_set_of_ne v differs
  · rfl

/-! ### Walks outward -/

/-- One step of a walk: what the scope itself binds comes first, then what the scope around
it sees. -/
theorem lookupFrom_step (h : Heap) (name : String) (steps : Nat) (s : ScopeId) :
    h.lookupFrom name (steps + 1) s = (h.local? s name).or ((h.parent? s).bind (h.lookupFrom name steps)) := by
  rw [lookupFrom, local?, parent?]
  cases h.scope? s with
  | none => rfl
  | some scope => cases bound : scope.get? name <;> cases around : scope.parent <;> simp [bound, around]

theorem resolveFrom_step (h : Heap) (name : String) (steps : Nat) (s : ScopeId) :
    h.resolveFrom name (steps + 1) s =
      (Option.guard (h.hasLocal · name) s).or ((h.parent? s).bind (h.resolveFrom name steps)) := by
  rw [resolveFrom]
  cases bound : h.hasLocal s name <;> cases h.parent? s <;> simp [Option.guard, bound]

/-- A walk does not tell heaps apart in which the scopes bind the name alike and lie alike. -/
theorem lookupFrom_congr {h h' : Heap} {name : String} (locals : ∀ s, h'.local? s name = h.local? s name)
    (parents : ∀ s, h'.parent? s = h.parent? s) (steps : Nat) (s : ScopeId) :
    h'.lookupFrom name steps s = h.lookupFrom name steps s := by
  induction steps generalizing s with
  | zero => rfl
  | succ steps ih => rw [lookupFrom_step, lookupFrom_step, locals, parents, funext ih]

theorem resolveFrom_congr {h h' : Heap} {name : String} (locals : ∀ s, h'.hasLocal s name = h.hasLocal s name)
    (parents : ∀ s, h'.parent? s = h.parent? s) (steps : Nat) (s : ScopeId) :
    h'.resolveFrom name steps s = h.resolveFrom name steps s := by
  induction steps generalizing s with
  | zero => rfl
  | succ steps ih => rw [resolveFrom_step, resolveFrom_step, funext locals, parents, funext ih]

/-- A name that the scope itself binds is looked up nowhere else. -/
theorem lookup_of_local? {name : String} {v : Value} (bound : h.local? s name = some v) :
    h.lookup s name = .ok v := by
  simp only [lookup, lookup?, lookupFrom_step, bound, Option.some_or]

/-! ### Marking scopes -/

theorem scope?_plain (h : Heap) (s : ScopeId) : h.plain.scope? s = (h.scope? s).map Scope.plain :=
  Array.getElem?_map

@[simp] theorem size_plain (h : Heap) : h.plain.scopes.size = h.scopes.size := Array.size_map

@[simp] theorem local?_plain (h : Heap) (s : ScopeId) (name : String) :
    h.plain.local? s name = h.local? s name := by
  unfold local?
  rw [scope?_plain]
  cases h.scope? s <;> rfl

@[simp] theorem localNames_plain (h : Heap) (s : ScopeId) :
    h.plain.localNames s = h.localNames s := by
  unfold localNames
  rw [scope?_plain]
  cases h.scope? s <;> rfl

/-- A change of the marks of one scope. -/
theorem plain_modifyScope (h : Heap) (t : ScopeId) {f : Scope → Scope}
    (keeps : ∀ scope, (f scope).plain = scope.plain) : (h.modifyScope t f).plain = h.plain := by
  unfold plain modifyScope
  congr 1
  apply Array.ext_getElem?
  intro i
  rw [Array.getElem?_map, Array.getElem?_map, Array.getElem?_modify]
  split
  · cases h.scopes[i]? with
    | none => rfl
    | some scope => exact congrArg some (keeps scope)
  · rfl

theorem scope?_foldl_terminate (blocks : List ScopeId) (h : Heap) (s : ScopeId) :
    (blocks.foldl terminate h).scope? s =
      (h.scope? s).map fun scope => { scope with terminated := scope.terminated || decide (s ∈ blocks) } := by
  induction blocks generalizing h with
  | nil => cases found : h.scope? s <;> simp [found]
  | cons b blocks ih =>
      rw [List.foldl_cons, ih, terminate, scope?_modifyScope]
      by_cases first : b = s
      · subst first
        cases h.scope? b <;> simp
      · have other : s ≠ b := Ne.symm first
        cases h.scope? s <;> simp [first, other]

theorem plain_foldl_terminate (blocks : List ScopeId) (h : Heap) :
    (blocks.foldl terminate h).plain = h.plain := by
  induction blocks generalizing h with
  | nil => rfl
  | cons b blocks ih =>
      refine (ih (h.terminate b)).trans (h.plain_modifyScope b ?_)
      intro scope
      rfl

@[simp] theorem plain_signalReturn (h : Heap) (s : ScopeId) (v : Value) :
    (h.signalReturn s v).2.plain = h.plain := by
  unfold signalReturn
  split
  · rfl
  · rename_i blocks b _
    refine ((blocks.foldl terminate h).plain_modifyScope b ?_).trans (plain_foldl_terminate blocks h)
    intro scope
    rfl

@[simp] theorem plain_takeReturned (h : Heap) (s : ScopeId) : (h.takeReturned s).2.plain = h.plain := by
  refine h.plain_modifyScope s ?_
  intro scope
  rfl

theorem localNames_signalReturn (h : Heap) (t : ScopeId) (v : Value) (s : ScopeId) :
    (h.signalReturn t v).2.localNames s = h.localNames s := by
  rw [← localNames_plain, plain_signalReturn, localNames_plain]

theorem localNames_takeReturned (h : Heap) (t s : ScopeId) :
    (h.takeReturned t).2.localNames s = h.localNames s := by
  rw [← localNames_plain, plain_takeReturned, localNames_plain]

theorem local?_signalReturn (h : Heap) (t : ScopeId) (v : Value) (s : ScopeId) (name : String) :
    (h.signalReturn t v).2.local? s name = h.local? s name := by
  rw [← local?_plain, plain_signalReturn, local?_plain]

theorem local?_takeReturned (h : Heap) (t s : ScopeId) (name : String) :
    (h.takeReturned t).2.local? s name = h.local? s name := by
  rw [← local?_plain, plain_takeReturned, local?_plain]

@[simp] theorem size_foldl_terminate (blocks : List ScopeId) (h : Heap) :
    (blocks.foldl terminate h).scopes.size = h.scopes.size := by
  induction blocks generalizing h with
  | nil => rfl
  | cons b blocks ih => exact (ih (h.terminate b)).trans (h.size_modifyScope b _)

@[simp] theorem size_signalReturn (h : Heap) (t : ScopeId) (v : Value) :
    (h.signalReturn t v).2.scopes.size = h.scopes.size := by
  unfold signalReturn
  split
  · rfl
  · simp

/-! ### Resolving a name -/

theorem hasLocal_of_resolveFrom {name : String} {steps : Nat} {owner : ScopeId}
    (found : h.resolveFrom name steps s = some owner) : h.hasLocal owner name = true := by
  induction steps generalizing s with
  | zero => cases found
  | succ steps ih =>
      rw [resolveFrom_step] at found
      rcases Option.or_eq_some_iff.mp found with here | ⟨-, outside⟩
      · obtain ⟨rfl, bound⟩ := Option.guard_eq_some_iff.mp here
        exact bound
      · obtain ⟨p, -, around⟩ := Option.bind_eq_some_iff.mp outside
        exact ih around

/-- The scope that `assign` changes: one that binds the name already, or the
scope of the assignment. -/
theorem assign_owner (s : ScopeId) (name : String) :
    h.hasLocal ((h.resolve? s name).getD s) name = true ∨ (h.resolve? s name).getD s = s := by
  cases found : h.resolve? s name with
  | none => exact .inr rfl
  | some owner => exact .inl (hasLocal_of_resolveFrom found)

end Heap

end Pseudocode

import Mathlib.Data.List.Forall2
import Pseudocode.Proofs.Classes.References
import Pseudocode.Proofs.Layers

/-!
What is built for an object.

`Lineage h c cs` lists the classes from `c` up to the oldest one above it. `Built h cs ls`
says what the layers `ls` of an object are in the heap `h`, one for each class of `cs`: where
its scope lies, and what the scope binds. These layers are what is built, all of them new
(`buildFrom_ok`), unless some class that has a parent declares a member under the name by
which the layer knows the one above it (`buildFrom_error`).
-/

namespace Pseudocode

theorem Bindings.put_of_notMem {α : Type} {bs : Bindings α} {name : String} (v : α) (free : name ∉ bs.names) :
    bs.put name v = bs ++ [(name, v)] := by
  induction bs with
  | nil => rfl
  | cons b bs ih =>
      obtain ⟨other, w⟩ := b
      simp only [names, List.map_cons, List.mem_cons, not_or] at free
      rw [put, if_neg (by simpa using Ne.symm free.1), ih free.2, List.cons_append]

namespace Heap

/-! ### Classes and layers -/

/-- A class, the class it inherits from, and so on up to one that inherits from none. -/
inductive Lineage (h : Heap) : ClassId → List ClassId → Prop where
  | oldest {c : ClassId} {cell : ClassCell} (found : h.classes[c]? = some cell)
      (alone : cell.parent = none) : Lineage h c [c]
  | under {c p : ClassId} {cs : List ClassId} {cell : ClassCell} (found : h.classes[c]? = some cell)
      (inherits : cell.parent = some p) (above : Lineage h p cs) : Lineage h c (c :: cs)

/-- The class declares a member under a name. -/
def Names (h : Heap) (c : ClassId) (name : String) : Prop :=
  ∃ cell, h.classes[c]? = some cell ∧ ∃ m ∈ cell.decl.members, m.name = name

/-- A class that inherits from another declares a member under the name by which its layer
knows the layer of the other. -/
def Shadows (h : Heap) (cs : List ClassId) : Prop := ∃ c ∈ cs.dropLast, h.Names c superName

/-- What a new layer binds for a member: null for a field, and for a method a routine that
is closed over the scope of the layer. -/
inductive MemberBound (h : Heap) (s : ScopeId) : Member → String × Value → Prop where
  | field (visibility : Visibility) (span : Span) (name : String) :
      MemberBound h s (.field visibility span name) (name, .null)
  | function (visibility : Visibility) (span : Span) {decl : RoutineDecl} {id : RoutineId}
      (kind : decl.kind = .function) (closed : h.routines[id]? = some ⟨decl, s⟩) :
      MemberBound h s (.method visibility span decl) (decl.name, .function id)
  | procedure (visibility : Visibility) (span : Span) {decl : RoutineDecl} {id : RoutineId}
      (kind : decl.kind = .procedure) (closed : h.routines[id]? = some ⟨decl, s⟩) :
      MemberBound h s (.method visibility span decl) (decl.name, .procedure id)

/-- What a layer binds before the members of its class: the layer above, if there is one. -/
def aboveBindings : Option ObjectId → Bindings Value
  | none => []
  | some b => [(superName, .object b)]

/-- The layer of a class: its scope lies in the scope `around`, and binds the layer above, if
there is one, and then the members of the class in their order, and nothing else. -/
structure Layer (h : Heap) (c : ClassId) (cell : ClassCell) (around : ScopeId) (base : Option ObjectId)
    (o : ObjectId) (s : ScopeId) : Prop where
  found : h.classes[c]? = some cell
  object : h.objects[o]? = some ⟨c, s, base⟩
  binds : ∃ bindings, h.scope? s = some { bindings := aboveBindings base ++ bindings, parent := some around } ∧
    List.Forall₂ (h.MemberBound s) cell.decl.members bindings

/-- The layers of a new object, each given by its object and its scope, from that of its own
class on. The scope of a layer lies in that of the layer above it, or where the oldest class
was declared. -/
inductive Built (h : Heap) : List ClassId → List (ObjectId × ScopeId) → Prop where
  | oldest {c : ClassId} {cell : ClassCell} {o : ObjectId} {s : ScopeId}
      (layer : h.Layer c cell cell.scope none o s) : Built h [c] [(o, s)]
  | upon {c : ClassId} {cs : List ClassId} {cell : ClassCell} {o b : ObjectId} {s t : ScopeId}
      {ls : List (ObjectId × ScopeId)} (layer : h.Layer c cell t (some b) o s)
      (above : Built h cs ((b, t) :: ls)) : Built h (c :: cs) ((o, s) :: (b, t) :: ls)

/-- Scopes, routines and objects are added, and among the scopes that are there only those
from `n` on change. -/
structure Grows (n : ScopeId) (h h' : Heap) : Prop where
  scopes : ∀ t, t < n → h'.scope? t = h.scope? t
  size : h.scopes.size ≤ h'.scopes.size
  code : h.Extends h'
  rest : h' = { h with scopes := h'.scopes, routines := h'.routines, objects := h'.objects }

variable {h h' : Heap} {n : ScopeId} {s t : ScopeId} {c p : ClassId} {cs : List ClassId}
  {ls : List (ObjectId × ScopeId)} {cell : ClassCell} {members : List Member} {name : String} {v : Value}
  {scope : Scope}

/-! ### Growing -/

namespace Grows

theorem refl (n : ScopeId) (h : Heap) : h.Grows n h := ⟨fun _ _ => rfl, Nat.le_refl _, ⟨id, id, id⟩, rfl⟩

theorem trans {h'' : Heap} (first : h.Grows n h') (second : h'.Grows n h'') : h.Grows n h'' where
  scopes t old := (second.scopes t old).trans (first.scopes t old)
  size := Nat.le_trans first.size second.size
  code := first.code.trans second.code
  rest := by
    rw [second.rest, first.rest]

theorem weaken {k : ScopeId} (grows : h.Grows k h') (le : n ≤ k) : h.Grows n h' :=
  ⟨fun t old => grows.scopes t (Nat.lt_of_lt_of_le old le), grows.size, grows.code, grows.rest⟩

theorem classes (grows : h.Grows n h') : h'.classes = h.classes := by
  rw [grows.rest]

theorem setLocal (h : Heap) (s : ScopeId) (name : String) (v : Value) : h.Grows s (h.setLocal s name v) where
  scopes t old := by rw [scope?_setLocal, if_neg (Nat.ne_of_gt old)]
  size := Nat.le_of_eq (size_setLocal h s name v).symm
  code := ⟨id, id, id⟩
  rest := rfl

theorem newScope (h : Heap) (scope : Scope) : h.Grows h.scopes.size (h.newScope scope).2 where
  scopes t old := by rw [scope?_newScope, if_neg (Nat.ne_of_lt old)]
  size := by simp
  code := ⟨id, id, id⟩
  rest := rfl

theorem newRoutine (h : Heap) (r : Routine) : h.Grows n (h.newRoutine r).2 :=
  ⟨fun _ _ => rfl, Nat.le_refl _, ⟨getElem?_push_of_eq_some _, id, id⟩, rfl⟩

theorem newObject (h : Heap) (o : Object) : h.Grows n (h.newObject o).2 :=
  ⟨fun _ _ => rfl, Nat.le_refl _, ⟨id, id, getElem?_push_of_eq_some _⟩, rfl⟩

theorem memberBound {m : Member} {b : String × Value} (grows : h.Grows n h') (bound : h.MemberBound s m b) :
    h'.MemberBound s m b := by
  cases bound with
  | field visibility span name => exact .field visibility span name
  | function visibility span kind closed => exact .function visibility span kind (grows.code.routines closed)
  | procedure visibility span kind closed => exact .procedure visibility span kind (grows.code.routines closed)

theorem layer {around : ScopeId} {base : Option ObjectId} {o : ObjectId} (grows : h.Grows h.scopes.size h')
    (layer : h.Layer c cell around base o s) : h'.Layer c cell around base o s where
  found := grows.code.classes layer.found
  object := grows.code.objects layer.object
  binds := by
    obtain ⟨bindings, scope, members⟩ := layer.binds
    refine ⟨bindings, ?_, members.imp fun _ _ bound => grows.memberBound bound⟩
    rw [grows.scopes s (lt_of_scope? scope), scope]

/-- What has been built stays as it is when scopes are added. -/
theorem built (grows : h.Grows h.scopes.size h') (built : h.Built cs ls) : h'.Built cs ls := by
  induction built with
  | oldest layer => exact .oldest (grows.layer layer)
  | upon layer _ ih => exact .upon (grows.layer layer) ih

end Grows

theorem Built.objectScope {o : ObjectId} (built : h.Built cs ((o, s) :: ls)) : h.objectScope o = s := by
  unfold Heap.objectScope
  cases built with
  | oldest layer => rw [layer.object]
  | upon layer _ => rw [layer.object]

/-! ### Binding members -/

/-- The value of a member, made in the scope of the layer, and the heap that holds it. -/
theorem memberValue_bound (s : ScopeId) (h : Heap) (m : Member) :
    (memberValue s h m).2.MemberBound s m (m.name, (memberValue s h m).1) ∧
      h.Grows n (memberValue s h m).2 ∧ (memberValue s h m).2.scopes = h.scopes := by
  cases m with
  | field visibility span name => exact ⟨.field visibility span name, .refl n h, rfl⟩
  | method visibility span decl =>
      have closed : (h.closure decl s).2.routines[h.routines.size]? = some ⟨decl, s⟩ :=
        Array.getElem?_push_size
      refine ⟨?_, .newRoutine h ⟨decl, s⟩, rfl⟩
      cases kind : decl.kind with
      | function =>
          have value : (memberValue s h (.method visibility span decl)).1 = .function h.routines.size := by
            simp only [memberValue, closure, kind, newRoutine]
          rw [value]
          exact .function visibility span kind closed
      | procedure =>
          have value : (memberValue s h (.method visibility span decl)).1 = .procedure h.routines.size := by
            simp only [memberValue, closure, kind, newRoutine]
          rw [value]
          exact .procedure visibility span kind closed

/-- A name that a scope does not bind can be declared in it. -/
theorem declare_of_free (found : h.scope? s = some scope) (free : name ∉ scope.names) (v : Value) :
    h.declare s name v = (.ok (), h.setLocal s name v) := by
  have absent : h.hasLocal s name = false := by
    rw [Bool.eq_false_iff, ne_eq, hasLocal_iff, localNames_of_scope? found]
    exact free
  unfold declare
  rw [absent]
  rfl

theorem declare_of_bound (found : h.scope? s = some scope) (bound : name ∈ scope.names) (v : Value) :
    h.declare s name v = (.error (.redeclaration name), h) := by
  have present : h.hasLocal s name = true := by
    rw [hasLocal_iff, localNames_of_scope? found]
    exact bound
  unfold declare
  rw [present]
  rfl

theorem scope?_setLocal_self (found : h.scope? s = some scope) (name : String) (v : Value) :
    (h.setLocal s name v).scope? s = some (scope.set name v) := by
  rw [scope?_setLocal, if_pos rfl, found, Option.map_some]

/-- Binding the first member makes no difference to whether the others can be bound. -/
theorem mem_names_set_iff {m m' : Member} (other : m.name ∉ members.map Member.name) (mem : m' ∈ members) :
    m'.name ∈ (scope.set m.name v).names ↔ m'.name ∈ scope.names := by
  have ne : m'.name ≠ m.name := by
    intro same
    apply other
    rw [← same]
    exact List.mem_map_of_mem mem
  rw [Scope.names_set]
  split
  · exact Iff.rfl
  · simp [ne]

/-- Members with names of their own that the scope does not bind are bound after what is
bound there, in their order. -/
theorem bindMembers_ok (found : h.scope? s = some scope) (distinct : (members.map Member.name).Nodup)
    (free : ∀ m ∈ members, m.name ∉ scope.names) :
    ∃ bindings h', bindMembers s members h = (.ok (), h') ∧
      h'.scope? s = some { scope with bindings := scope.bindings ++ bindings } ∧
      List.Forall₂ (h'.MemberBound s) members bindings ∧ h.Grows s h' := by
  induction members generalizing h scope with
  | nil => exact ⟨[], h, rfl, by simpa using found, .nil, .refl s h⟩
  | cons m rest ih =>
      obtain ⟨other, distinct⟩ := List.nodup_cons.mp distinct
      obtain ⟨first, free⟩ := List.forall_mem_cons.mp free
      obtain ⟨bound, made, same⟩ := memberValue_bound (n := s) s h m
      have here : (memberValue s h m).2.scope? s = some scope := by
        rw [scope?, same]
        exact found
      have named := declare_of_free here first (memberValue s h m).1
      have after := scope?_setLocal_self here m.name (memberValue s h m).1
      have free : ∀ m' ∈ rest, m'.name ∉ (scope.set m.name (memberValue s h m).1).names := by
        intro m' mem
        rw [mem_names_set_iff other mem]
        exact free m' mem
      obtain ⟨bindings, h', run, scope', others, grows⟩ := ih after distinct free
      have grown := (Grows.setLocal (memberValue s h m).2 s m.name (memberValue s h m).1).trans grows
      refine ⟨(m.name, (memberValue s h m).1) :: bindings, h', ?_, ?_, ?_, made.trans grown⟩
      · rw [bindMembers_cons, named]
        exact run
      · rw [scope', Scope.set, Bindings.put_of_notMem _ first, List.append_assoc, List.singleton_append]
      · exact .cons (grown.memberBound bound) others

/-- A member whose name the scope binds already cannot be bound. -/
theorem bindMembers_error (found : h.scope? s = some scope) (distinct : (members.map Member.name).Nodup)
    (clash : ∃ m ∈ members, m.name = name) (bound : name ∈ scope.names)
    (only : ∀ m ∈ members, m.name ∈ scope.names → m.name = name) :
    ∃ h', bindMembers s members h = (.error (.redeclaration name), h') ∧ h.Grows s h' := by
  induction members generalizing h scope with
  | nil =>
      obtain ⟨m, mem, -⟩ := clash
      cases mem
  | cons m rest ih =>
      obtain ⟨other, distinct⟩ := List.nodup_cons.mp distinct
      obtain ⟨first, only⟩ := List.forall_mem_cons.mp only
      obtain ⟨-, made, same⟩ := memberValue_bound (n := s) s h m
      have here : (memberValue s h m).2.scope? s = some scope := by
        rw [scope?, same]
        exact found
      rw [bindMembers_cons]
      by_cases taken : m.name ∈ scope.names
      · rw [first taken, declare_of_bound here bound]
        exact ⟨_, rfl, made⟩
      · rw [declare_of_free here taken]
        have after := scope?_setLocal_self here m.name (memberValue s h m).1
        have clash : ∃ m' ∈ rest, m'.name = name := by
          obtain ⟨m', mem, called⟩ := clash
          rcases List.mem_cons.mp mem with rfl | later
          · rw [called] at taken
            exact absurd bound taken
          · exact ⟨m', later, called⟩
        have bound : name ∈ (scope.set m.name (memberValue s h m).1).names := by
          rw [Scope.names_set, if_neg taken]
          exact List.mem_append_left _ bound
        have only : ∀ m' ∈ rest, m'.name ∈ (scope.set m.name (memberValue s h m).1).names → m'.name = name := by
          intro m' mem
          rw [mem_names_set_iff other mem]
          exact only m' mem
        obtain ⟨h', run, grows⟩ := ih after distinct clash bound only
        exact ⟨h', run, made.trans ((Grows.setLocal _ s m.name _).trans grows)⟩

/-! ### One layer -/

/-- The scope of a new layer before its members are bound. -/
theorem newLayer_eq (c : ClassId) (decl : ClassDecl) (around : ScopeId) (base : Option ObjectId) (h : Heap) :
    ∃ h₁, newLayer c decl around base h = fillLayer c decl base h.scopes.size h₁ ∧
      h₁.scope? h.scopes.size = some { bindings := aboveBindings base, parent := some around } ∧
      h₁.objects = h.objects ∧ h.Grows h.scopes.size h₁ := by
  have entered : (h.newBlock around).2.scope? h.scopes.size = some { parent := some around } := by
    rw [newBlock, scope?_newScope, if_pos rfl]
  have grown : h.Grows h.scopes.size (h.newBlock around).2 := .newScope h { parent := some around }
  cases base with
  | none => exact ⟨_, newLayer_none c decl around h, entered, rfl, grown⟩
  | some b =>
      have free : superName ∉ ({ parent := some around } : Scope).names := List.not_mem_nil
      have named := declare_of_free entered free (.object b)
      have bound := scope?_setLocal_self entered superName (.object b)
      refine ⟨(h.newBlock around).2.setLocal h.scopes.size superName (.object b), ?_, bound, rfl, ?_⟩
      · rw [newLayer_some, named]
      · exact grown.trans (.setLocal _ _ superName (.object b))

/-- The members of the class are bound when none of them is called like the layer above. -/
theorem newLayer_ok (found : h.classes[c]? = some cell) (around : ScopeId) (base : Option ObjectId)
    (distinct : (cell.decl.members.map Member.name).Nodup)
    (free : ∀ m ∈ cell.decl.members, m.name ∉ (aboveBindings base).names) :
    ∃ h', newLayer c cell.decl around base h = (.ok h.objects.size, h') ∧
      h'.Layer c cell around base h.objects.size h.scopes.size ∧ h.Grows h.scopes.size h' := by
  obtain ⟨h₁, same, scope, objects, grown⟩ := newLayer_eq c cell.decl around base h
  obtain ⟨bindings, h₂, run, scope', members, grows⟩ := bindMembers_ok scope distinct free
  have untouched := (bindMembers_layers h.scopes.size cell.decl.members h₁).2
  rw [run, objects] at untouched
  have last : h₂.Grows h.scopes.size (h₂.newObject ⟨c, h.scopes.size, base⟩).2 := .newObject h₂ _
  have grows := grown.trans (grows.trans last)
  refine ⟨(h₂.newObject ⟨c, h.scopes.size, base⟩).2, ?_, ?_, grows⟩
  · rw [same, fillLayer, run]
    dsimp only
    rw [untouched]
  · constructor
    · exact grows.code.classes found
    · change (h₂.objects.push _)[h.objects.size]? = _
      rw [← untouched]
      exact Array.getElem?_push_size
    · exact ⟨bindings, scope', members.imp fun _ _ bound => last.memberBound bound⟩

/-- A member that is called like the layer above cannot be bound. -/
theorem newLayer_error (c : ClassId) {decl : ClassDecl} (around : ScopeId) (b : ObjectId) (h : Heap)
    (distinct : (decl.members.map Member.name).Nodup) (clash : ∃ m ∈ decl.members, m.name = superName) :
    ∃ h', newLayer c decl around (some b) h = (.error (.redeclaration superName), h') ∧
      h.Grows h.scopes.size h' := by
  obtain ⟨h₁, same, scope, -, grown⟩ := newLayer_eq c decl around (some b) h
  have only : ∀ m ∈ decl.members, m.name ∈ (aboveBindings (some b)).names → m.name = superName :=
    fun m _ bound => List.mem_singleton.mp bound
  obtain ⟨h₂, run, grows⟩ := bindMembers_error scope distinct clash List.mem_cons_self only
  refine ⟨h₂, ?_, grown.trans grows⟩
  rw [same, fillLayer, run]

/-! ### All layers -/

/-- Classes inherit from older ones, so that there is an oldest above each. -/
theorem Orderly.exists_lineage (orderly : h.Orderly) (c : ClassId) (valid : c < h.classes.size) :
    ∃ cs, h.Lineage c cs := by
  induction c using Nat.strongRecOn with
  | ind c ih =>
      have found : h.classes[c]? = some h.classes[c] := Array.getElem?_eq_getElem valid
      cases inherits : h.classes[c].parent with
      | none => exact ⟨[c], .oldest found inherits⟩
      | some p =>
          have older := orderly.older found inherits
          obtain ⟨cs, above⟩ := ih p older (Nat.lt_trans older valid)
          exact ⟨c :: cs, .under found inherits above⟩

theorem Lineage.ne_nil (lineage : h.Lineage c cs) : cs ≠ [] := by
  cases lineage <;> exact List.cons_ne_nil _ _

theorem names_iff (found : h.classes[c]? = some cell) :
    h.Names c name ↔ ∃ m ∈ cell.decl.members, m.name = name := by
  simp [Names, found]

theorem shadows_cons (above : cs ≠ []) : h.Shadows (c :: cs) ↔ h.Names c superName ∨ h.Shadows cs := by
  unfold Shadows
  rw [List.dropLast_cons_of_ne_nil above, List.exists_mem_cons_iff]

/-- The layers were not in the heap `h`, and they were made from the oldest class on. -/
structure Unshared (h : Heap) (ls : List (ObjectId × ScopeId)) : Prop where
  objects : ∀ l ∈ ls, h.objects.size ≤ l.1
  scopes : ∀ l ∈ ls, h.scopes.size ≤ l.2
  order : ls.Pairwise fun l l' => l'.1 < l.1 ∧ l'.2 < l.2

theorem Layer.valid {around : ScopeId} {base : Option ObjectId} {o : ObjectId}
    (layer : h.Layer c cell around base o s) : o < h.objects.size ∧ s < h.scopes.size := by
  obtain ⟨bindings, scope, -⟩ := layer.binds
  exact ⟨(Array.getElem?_eq_some_iff.mp layer.object).1, lt_of_scope? scope⟩

theorem Built.valid (built : h.Built cs ls) : ∀ l ∈ ls, l.1 < h.objects.size ∧ l.2 < h.scopes.size := by
  induction built with
  | oldest layer => exact List.forall_mem_singleton.mpr layer.valid
  | upon layer _ ih => exact List.forall_mem_cons.mpr ⟨layer.valid, ih⟩

/-- One layer over those that are there. -/
theorem Unshared.cons {h₁ : Heap} (unshared : h.Unshared ls) (built : h₁.Built cs ls) (grows : h.Grows n h₁) :
    h.Unshared ((h₁.objects.size, h₁.scopes.size) :: ls) where
  objects := List.forall_mem_cons.mpr ⟨grows.code.objects_le, unshared.objects⟩
  scopes := List.forall_mem_cons.mpr ⟨grows.size, unshared.scopes⟩
  order := List.pairwise_cons.mpr ⟨built.valid, unshared.order⟩

/-- If no member is called like the layer above, all layers are built. -/
theorem buildFrom_ok (orderly : h.Orderly) (lineage : h.Lineage c cs) (clear : ¬ h.Shadows cs) {steps : Nat}
    (enough : c < steps) :
    ∃ o s ls h', buildFrom steps c h = (.ok o, h') ∧ h'.Built cs ((o, s) :: ls) ∧
      h.Unshared ((o, s) :: ls) ∧ h.Grows h.scopes.size h' := by
  induction lineage generalizing steps with
  | @oldest c cell found alone =>
      obtain ⟨steps, rfl⟩ := Nat.exists_eq_add_one_of_ne_zero (Nat.ne_zero_of_lt enough)
      have proper := orderly.classes cell (Array.mem_of_getElem? found)
      obtain ⟨h', run, layer, grows⟩ :=
        newLayer_ok found cell.scope none proper.distinct fun _ _ => List.not_mem_nil
      refine ⟨h.objects.size, h.scopes.size, [], h', ?_, .oldest layer, ?_, grows⟩
      · simp only [buildFrom, found, alone]
        exact run
      · constructor
        · exact List.forall_mem_singleton.mpr (Nat.le_refl _)
        · exact List.forall_mem_singleton.mpr (Nat.le_refl _)
        · exact List.pairwise_singleton _ _
  | @under c p cs cell found inherits above ih =>
      obtain ⟨steps, rfl⟩ := Nat.exists_eq_add_one_of_ne_zero (Nat.ne_zero_of_lt enough)
      have proper := orderly.classes cell (Array.mem_of_getElem? found)
      rw [shadows_cons above.ne_nil, not_or, names_iff found] at clear
      have older := orderly.older found inherits
      obtain ⟨b, t, ls, h₁, run, built, unshared, grown⟩ :=
        ih clear.2 (Nat.lt_of_lt_of_le older (Nat.le_of_lt_succ enough))
      have free : ∀ m ∈ cell.decl.members, m.name ∉ (aboveBindings (some b)).names := by
        intro m mem bound
        exact clear.1 ⟨m, mem, List.mem_singleton.mp bound⟩
      obtain ⟨h', last, layer, grows⟩ :=
        newLayer_ok (grown.code.classes found) (h₁.objectScope b) (some b) proper.distinct free
      rw [built.objectScope] at layer
      refine ⟨h₁.objects.size, h₁.scopes.size, (b, t) :: ls, h', ?_, .upon layer (grows.built built),
        unshared.cons built grown, grown.trans (grows.weaken grown.size)⟩
      simp only [buildFrom, found, inherits, run]
      exact last

/-- If a member is called like the layer above, building comes to an end at it. -/
theorem buildFrom_error (orderly : h.Orderly) (lineage : h.Lineage c cs) (shadows : h.Shadows cs) {steps : Nat}
    (enough : c < steps) :
    ∃ h', buildFrom steps c h = (.error (.redeclaration superName), h') ∧ h.Grows h.scopes.size h' := by
  induction lineage generalizing steps with
  | oldest =>
      obtain ⟨c', mem, -⟩ := shadows
      cases mem
  | @under c p cs cell found inherits above ih =>
      obtain ⟨steps, rfl⟩ := Nat.exists_eq_add_one_of_ne_zero (Nat.ne_zero_of_lt enough)
      have older := orderly.older found inherits
      have enough := Nat.lt_of_lt_of_le older (Nat.le_of_lt_succ enough)
      by_cases higher : h.Shadows cs
      · obtain ⟨h', run, grows⟩ := ih higher enough
        refine ⟨h', ?_, grows⟩
        simp only [buildFrom, found, inherits, run]
      · rw [shadows_cons above.ne_nil, or_iff_left higher, names_iff found] at shadows
        have proper := orderly.classes cell (Array.mem_of_getElem? found)
        obtain ⟨b, t, ls, h₁, run, built, -, grown⟩ := buildFrom_ok orderly above higher enough
        obtain ⟨h', last, grows⟩ := newLayer_error c (h₁.objectScope b) b h₁ proper.distinct shadows
        refine ⟨h', ?_, grown.trans (grows.weaken grown.size)⟩
        simp only [buildFrom, found, inherits, run]
        exact last

/-! ### New objects -/

/-- The object `o` of class `c` is built: its layers `ls`, one for each class of `cs`, are added to
the heap `h`, which is then `h'`. -/
structure Builds (h : Heap) (c : ClassId) (cs : List ClassId) (o : ObjectId) (ls : List (ObjectId × ScopeId))
    (h' : Heap) : Prop where
  result : h.buildObject c = (.ok o, h')
  own : ls.head?.map Prod.fst = some o
  layers : h'.Built cs ls
  unshared : h.Unshared ls
  grows : h.Grows h.scopes.size h'

theorem Orderly.exists_builds (orderly : h.Orderly) (lineage : h.Lineage c cs) (clear : ¬ h.Shadows cs) :
    ∃ o ls h', h.Builds c cs o ls h' := by
  obtain ⟨o, s, ls, h', result, built, unshared, grows⟩ := buildFrom_ok orderly lineage clear (Nat.lt_succ_self c)
  exact ⟨o, (o, s) :: ls, h', result, rfl, built, unshared, grows⟩

/-- No layer is in both lists, and no scope of one. -/
def Apart (ls ls' : List (ObjectId × ScopeId)) : Prop := ∀ l ∈ ls, ∀ l' ∈ ls', l.1 ≠ l'.1 ∧ l.2 ≠ l'.2

/-- An object that is built later, with nothing removed in between, has no layer in common with
this one. -/
theorem Builds.apart {later after : Heap} {c₂ : ClassId} {cs₂ : List ClassId} {o o₂ : ObjectId}
    {ls₂ : List (ObjectId × ScopeId)} (first : h.Builds c cs o ls h') (second : later.Builds c₂ cs₂ o₂ ls₂ after)
    (objects : h'.objects.size ≤ later.objects.size) (scopes : h'.scopes.size ≤ later.scopes.size) :
    Apart ls ls₂ := by
  intro l mem l₂ mem₂
  obtain ⟨object, scope⟩ := first.layers.valid l mem
  have newObject := Nat.le_trans objects (second.unshared.objects l₂ mem₂)
  have newScope := Nat.le_trans scopes (second.unshared.scopes l₂ mem₂)
  exact ⟨Nat.ne_of_lt (Nat.lt_of_lt_of_le object newObject), Nat.ne_of_lt (Nat.lt_of_lt_of_le scope newScope)⟩

end Heap

end Pseudocode

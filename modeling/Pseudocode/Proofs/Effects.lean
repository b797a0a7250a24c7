import Pseudocode.Proofs.Congruence
import Pseudocode.Proofs.Scopes
import Pseudocode.Proofs.Unscoped

/-!
What a run can do to scopes and to the code that the heap keeps.

`Heap.Run P own h h'` says that running permitted code in its own scope can turn
the heap `h` into `h'`. It lists every single change: a name is bound in the
own scope, an existing binding is overwritten, a closure, class or layer is added, a
`return` marks scopes, and a block or call is entered, in a new scope. Arrays
and files are left out. `executeBlock_leads` and its companions say that this
list is complete. An invariant of runs is then proved by induction on `Run`, one
case for each kind of change.
-/

namespace Pseudocode

namespace Heap

/-- Something in the heap lives in scope `t`: a routine or class was declared
there, or it is a layer of an object. -/
inductive Anchors (h : Heap) (t : ScopeId) : Prop where
  | routine (r : Routine) (mem : r ∈ h.routines) (inside : r.scope = t)
  | classCell (c : ClassCell) (mem : c ∈ h.classes) (inside : c.scope = t)
  | object (o : Object) (mem : o ∈ h.objects) (inside : o.scope = t)

/-- All code that the heap keeps is permitted. -/
structure Carries (P : Feature → Prop) (h : Heap) : Prop where
  routines : ∀ r ∈ h.routines, Permits P r.decl.features
  classes : ∀ c ∈ h.classes, Permits P c.decl.features

/-- Permitted code, running in its own scope or, like a call, in none of the
scopes that are there, turns the first heap into the second. -/
inductive Run (P : Feature → Prop) : Option ScopeId → Heap → Heap → Prop where
  /-- Arrays and files change, nothing else. -/
  | aside {own : Option ScopeId} {h h' : Heap} (scopes : h'.scopes = h.scopes)
      (code : h.SameCode h') : Run P own h h'
  | trans {own : Option ScopeId} {h h' h'' : Heap} (first : Run P own h h')
      (second : Run P own h' h'') : Run P own h h''
  /-- A name is bound in the scope itself. -/
  | bind {s : ScopeId} {h : Heap} (name : String) (v : Value) :
      Run P (some s) h (h.setLocal s name v)
  | assign {s : ScopeId} {h : Heap} (name : String) (v : Value) (permitted : P (.assigns name)) :
      Run P (some s) h (h.assign s name v)
  /-- A field is set from outside its object. -/
  | setField {own : Option ScopeId} {h : Heap} {o : ObjectId} {name : String} {layer : Object}
      {member : Member} (v : Value) (found : h.layer? o name = some (layer, member)) :
      Run P own h (h.setLocal layer.scope name v)
  | closure {s : ScopeId} {h : Heap} (decl : RoutineDecl) (permitted : Permits P decl.features) :
      Run P (some s) h (h.newRoutine ⟨decl, s⟩).2
  | classCell {s : ScopeId} {h : Heap} (decl : ClassDecl) (parent : Option ClassId)
      (permitted : Permits P decl.features) (found : h.parentClass decl s = .ok parent) :
      Run P (some s) h (h.newClass ⟨decl, s, parent⟩).2
  /-- The scope becomes a layer of an object: it binds every member of the class. -/
  | layer {s : ScopeId} {h : Heap} {c : ClassId} {cell : ClassCell} (base : Option ObjectId)
      (found : h.classes[c]? = some cell)
      (bound : ∀ m ∈ cell.decl.members, h.hasLocal s m.name = true) :
      Run P (some s) h (h.newObject ⟨c, s, base⟩).2
  | signal {s : ScopeId} {h : Heap} (v : Value) : Run P (some s) h (h.signalReturn s v).2
  | take {s : ScopeId} {h : Heap} : Run P (some s) h (h.takeReturned s).2
  /-- Code runs in a new scope, inside its own or where something lives. -/
  | enter {own : Option ScopeId} {h h' : Heap} {around : ScopeId} (boundary : Bool)
      (lives : own = some around ∨ h.Anchors around)
      (inner : Run P (some h.scopes.size) (h.newScope { parent := some around, boundary }).2 h') :
      Run P own h h'

variable {P : Feature → Prop} {own : Option ScopeId} {s : ScopeId} {h h' : Heap}

theorem Run.refl : Run P own h h := .aside rfl ⟨rfl, rfl, rfl⟩

/-! ### Code stays permitted -/

theorem SameCode.carries (same : h.SameCode h') (carries : h.Carries P) : h'.Carries P :=
  ⟨by rw [same.routines]; exact carries.routines, by rw [same.classes]; exact carries.classes⟩

theorem foldl_terminate_sameCode (blocks : List ScopeId) (h : Heap) :
    h.SameCode (blocks.foldl terminate h) := by
  induction blocks generalizing h with
  | nil => exact ⟨rfl, rfl, rfl⟩
  | cons b blocks ih =>
      have rest := ih (h.terminate b)
      exact ⟨rest.routines, rest.classes, rest.objects⟩

theorem signalReturn_sameCode (h : Heap) (s : ScopeId) (v : Value) :
    h.SameCode (h.signalReturn s v).2 := by
  unfold signalReturn
  split
  · exact ⟨rfl, rfl, rfl⟩
  · rename_i blocks b _
    have marked := foldl_terminate_sameCode blocks h
    exact ⟨marked.routines, marked.classes, marked.objects⟩

theorem Run.carries (run : Run P own h h') (carries : h.Carries P) : h'.Carries P := by
  induction run with
  | aside scopes code => exact code.carries carries
  | trans _ _ first second => exact second (first carries)
  | bind name v => exact ⟨carries.routines, carries.classes⟩
  | assign name v permitted => exact ⟨carries.routines, carries.classes⟩
  | setField v found => exact ⟨carries.routines, carries.classes⟩
  | closure decl permitted =>
      refine ⟨fun r mem => ?_, carries.classes⟩
      rcases Array.mem_push.mp mem with old | rfl
      · exact carries.routines r old
      · exact permitted
  | classCell decl parent permitted found =>
      refine ⟨carries.routines, fun c mem => ?_⟩
      rcases Array.mem_push.mp mem with old | rfl
      · exact carries.classes c old
      · exact permitted
  | layer base found bound => exact ⟨carries.routines, carries.classes⟩
  | signal v => exact (signalReturn_sameCode _ _ v).carries carries
  | take => exact ⟨carries.routines, carries.classes⟩
  | enter boundary lives inner ih => exact ih ⟨carries.routines, carries.classes⟩

/-! ### Code is only added -/

/-- Routines, classes and objects are where they were, with others after them. -/
structure Extends (h h' : Heap) : Prop where
  routines : ∀ {i : RoutineId} {r : Routine}, h.routines[i]? = some r → h'.routines[i]? = some r
  classes : ∀ {i : ClassId} {c : ClassCell}, h.classes[i]? = some c → h'.classes[i]? = some c
  objects : ∀ {i : ObjectId} {o : Object}, h.objects[i]? = some o → h'.objects[i]? = some o

theorem SameCode.extends (same : h.SameCode h') : h.Extends h' :=
  ⟨by rw [same.routines]; exact id, by rw [same.classes]; exact id, by rw [same.objects]; exact id⟩

theorem Extends.trans {h'' : Heap} (first : h.Extends h') (second : h'.Extends h'') :
    h.Extends h'' :=
  ⟨second.routines ∘ first.routines, second.classes ∘ first.classes,
    second.objects ∘ first.objects⟩

theorem getElem?_push_of_eq_some {α : Type} {xs : Array α} {i : Nat} {x : α} (y : α)
    (found : xs[i]? = some x) : (xs.push y)[i]? = some x := by
  obtain ⟨bound, -⟩ := Array.getElem?_eq_some_iff.mp found
  rw [Array.getElem?_push, if_neg (Nat.ne_of_lt bound), found]

theorem Run.extends (run : Run P own h h') : h.Extends h' := by
  induction run with
  | aside scopes code => exact code.extends
  | trans _ _ first second => exact first.trans second
  | bind name v => exact ⟨id, id, id⟩
  | assign name v permitted => exact ⟨id, id, id⟩
  | setField v found => exact ⟨id, id, id⟩
  | closure decl permitted => exact ⟨getElem?_push_of_eq_some _, id, id⟩
  | classCell decl parent permitted found => exact ⟨id, getElem?_push_of_eq_some _, id⟩
  | layer base found bound => exact ⟨id, id, getElem?_push_of_eq_some _⟩
  | signal v => exact (signalReturn_sameCode _ _ v).extends
  | take => exact ⟨id, id, id⟩
  | enter boundary lives inner ih => exact ⟨ih.routines, ih.classes, ih.objects⟩

/-! ### Scopes and names are only added -/

theorem Run.size_le (run : Run P own h h') : h.scopes.size ≤ h'.scopes.size := by
  induction run with
  | aside scopes code => exact Nat.le_of_eq (congrArg Array.size scopes).symm
  | trans _ _ first second => exact Nat.le_trans first second
  | bind name v => simp
  | assign name v permitted => simp [Heap.assign]
  | setField v found => simp
  | closure decl permitted => exact Nat.le_refl _
  | classCell decl parent permitted found => exact Nat.le_refl _
  | layer base found bound => exact Nat.le_refl _
  | signal v => simp
  | take => simp [Heap.takeReturned]
  | enter boundary lives inner ih =>
      rw [size_newScope] at ih
      omega

theorem setLocal_names_grow (h : Heap) (t : ScopeId) (name : String) (v : Value) (s : ScopeId) :
    h.localNames s <+: (h.setLocal t name v).localNames s := by
  by_cases same : t = s
  · subst same
    by_cases valid : t < h.scopes.size
    · rw [localNames_setLocal_self name v valid]
      split
      · exact List.prefix_rfl
      · exact List.prefix_append ..
    · rw [localNames_eq_nil (Nat.le_of_not_lt valid)]
      exact List.nil_prefix
  · simp [localNames_setLocal_of_ne name v same]

/-- No name is removed or moved: each scope's list of names only grows at its
end. -/
theorem Run.names_grow (run : Run P own h h') (t : ScopeId) :
    h.localNames t <+: h'.localNames t := by
  induction run with
  | aside scopes code => simp only [localNames, scope?, scopes, List.prefix_rfl]
  | trans _ _ first second => exact first.trans second
  | bind name v => exact setLocal_names_grow ..
  | assign name v permitted => exact setLocal_names_grow ..
  | setField v found => exact setLocal_names_grow ..
  | closure decl permitted => exact List.prefix_rfl
  | classCell decl parent permitted found => exact List.prefix_rfl
  | layer base found bound => exact List.prefix_rfl
  | signal v => simp [localNames_signalReturn]
  | take => simp [localNames_takeReturned]
  | @enter own h h' around boundary lives inner ih =>
      by_cases valid : t < h.scopes.size
      · rwa [localNames_newScope_of_lt _ valid] at ih
      · rw [localNames_eq_nil (Nat.le_of_not_lt valid)]
        exact List.nil_prefix

theorem Run.hasLocal (run : Run P own h h') {t : ScopeId} {name : String}
    (bound : h.hasLocal t name = true) : h'.hasLocal t name = true :=
  (hasLocal_iff name).mpr ((run.names_grow t).subset ((hasLocal_iff name).mp bound))

/-! ### Building objects -/

theorem declare_run (s : ScopeId) (name : String) (v : Value) (h : Heap) :
    Run P (some s) h (h.declare s name v).2 := by
  unfold declare
  split
  · exact .refl
  · exact .bind name v

theorem closure_run (s : ScopeId) {decl : RoutineDecl} (permitted : Permits P decl.features)
    (h : Heap) : Run P (some s) h (h.closure decl s).2 :=
  .closure decl permitted

/-- A name is declared only when it is bound afterwards. -/
theorem hasLocal_of_declare {name : String} {v : Value} (valid : s < h.scopes.size)
    (declared : h.declare s name v = (.ok (), h')) : h'.hasLocal s name = true := by
  unfold declare at declared
  split at declared
  · cases declared
  · cases declared
    exact hasLocal_setLocal_self name v valid

/-- The value that a member has in a new layer, and the heap that holds it. -/
def memberValue (s : ScopeId) (h : Heap) : Member → Value × Heap
  | .field .. => (.null, h)
  | .method _ _ decl => h.closure decl s

theorem bindMembers_cons (s : ScopeId) (m : Member) (rest : List Member) (h : Heap) :
    bindMembers s (m :: rest) h =
      match (memberValue s h m).2.declare s m.name (memberValue s h m).1 with
      | (.ok (), h') => bindMembers s rest h'
      | failure => failure := by
  cases m <;> rfl

theorem memberValue_run (s : ScopeId) {m : Member} (permitted : Permits P m.features) (h : Heap) :
    Run P (some s) h (memberValue s h m).2 := by
  cases m with
  | field visibility span name => exact .refl
  | method visibility span decl =>
      exact closure_run s (by simpa [Member.features] using permitted) h

theorem bindMembers_run (s : ScopeId) {members : List Member}
    (permitted : Permits P (Member.featuresAll members)) (h : Heap) :
    Run P (some s) h (bindMembers s members h).2 := by
  induction members generalizing h with
  | nil => exact .refl
  | cons m rest ih =>
      simp only [Member.featuresAll, permits_append] at permitted
      have made := memberValue_run s permitted.1 h
      have first := made.trans
        (declare_run s m.name (memberValue s h m).1 (memberValue s h m).2)
      rw [bindMembers_cons]
      split
      · rename_i h' declared
        rw [declared] at first
        exact first.trans (ih permitted.2 h')
      · exact first

theorem not_hasLocal_of_declare {name : String} {v : Value}
    (declared : h.declare s name v = (.ok (), h')) : h.hasLocal s name = false := by
  unfold declare at declared
  split at declared
  · cases declared
  · rename_i free
    exact Bool.eq_false_iff.mpr free

/-- The first member is bound under a name that was free, and then the others. -/
theorem bindMembers_step {m : Member} {rest : List Member} (valid : s < h.scopes.size)
    (bound : bindMembers s (m :: rest) h = (.ok (), h')) :
    ∃ h₁, Run (fun _ => True) (some s) h h₁ ∧ h.hasLocal s m.name = false ∧
      h₁.hasLocal s m.name = true ∧ bindMembers s rest h₁ = (.ok (), h') := by
  rw [bindMembers_cons] at bound
  split at bound
  · rename_i h₁ declared
    have made : Run (fun _ => True) (some s) h (memberValue s h m).2 :=
      memberValue_run s (fun _ _ => trivial) h
    have named : Run (fun _ => True) (some s) (memberValue s h m).2 h₁ := by
      have run := declare_run (P := fun _ => True) s m.name (memberValue s h m).1
        (memberValue s h m).2
      rwa [declared] at run
    have free : h.hasLocal s m.name = false := by
      have absent := not_hasLocal_of_declare declared
      cases m <;> exact absent
    have here := hasLocal_of_declare (Nat.lt_of_lt_of_le valid made.size_le) declared
    exact ⟨h₁, made.trans named, free, here, bound⟩
  · rename_i failed
    exact absurd bound (failed h')

/-- The members of a layer are all bound in it. -/
theorem hasLocal_of_bindMembers {members : List Member} (valid : s < h.scopes.size)
    (bound : bindMembers s members h = (.ok (), h')) :
    ∀ m ∈ members, h'.hasLocal s m.name = true := by
  induction members generalizing h with
  | nil => exact fun _ mem => nomatch mem
  | cons m rest ih =>
      obtain ⟨h₁, first, -, here, others⟩ := bindMembers_step valid bound
      have rests : Run (fun _ => True) (some s) h₁ h' := by
        have allowed : Permits (fun _ => True) (Member.featuresAll rest) := fun _ _ => trivial
        have run := bindMembers_run s allowed h₁
        rwa [others] at run
      intro m' mem
      rcases List.mem_cons.mp mem with rfl | mem
      · exact rests.hasLocal here
      · exact ih (Nat.lt_of_lt_of_le valid first.size_le) others m' mem

/-- The second half of a layer: its members, and the object. -/
def fillLayer (c : ClassId) (decl : ClassDecl) (base : Option ObjectId) (s : ScopeId) (h : Heap) :
    Except Cause ObjectId × Heap :=
  match bindMembers s decl.members h with
  | (.error cause, h) => (.error cause, h)
  | (.ok (), h) => (.ok h.objects.size, (h.newObject ⟨c, s, base⟩).2)

theorem newLayer_none (c : ClassId) (decl : ClassDecl) (around : ScopeId) (h : Heap) :
    newLayer c decl around none h =
      fillLayer c decl none h.scopes.size (h.newBlock around).2 :=
  rfl

theorem newLayer_some (c : ClassId) (decl : ClassDecl) (around : ScopeId) (o : ObjectId) (h : Heap) :
    newLayer c decl around (some o) h =
      match (h.newBlock around).2.declare h.scopes.size superName (.object o) with
      | (.error cause, h') => (.error cause, h')
      | (.ok (), h') => fillLayer c decl (some o) h.scopes.size h' := by
  have entered : (h.newBlock around).1 = h.scopes.size := rfl
  simp only [newLayer, entered]
  obtain ⟨verdict, h'⟩ := (h.newBlock around).2.declare h.scopes.size superName (.object o)
  cases verdict <;> rfl

theorem fillLayer_run {c : ClassId} {cell : ClassCell} (base : Option ObjectId)
    (valid : s < h.scopes.size) (found : h.classes[c]? = some cell)
    (permitted : Permits P (Member.featuresAll cell.decl.members)) :
    Run P (some s) h (fillLayer c cell.decl base s h).2 := by
  have binding := bindMembers_run s permitted h
  unfold fillLayer
  split
  · rename_i cause h' failed
    rwa [failed] at binding
  · rename_i h' bound
    rw [bound] at binding
    refine binding.trans (.layer base (binding.extends.classes found) ?_)
    exact hasLocal_of_bindMembers valid bound

theorem newLayer_run {c : ClassId} {cell : ClassCell} {around : ScopeId} (base : Option ObjectId)
    (found : h.classes[c]? = some cell) (permitted : Permits P cell.decl.features)
    (lives : h.Anchors around) :
    Run P own h (newLayer c cell.decl around base h).2 := by
  refine .enter false (.inr lives) ?_
  have valid : h.scopes.size < (h.newBlock around).2.scopes.size := by
    simp only [newBlock, size_newScope, Nat.lt_succ_self]
  have inMembers : Permits P (Member.featuresAll cell.decl.members) := by
    obtain ⟨⟨name, parent, members, span⟩, scope, parentClass⟩ := cell
    simpa [ClassDecl.features] using permitted
  cases base with
  | none => exact fillLayer_run none valid found inMembers
  | some o =>
      have first := declare_run (P := P) h.scopes.size superName (.object o) (h.newBlock around).2
      rw [newLayer_some]
      split
      · rename_i cause h' failed
        rwa [failed] at first
      · rename_i h' bound
        rw [bound] at first
        refine first.trans (fillLayer_run (some o) ?_ (first.extends.classes found) inMembers)
        exact Nat.lt_of_lt_of_le valid first.size_le

/-- A layer that is built is the last object. -/
theorem objects_of_newLayer {c : ClassId} {decl : ClassDecl} {around : ScopeId}
    {base : Option ObjectId} {o : ObjectId} (built : newLayer c decl around base h = (.ok o, h')) :
    h'.objects[o]? = some ⟨c, h.scopes.size, base⟩ := by
  have filled : ∀ {h₁ : Heap}, fillLayer c decl base h.scopes.size h₁ = (.ok o, h') →
      h'.objects[o]? = some ⟨c, h.scopes.size, base⟩ := by
    intro h₁ built
    unfold fillLayer at built
    split at built
    · cases built
    · cases built
      exact Array.getElem?_push_size
  cases base with
  | none => exact filled built
  | some b =>
      rw [newLayer_some] at built
      split at built
      · cases built
      · exact filled built

theorem anchors_objectScope {o : ObjectId} {cell : Object} (found : h.objects[o]? = some cell) :
    h.Anchors (h.objectScope o) := by
  refine .object cell (Array.mem_of_getElem? found) ?_
  simp only [objectScope, found]

theorem buildFrom_run (steps : Nat) (c : ClassId) (carries : h.Carries P) :
    Run P own h (buildFrom steps c h).2 ∧
      ∀ {o : ObjectId} {h' : Heap}, buildFrom steps c h = (.ok o, h') → h'.Anchors (h'.objectScope o) := by
  induction steps generalizing c with
  | zero => exact ⟨.refl, fun built => nomatch built⟩
  | succ steps ih =>
      unfold buildFrom
      split
      · exact ⟨.refl, fun built => nomatch built⟩
      · rename_i cell found
        have permitted := carries.classes cell (Array.mem_of_getElem? found)
        split
        · have declared : h.Anchors cell.scope :=
            .classCell cell (Array.mem_of_getElem? found) rfl
          exact ⟨newLayer_run none found permitted declared,
            fun built => anchors_objectScope (objects_of_newLayer built)⟩
        · rename_i p inherits
          obtain ⟨run, anchored⟩ := ih p
          split
          · rename_i cause h' failed
            rw [failed] at run
            exact ⟨run, fun built => nomatch built⟩
          · rename_i base h' built
            rw [built] at run
            refine ⟨run.trans (newLayer_run (some base) (run.extends.classes found) permitted
              (anchored built)), ?_⟩
            exact fun built => anchors_objectScope (objects_of_newLayer built)

theorem setMember_run (o : ObjectId) (name : String) (v : Value) (h : Heap) :
    Run P own h (h.setMember o name v).2 := by
  unfold setMember
  split
  · exact .refl
  · rename_i layer member found
    split
    · exact .refl
    · split
      · exact .refl
      · exact .setField v found

end Heap

end Pseudocode

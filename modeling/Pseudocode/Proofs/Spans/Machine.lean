import Pseudocode.Proofs.Effects
import Pseudocode.Proofs.Spans.Syntax

/-!
Machines that agree up to the spans of what was declared on them.

Routines and classes are the only cells that hold syntax. Two heaps agree when their
declarations do and all other cells are the same. What is done to scopes does not
look at declarations at all; what is done to objects looks at the names, kinds and
visibilities in them, never at a span.
-/

namespace Pseudocode

variable {ρ : Span → Span → Prop}

/-- A routine on either side: its declarations agree. -/
structure Routine.Agree (ρ : Span → Span → Prop) (r r' : Routine) : Prop where
  decl : r.decl.Agree ρ r'.decl
  scope : r'.scope = r.scope

structure ClassCell.Agree (ρ : Span → Span → Prop) (c c' : ClassCell) : Prop where
  decl : c.decl.Agree ρ c'.decl
  scope : c'.scope = c.scope
  parent : c'.parent = c.parent

/-- The heap with other routines and classes. -/
def Heap.withCode (h : Heap) (routines : Array Routine) (classes : Array ClassCell) : Heap :=
  { h with routines := routines, classes := classes }

/-- Arrays of the same size whose cells are related. -/
def Cells {α : Type} (R : α → α → Prop) (xs xs' : Array α) : Prop :=
  List.Forall₂ R xs.toList xs'.toList

inductive Heap.Agree (ρ : Span → Span → Prop) : Heap → Heap → Prop where
  | code (h : Heap) {routines routines' : Array Routine} {classes classes' : Array ClassCell}
      (bodies : Cells (Routine.Agree ρ) routines routines')
      (members : Cells (ClassCell.Agree ρ) classes classes') :
      Heap.Agree ρ (h.withCode routines classes) (h.withCode routines' classes')

structure Machine.Agree (ρ : Span → Span → Prop) (m m' : Machine) : Prop where
  heap : m.heap.Agree ρ m'.heap
  world : m'.world = m.world
  depth : m'.depth = m.depth

namespace Cells

variable {α : Type} {R : α → α → Prop} {xs xs' : Array α}

theorem size (cells : Cells R xs xs') : xs'.size = xs.size := by
  simpa using cells.length_eq.symm

theorem push (cells : Cells R xs xs') {x x' : α} (related : R x x') : Cells R (xs.push x) (xs'.push x') := by
  unfold Cells
  rw [Array.toList_push, Array.toList_push]
  exact List.rel_append cells (.cons related .nil)

theorem getElem? (cells : Cells R xs xs') (i : Nat) : Option.Rel R xs[i]? xs'[i]? := by
  rw [← Array.getElem?_toList, ← Array.getElem?_toList]
  unfold Cells at cells
  generalize xs.toList = l at cells
  generalize xs'.toList = l' at cells
  induction cells generalizing i with
  | nil => exact .none
  | cons first _ ih =>
      cases i with
      | zero => exact .some first
      | succ i => exact ih i

end Cells

/-! ### Scopes -/

namespace Heap

variable (h : Heap) (routines : Array Routine) (classes : Array ClassCell)

/-- A change of the heap that has nothing to do with declarations. -/
def Codeless {α : Type} (f : Heap → α × Heap) : Prop :=
  ∀ h routines classes, f (h.withCode routines classes) = ((f h).1, (f h).2.withCode routines classes)

theorem lookupFrom_withCode (name : String) (steps : Nat) (s : ScopeId) :
    (h.withCode routines classes).lookupFrom name steps s = h.lookupFrom name steps s := by
  apply lookupFrom_congr
  · exact fun _ => rfl
  · exact fun _ => rfl

theorem lookup_withCode (s : ScopeId) (name : String) :
    (h.withCode routines classes).lookup s name = h.lookup s name := by
  unfold lookup lookup?
  rw [lookupFrom_withCode]

theorem resolveFrom_withCode (name : String) (steps : Nat) (s : ScopeId) :
    (h.withCode routines classes).resolveFrom name steps s = h.resolveFrom name steps s := by
  apply resolveFrom_congr
  · exact fun _ => rfl
  · exact fun _ => rfl

theorem boundaryFrom_withCode (steps : Nat) (s : ScopeId) :
    (h.withCode routines classes).boundaryFrom steps s = h.boundaryFrom steps s := by
  induction steps generalizing s with
  | zero => rfl
  | succ steps ih =>
      simp only [boundaryFrom, ih]
      rfl

theorem foldl_terminate_withCode (blocks : List ScopeId) :
    blocks.foldl terminate (h.withCode routines classes) =
      (blocks.foldl terminate h).withCode routines classes := by
  induction blocks generalizing h with
  | nil => rfl
  | cons s blocks ih => exact ih (h.terminate s)

theorem declare_codeless (s : ScopeId) (name : String) (v : Value) :
    Codeless fun h => h.declare s name v := by
  intro h routines classes
  have same : (h.withCode routines classes).hasLocal s name = h.hasLocal s name := rfl
  simp only [declare, same]
  split <;> rfl

theorem assign_codeless (s : ScopeId) (name : String) (v : Value) :
    Codeless fun h => ((), h.assign s name v) := by
  intro h routines classes
  simp only [assign, resolve?, resolveFrom_withCode]
  rfl

theorem storeElement_codeless (a : ArrayId) (i : Int64) (v : Value) :
    Codeless fun h => h.storeElement a i v := by
  intro h routines classes
  have same : (h.withCode routines classes).items a = h.items a := rfl
  simp only [storeElement, same]
  split <;> rfl

theorem assignIndexed_codeless (s : ScopeId) (name : String) (i : Int64) (v : Value) :
    Codeless fun h => h.assignIndexed s name i v := by
  intro h routines classes
  simp only [assignIndexed, lookup_withCode]
  split
  · exact storeElement_codeless _ i v h routines classes
  · rfl
  · rfl

theorem signalReturn_codeless (s : ScopeId) (v : Value) : Codeless fun h => h.signalReturn s v := by
  intro h routines classes
  simp only [signalReturn, boundaryFrom_withCode]
  split
  · rfl
  · rw [foldl_terminate_withCode]
    rfl

end Heap

/-! ### Classes and objects -/

namespace ClassDecl.Agree

variable {c c' : ClassDecl}

theorem name (agree : c.Agree ρ c') : c'.name = c.name := by
  cases agree
  rfl

theorem span (agree : c.Agree ρ c') : ρ c.span c'.span := by
  cases agree
  assumption

theorem members (agree : c.Agree ρ c') : List.Forall₂ (Member.Agree ρ) c.members c'.members := by
  cases agree
  assumption

theorem member? (agree : c.Agree ρ c') (name : String) :
    Option.Rel (Member.Agree ρ) (c.member? name) (c'.member? name) := by
  have same := agree.members
  unfold ClassDecl.member?
  generalize c.members = ms, c'.members = ms' at same
  induction same with
  | nil => exact .none
  | cons first _ ih =>
      rw [List.find?_cons, List.find?_cons, first.name]
      split
      · exact .some first
      · exact ih

end ClassDecl.Agree

namespace RoutineDecl.Agree

variable {decl decl' : RoutineDecl}

theorem name (agree : decl.Agree ρ decl') : decl'.name = decl.name := by
  cases agree
  rfl

theorem kind (agree : decl.Agree ρ decl') : decl'.kind = decl.kind := by
  cases agree
  rfl

theorem span (agree : decl.Agree ρ decl') : ρ decl.span decl'.span := by
  cases agree
  assumption

end RoutineDecl.Agree

namespace Heap.Agree

variable {h h' : Heap} (agree : h.Agree ρ h')
include agree

theorem routine (id : RoutineId) : Option.Rel (Routine.Agree ρ) h.routines[id]? h'.routines[id]? := by
  cases agree with
  | code _ bodies _ => exact bodies.getElem? id

theorem classCell (id : ClassId) : Option.Rel (ClassCell.Agree ρ) h.classes[id]? h'.classes[id]? := by
  cases agree with
  | code _ _ members => exact members.getElem? id

theorem objects : h'.objects = h.objects := by
  cases agree
  rfl

theorem routineName (id : RoutineId) : h'.routineName id = h.routineName id := by
  unfold Heap.routineName
  generalize h.routines[id]? = r, h'.routines[id]? = r', agree.routine id = cell
  cases cell with
  | none => rfl
  | some same => exact same.decl.name

theorem className (id : ClassId) : h'.className id = h.className id := by
  unfold Heap.className
  generalize h.classes[id]? = c, h'.classes[id]? = c', agree.classCell id = cell
  cases cell with
  | none => rfl
  | some same => exact same.decl.name

theorem objectClass (id : ObjectId) : h'.objectClass id = h.objectClass id := by
  unfold Heap.objectClass
  rw [agree.objects]
  split
  · exact agree.className _
  · rfl

/-- Values are written as the same texts, since these name routines and classes only. -/
theorem resembles : h.Resembles h' := by
  have text : ∀ v, h'.scalarText v = h.scalarText v := by
    intro v
    cases v with
    | function id => exact congrArg (fun name => "<function " ++ name ++ ">") (agree.routineName id)
    | procedure id => exact congrArg (fun name => "<procedure " ++ name ++ ">") (agree.routineName id)
    | classRef id => exact congrArg (fun name => "<class " ++ name ++ ">") (agree.className id)
    | object id => exact congrArg (fun name => "<" ++ name ++ " instance>") (agree.objectClass id)
    | _ => rfl
  cases agree
  exact ⟨rfl, rfl, rfl, text⟩

end Heap.Agree

/-! ### Changes of the heap -/

/-- The same result and heaps that agree. -/
inductive Twins {α : Type} (ρ : Span → Span → Prop) : α × Heap → α × Heap → Prop where
  | same (a : α) {h h' : Heap} (agree : h.Agree ρ h') : Twins ρ (a, h) (a, h')

theorem Heap.Codeless.twins {α : Type} {f : Heap → α × Heap} (codeless : Codeless f) {h h' : Heap}
    (agree : h.Agree ρ h') : Twins ρ (f h) (f h') := by
  cases agree with
  | code h bodies members =>
      rw [codeless h, codeless h]
      exact .same _ (.code _ bodies members)

namespace Heap.Agree

variable {h h' : Heap} (agree : h.Agree ρ h')
include agree

theorem lookup (s : ScopeId) (name : String) : h'.lookup s name = h.lookup s name := by
  cases agree
  rw [lookup_withCode, lookup_withCode]

theorem scopes : h'.scopes = h.scopes := by
  cases agree
  rfl

theorem closure {decl decl' : RoutineDecl} (same : decl.Agree ρ decl') (s : ScopeId) :
    Twins ρ (h.closure decl s) (h'.closure decl' s) := by
  have cell : Routine.Agree ρ ⟨decl, s⟩ ⟨decl', s⟩ := ⟨same, rfl⟩
  cases agree with
  | code h bodies members =>
      unfold Heap.closure Heap.newRoutine
      dsimp only [withCode]
      rw [bodies.size, same.kind]
      exact .same _ (.code h (bodies.push cell) members)

theorem newClass {c c' : ClassCell} (same : c.Agree ρ c') : Twins ρ (h.newClass c) (h'.newClass c') := by
  cases agree with
  | code h bodies members =>
      unfold Heap.newClass
      dsimp only [withCode]
      rw [members.size]
      exact .same _ (.code h bodies (members.push same))

theorem newObject (o : Object) : ((h.newObject o).2).Agree ρ (h'.newObject o).2 := by
  cases agree with
  | code h bodies members => exact .code (h.newObject o).2 bodies members

theorem memberValue (s : ScopeId) {m m' : Member} (same : m.Agree ρ m') :
    Twins ρ (Heap.memberValue s h m) (Heap.memberValue s h' m') := by
  cases same with
  | field => exact .same _ agree
  | method _ _ _ decl => exact agree.closure decl s

omit agree in
theorem bindMembers (s : ScopeId) {ms ms' : List Member} (same : List.Forall₂ (Member.Agree ρ) ms ms')
    {h h' : Heap} (agree : h.Agree ρ h') :
    Twins ρ (Heap.bindMembers s ms h) (Heap.bindMembers s ms' h') := by
  induction same generalizing h h' with
  | nil => exact .same _ agree
  | @cons m m' _ _ first _ ih =>
      have made := agree.memberValue s first
      rw [bindMembers_cons, bindMembers_cons, first.name]
      generalize Heap.memberValue s h m = x, Heap.memberValue s h' m' = x' at made
      cases made with
      | @same v h₁ h₁' agree₁ =>
          have declared := (declare_codeless s m.name v).twins agree₁
          dsimp only at declared ⊢
          generalize h₁.declare s m.name v = y, h₁'.declare s m.name v = y' at declared
          cases declared with
          | same verdict agree₂ =>
              cases verdict with
              | ok _ => exact ih agree₂
              | error cause => exact .same _ agree₂

theorem fillLayer (c : ClassId) {decl decl' : ClassDecl} (same : decl.Agree ρ decl')
    (base : Option ObjectId) (s : ScopeId) :
    Twins ρ (Heap.fillLayer c decl base s h) (Heap.fillLayer c decl' base s h') := by
  have bound := bindMembers s same.members agree
  unfold Heap.fillLayer
  generalize Heap.bindMembers s decl.members h = x, Heap.bindMembers s decl'.members h' = x' at bound
  cases bound with
  | same verdict agree₁ =>
      cases verdict with
      | ok _ =>
          dsimp only
          rw [agree₁.objects]
          exact .same _ (agree₁.newObject ⟨c, s, base⟩)
      | error cause => exact .same _ agree₁

theorem newScope (scope : Scope) : ((h.newScope scope).2).Agree ρ (h'.newScope scope).2 := by
  cases agree with
  | code h bodies members => exact .code (h.newScope scope).2 bodies members

theorem setLocal (s : ScopeId) (name : String) (v : Value) :
    (h.setLocal s name v).Agree ρ (h'.setLocal s name v) := by
  cases agree with
  | code h bodies members => exact .code (h.setLocal s name v) bodies members

theorem patch (arrays : Array (Array Value)) (readers : Array FileReader) (writers : Array FileWriter) :
    (h.patch arrays readers writers).Agree ρ (h'.patch arrays readers writers) := by
  cases agree with
  | code h bodies members => exact .code (h.patch arrays readers writers) bodies members

theorem newLayer (c : ClassId) {decl decl' : ClassDecl} (same : decl.Agree ρ decl')
    (around : ScopeId) (base : Option ObjectId) :
    Twins ρ (Heap.newLayer c decl around base h) (Heap.newLayer c decl' around base h') := by
  have entered : ((h.newBlock around).2).Agree ρ (h'.newBlock around).2 := agree.newScope _
  cases base with
  | none =>
      rw [newLayer_none, newLayer_none, agree.scopes]
      exact entered.fillLayer c same none _
  | some o =>
      have declared := (declare_codeless h.scopes.size superName (.object o)).twins entered
      rw [newLayer_some, newLayer_some, agree.scopes]
      generalize (h.newBlock around).2.declare h.scopes.size superName (.object o) = y,
        (h'.newBlock around).2.declare h.scopes.size superName (.object o) = y' at declared
      cases declared with
      | same verdict agree₁ =>
          cases verdict with
          | ok _ => exact agree₁.fillLayer c same (some o) _
          | error cause => exact .same _ agree₁

theorem objectScope (o : ObjectId) : h'.objectScope o = h.objectScope o := by
  unfold Heap.objectScope
  rw [agree.objects]

omit agree in
theorem buildFrom (steps : Nat) (c : ClassId) {h h' : Heap} (agree : h.Agree ρ h') :
    Twins ρ (Heap.buildFrom steps c h) (Heap.buildFrom steps c h') := by
  induction steps generalizing c h h' with
  | zero => exact .same _ agree
  | succ steps ih =>
      have cell := agree.classCell c
      unfold Heap.buildFrom
      generalize h.classes[c]? = x, h'.classes[c]? = x' at cell
      cases cell with
      | none => exact .same _ agree
      | @some cell cell' same =>
          obtain ⟨decl, scope, parent⟩ := same
          dsimp only
          rw [parent, scope]
          cases cell.parent with
          | none => exact agree.newLayer c decl _ none
          | some p =>
              have built := ih p agree
              dsimp only
              generalize Heap.buildFrom steps p h = y, Heap.buildFrom steps p h' = y' at built
              cases built with
              | same verdict agree₁ =>
                  cases verdict with
                  | error cause => exact .same _ agree₁
                  | ok base =>
                      dsimp only
                      rw [agree₁.objectScope]
                      exact agree₁.newLayer c decl _ (some base)

/-- The layer that has a member, and the declaration of the member. -/
theorem layer? (o : ObjectId) (name : String) :
    Option.Rel (fun x x' => x'.1 = x.1 ∧ x.2.Agree ρ x'.2) (h.layer? o name) (h'.layer? o name) := by
  unfold Heap.layer?
  generalize o + 1 = steps
  induction steps generalizing o with
  | zero => exact .none
  | succ steps ih =>
      unfold Heap.layerFrom
      rw [agree.objects]
      split
      · exact .none
      · rename_i cell _
        have own : Option.Rel (Member.Agree ρ) (h.ownMember? cell name) (h'.ownMember? cell name) := by
          have found := agree.classCell cell.classId
          unfold Heap.ownMember?
          generalize h.classes[cell.classId]? = x, h'.classes[cell.classId]? = x' at found
          cases found with
          | none => exact .none
          | some same => exact same.decl.member? name
        generalize h.ownMember? cell name = x, h'.ownMember? cell name = x' at own
        cases own with
        | some same => exact .some ⟨rfl, same⟩
        | none =>
            dsimp only
            cases cell.base with
            | none => exact .none
            | some b => exact ih b

theorem getMember (o : ObjectId) (name : String) : h'.getMember o name = h.getMember o name := by
  have found := agree.layer? o name
  unfold Heap.getMember
  generalize h.layer? o name = x, h'.layer? o name = x' at found
  cases found with
  | none => rw [agree.objectClass]
  | @some x x' same =>
      obtain ⟨layer, m⟩ := x
      obtain ⟨layer', m'⟩ := x'
      obtain ⟨rfl, member⟩ : layer' = layer ∧ m.Agree ρ m' := same
      dsimp only
      rw [member.visibility, agree.className, agree.lookup]

theorem setMember (o : ObjectId) (name : String) (v : Value) :
    Twins ρ (h.setMember o name v) (h'.setMember o name v) := by
  have found := agree.layer? o name
  unfold Heap.setMember
  generalize h.layer? o name = x, h'.layer? o name = x' at found
  cases found with
  | none =>
      dsimp only
      rw [agree.objectClass]
      exact .same _ agree
  | @some x x' same =>
      obtain ⟨layer, m⟩ := x
      obtain ⟨layer', m'⟩ := x'
      obtain ⟨rfl, member⟩ : layer' = layer ∧ m.Agree ρ m' := same
      dsimp only
      rw [member.visibility, member.isMethod, agree.className]
      split
      · exact .same _ agree
      · split
        · exact .same _ agree
        · exact .same _ (agree.setLocal _ name v)

end Heap.Agree

theorem Machine.Agree.aside : Aside (Machine.Agree ρ) where
  alike related := related.heap.resembles
  world related := related.world
  patch related arrays readers writers world := by
    obtain ⟨heap, same, depth⟩ := related
    exact ⟨heap.patch arrays readers writers, rfl, depth⟩

end Pseudocode

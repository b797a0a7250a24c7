import Pseudocode.Proofs.ScopeTree.Chain

/-!
Trees of scopes, built step by step.

A `ScopeStep` is any operation on scopes, or the making of an array. What it can do is
said once (`ScopeStep.Does`): it adds a scope without bindings, or it binds one name in
one scope, or it leaves all bindings and the places of all scopes as they are. In every
`ScopeTree` scopes are younger than those around them (`ScopeTree.ordered`).
-/

namespace Pseudocode

inductive ScopeStep where
  | newRoot
  | newBlock (s : ScopeId)
  | newCall (s : ScopeId)
  | newArray (items : Array Value)
  | declare (s : ScopeId) (name : String) (v : Value)
  | setLocal (s : ScopeId) (name : String) (v : Value)
  | assign (s : ScopeId) (name : String) (v : Value)
  | assignIndexed (s : ScopeId) (name : String) (index : Int64) (v : Value)
  | signalReturn (s : ScopeId) (v : Value)
  | takeReturned (s : ScopeId)

namespace ScopeStep

/-- The scope that the step is taken in. -/
def scope? : ScopeStep → Option ScopeId
  | newRoot | newArray _ => none
  | newBlock s | newCall s | declare s .. | setLocal s .. | assign s .. | assignIndexed s ..
  | signalReturn s _ | takeReturned s => some s

/-- The heap after the step, also when it failed. -/
def apply (h : Heap) : ScopeStep → Heap
  | newRoot => h.newRoot.2
  | newBlock s => (h.newBlock s).2
  | newCall s => (h.newCall s).2
  | newArray items => (h.newArray items).2
  | declare s name v => (h.declare s name v).2
  | setLocal s name v => h.setLocal s name v
  | assign s name v => h.assign s name v
  | assignIndexed s name index v => (h.assignIndexed s name index v).2
  | signalReturn s v => (h.signalReturn s v).2
  | takeReturned s => (h.takeReturned s).2

/-- The binding that the step writes: in which scope, under which name, with which value.
The elements of an array are not bindings: what a name stands for is the array. -/
def writes (h : Heap) : ScopeStep → Option (ScopeId × String × Value)
  | declare s name v => if h.hasLocal s name then none else some (s, name, v)
  | setLocal s name v => some (s, name, v)
  | assign s name v => some ((h.resolve? s name).getD s, name, v)
  | _ => none

/-- The scope of the step exists. -/
def Fits (h : Heap) (step : ScopeStep) : Prop := ∀ s ∈ step.scope?, s < h.scopes.size

end ScopeStep

/-- What can be built from nothing. -/
inductive ScopeTree : Heap → Prop where
  | empty : ScopeTree {}
  | step {h : Heap} (tree : ScopeTree h) (step : ScopeStep) (fits : step.Fits h) :
      ScopeTree (step.apply h)

variable {h h' : Heap}

/-- All scopes lie where they did and bind what they did. -/
structure Heap.Undisturbed (h h' : Heap) : Prop where
  places : ∀ t, h'.place? t = h.place? t
  locals : ∀ t name, h'.local? t name = h.local? t name

theorem Heap.undisturbed_of_scopes_eq (same : h'.scopes = h.scopes) : h.Undisturbed h' where
  places t := by simp only [place?, scope?, same]
  locals t name := by simp only [local?, scope?, same]

namespace ScopeStep

/-- All that a step can do. -/
inductive Does (h : Heap) (step : ScopeStep) : Heap → Prop where
  | adds {scope : Scope} (empty : scope.bindings = []) (around : scope.parent = step.scope?)
      (idle : step.writes h = none) : Does h step (h.newScope scope).2
  | writes {t : ScopeId} {name : String} {v : Value} (binding : step.writes h = some (t, name, v)) :
      Does h step (h.setLocal t name v)
  | keeps {h' : Heap} (same : h.Undisturbed h') (idle : step.writes h = none) : Does h step h'

theorem scopes_assignIndexed (h : Heap) (s : ScopeId) (name : String) (index : Int64) (v : Value) :
    (h.assignIndexed s name index v).2.scopes = h.scopes := by
  unfold Heap.assignIndexed Heap.storeElement
  split
  · dsimp only
    split <;> rfl
  · rfl
  · rfl

theorem does (h : Heap) (step : ScopeStep) : step.Does h (step.apply h) := by
  cases step with
  | newRoot => exact .adds rfl rfl rfl
  | newBlock s => exact .adds rfl rfl rfl
  | newCall s => exact .adds rfl rfl rfl
  | newArray items => exact .keeps (Heap.undisturbed_of_scopes_eq rfl) rfl
  | declare s name v =>
      cases bound : h.hasLocal s name with
      | true =>
          have failed : (h.declare s name v).2 = h := by simp [Heap.declare, bound]
          refine .keeps (Heap.undisturbed_of_scopes_eq ?_) (if_pos bound)
          rw [apply, failed]
      | false =>
          have stored : (h.declare s name v).2 = h.setLocal s name v := by simp [Heap.declare, bound]
          have binding : (declare s name v).writes h = some (s, name, v) := by simp [writes, bound]
          rw [apply, stored]
          exact .writes binding
  | setLocal s name v => exact .writes rfl
  | assign s name v => exact .writes rfl
  | assignIndexed s name index v =>
      exact .keeps (Heap.undisturbed_of_scopes_eq (scopes_assignIndexed ..)) rfl
  | signalReturn s v => exact .keeps ⟨h.place?_signalReturn s v, h.local?_signalReturn s v⟩ rfl
  | takeReturned s => exact .keeps ⟨h.place?_takeReturned s, h.local?_takeReturned s⟩ rfl

/-- A step in a scope that exists keeps scopes younger than those around them. -/
theorem ordered_apply {step : ScopeStep} (fits : step.Fits h) (ordered : h.Ordered) :
    (step.apply h).Ordered := by
  intro t p boundary place
  have does := step.does h
  generalize step.apply h = h' at does place
  cases does with
  | @adds scope _ around _ =>
      rw [Heap.place?, Heap.scope?_newScope] at place
      split at place
      · rename_i new
        have outside : scope.parent = some p := congrArg Prod.fst (Option.some.inj place)
        rw [new]
        exact fits p (around ▸ outside)
      · exact ordered place
  | writes _ =>
      rw [Heap.place?_setLocal] at place
      exact ordered place
  | keeps same _ =>
      rw [same.places] at place
      exact ordered place

end ScopeStep

theorem ScopeTree.ordered (tree : ScopeTree h) : h.Ordered := by
  induction tree with
  | empty => nofun
  | step _ step fits ih => exact ScopeStep.ordered_apply fits ih

end Pseudocode

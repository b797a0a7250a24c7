import Pseudocode.Machine

/-!
Classes and objects.

An object is a chain of layers, one for each class from its own up to the
oldest ancestor. A layer is a scope with the members of its class: fields, and
methods closed over the layer itself. The scope around it is the layer of the
parent class, or the scope that declares the oldest ancestor, so that method
bodies reach their own members, inherited ones and the rest of the program by
ordinary lookup.
-/

namespace Pseudocode

namespace Heap

/-- The name under which a layer sees the layer of the parent class. -/
def superName : String := "super"

/-- The name of the constructor. -/
def constructorName : String := "new"

/-! ### Class declarations -/

/-- The class that a declaration inherits from. -/
def parentClass (h : Heap) (decl : ClassDecl) (s : ScopeId) : Except Fault (Option ClassId) :=
  match decl.parent with
  | none => .ok none
  | some (name, span) =>
      if name = decl.name then .error ⟨.misuse (.selfInheritance name), span⟩
      else match h.lookup s name with
        | .error cause => .error ⟨cause, span⟩
        | .ok (.classRef id) => .ok (some id)
        | .ok other => .error ⟨.typeProblem (.parentNotAClass decl.name name other.kind), span⟩

/-! ### Building objects -/

/-- Binds the members of a class in a layer, in order of declaration. -/
def bindMembers (s : ScopeId) : List Member → Heap → Except Cause Unit × Heap
  | [], h => (.ok (), h)
  | .field _ _ name :: rest, h =>
      match h.declare s name .null with
      | (.ok (), h) => bindMembers s rest h
      | failure => failure
  | .method _ _ decl :: rest, h =>
      let (v, h) := h.closure decl s
      match h.declare s decl.name v with
      | (.ok (), h) => bindMembers s rest h
      | failure => failure

/-- The layer of one class over the layer of its parent class, if any. -/
def newLayer (c : ClassId) (decl : ClassDecl) (around : ScopeId) (base : Option ObjectId) (h : Heap) :
    Except Cause ObjectId × Heap :=
  let (s, h) := h.newBlock around
  let (verdict, h) : Except Cause Unit × Heap := match base with
    | none => (.ok (), h)
    | some o => h.declare s superName (.object o)
  match verdict with
  | .error cause => (.error cause, h)
  | .ok () =>
      match bindMembers s decl.members h with
      | (.error cause, h) => (.error cause, h)
      | (.ok (), h) =>
          let (o, h) := h.newObject ⟨c, s, base⟩
          (.ok o, h)

/-- The scope of an object's first layer. -/
def objectScope (h : Heap) (o : ObjectId) : ScopeId :=
  match h.objects[o]? with
  | some cell => cell.scope
  | none => 0

/-- The layers of an object of class `c`. A parent class is older than `c`, so
`c + 1` steps are enough. -/
def buildFrom : Nat → ClassId → Heap → Except Cause ObjectId × Heap
  | 0, _, h => (.error (.notCallable .classRef), h)
  | steps + 1, c, h =>
      match h.classes[c]? with
      | none => (.error (.notCallable .classRef), h)
      | some cell =>
          match cell.parent with
          | none => newLayer c cell.decl cell.scope none h
          | some p =>
              match buildFrom steps p h with
              | (.error cause, h) => (.error cause, h)
              | (.ok base, h) => newLayer c cell.decl (h.objectScope base) (some base) h

/-- A new object of class `c`: fields are null and no constructor has run. -/
def buildObject (c : ClassId) (h : Heap) : Except Cause ObjectId × Heap := buildFrom (c + 1) c h

/-! ### Members -/

/-- The declaration of a member by the class of one layer. -/
def ownMember? (h : Heap) (o : Object) (name : String) : Option Member :=
  (h.classes[o.classId]?).bind fun c => c.decl.member? name

def layerFrom (h : Heap) (name : String) : Nat → ObjectId → Option (Object × Member)
  | 0, _ => none
  | steps + 1, o =>
      match h.objects[o]? with
      | none => none
      | some cell =>
          match h.ownMember? cell name with
          | some m => some (cell, m)
          | none =>
              match cell.base with
              | none => none
              | some b => layerFrom h name steps b

/-- The nearest layer whose class declares a member, and the declaration. A base
is older than the layer over it, so `o + 1` steps are enough. -/
def layer? (h : Heap) (o : ObjectId) (name : String) : Option (Object × Member) :=
  layerFrom h name (o + 1) o

/-- A member seen from outside the class. -/
def getMember (h : Heap) (o : ObjectId) (name : String) : Except Cause Value :=
  match h.layer? o name with
  | none => .error (.misuse (.noMember (h.objectClass o) name))
  | some (layer, m) =>
      match m.visibility with
      | .within => .error (.privateMember name (h.className layer.classId))
      | .everywhere => h.lookup layer.scope name

/-- Sets a field from outside the class. -/
def setMember (h : Heap) (o : ObjectId) (name : String) (v : Value) : Except Cause Unit × Heap :=
  match h.layer? o name with
  | none => (.error (.misuse (.noAttribute (h.objectClass o) name)), h)
  | some (layer, m) =>
      match m.visibility with
      | .within => (.error (.privateMember name (h.className layer.classId)), h)
      | .everywhere =>
          if m.isMethod then
            (.error (.misuse (.methodAssignment name (h.className layer.classId))), h)
          else (.ok (), h.setLocal layer.scope name v)

end Heap

namespace Action

/-- Declares a class in a scope. -/
def declareClass (decl : ClassDecl) (s : ScopeId) : Action Value := do
  match ← ofHeap fun h => h.parentClass decl s with
  | .error f => failAt f.span f.cause
  | .ok parent =>
      let v ← changeHeap fun h => h.newClass ⟨decl, s, parent⟩
      orAt decl.span (declare s decl.name v)
      return v

end Action

end Pseudocode

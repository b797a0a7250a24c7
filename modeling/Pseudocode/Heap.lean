import Pseudocode.Bindings
import Pseudocode.Fault

/-!
The heap: every scope, array, routine, class, object and open file of a run.

References are positions; nothing is ever removed. A scope lists its names in
the order of their declaration and refers to the scope around it, which is
older. A walk outward from scope `s` therefore takes at most `s + 1` steps.

An update that can fail gives its verdict and the heap after it, which is the
heap before it when it failed.
-/

namespace Pseudocode

/-! ### Cells -/

/-- A scope. A `return` marks the scopes it leaves as terminated, up to and
including the nearest boundary, and parks its value there. -/
structure Scope where
  bindings : Bindings Value := []
  parent : Option ScopeId := none
  /-- The scope of a call: a `return` goes no further. -/
  boundary : Bool := false
  terminated : Bool := false
  returned : Option Value := none
  deriving Inhabited

/-- A routine closed over the scope that declares it. -/
structure Routine where
  decl : RoutineDecl
  scope : ScopeId

structure ClassCell where
  decl : ClassDecl
  scope : ScopeId
  parent : Option ClassId

/-- One layer of an object: the scope with the members of one class. Its base is
the layer of the parent class. -/
structure Object where
  classId : ClassId
  scope : ScopeId
  base : Option ObjectId
  deriving DecidableEq

/-- A file opened for reading: the lines not yet read. -/
structure FileReader where
  unread : List String
  closed : Bool := false
  deriving DecidableEq, Repr

/-- A file opened for writing. -/
structure FileWriter where
  path : String
  /-- The lines it will have, from the last to the first. -/
  backward : List String
  closed : Bool := false
  deriving DecidableEq, Repr

namespace FileWriter

/-- A writer whose file will have the given lines. -/
def ofLines (path : String) (lines : List String) : FileWriter := ⟨path, lines.reverse, false⟩

/-- The lines that the file will have. -/
def lines (w : FileWriter) : List String := w.backward.reverse

/-- Adds a line at the end. -/
def add (w : FileWriter) (line : String) : FileWriter := { w with backward := line :: w.backward }

@[simp] theorem lines_ofLines (path : String) (ls : List String) : (ofLines path ls).lines = ls :=
  List.reverse_reverse ls

@[simp] theorem lines_add (w : FileWriter) (line : String) : (w.add line).lines = w.lines ++ [line] :=
  List.reverse_cons

end FileWriter

/-- Every cell of a run. -/
structure Heap where
  scopes : Array Scope := #[]
  arrays : Array (Array Value) := #[]
  routines : Array Routine := #[]
  classes : Array ClassCell := #[]
  objects : Array Object := #[]
  readers : Array FileReader := #[]
  writers : Array FileWriter := #[]

namespace Scope

/-- The value bound to a name in this scope itself. -/
def get? (s : Scope) (name : String) : Option Value := s.bindings.lookup name

/-- The names bound in this scope itself, in order of declaration. -/
def names (s : Scope) : List String := s.bindings.names

/-- Binds a name in this scope itself. -/
def set (s : Scope) (name : String) (v : Value) : Scope :=
  { s with bindings := s.bindings.put name v }

end Scope

namespace Heap

/-! ### Scopes -/

def scope? (h : Heap) (s : ScopeId) : Option Scope := h.scopes[s]?

def modifyScope (h : Heap) (s : ScopeId) (f : Scope → Scope) : Heap :=
  { h with scopes := h.scopes.modify s f }

def newScope (h : Heap) (scope : Scope) : ScopeId × Heap :=
  (h.scopes.size, { h with scopes := h.scopes.push scope })

/-- A scope with nothing around it. -/
def newRoot (h : Heap) : ScopeId × Heap := h.newScope {}

/-- A scope for a block inside `s`. -/
def newBlock (h : Heap) (s : ScopeId) : ScopeId × Heap := h.newScope { parent := some s }

/-- A scope for a call of a routine declared in `s`. -/
def newCall (h : Heap) (s : ScopeId) : ScopeId × Heap :=
  h.newScope { parent := some s, boundary := true }

def parent? (h : Heap) (s : ScopeId) : Option ScopeId := (h.scope? s).bind Scope.parent

def local? (h : Heap) (s : ScopeId) (name : String) : Option Value :=
  (h.scope? s).bind (·.get? name)

def hasLocal (h : Heap) (s : ScopeId) (name : String) : Bool := (h.local? s name).isSome

def localNames (h : Heap) (s : ScopeId) : List String :=
  match h.scope? s with
  | none => []
  | some scope => scope.names

def lookupFrom (h : Heap) (name : String) : Nat → ScopeId → Option Value
  | 0, _ => none
  | steps + 1, s =>
      match h.scope? s with
      | none => none
      | some scope =>
          match scope.get? name with
          | some v => some v
          | none =>
              match scope.parent with
              | none => none
              | some p => lookupFrom h name steps p

/-- The value of a name, as seen from scope `s`. -/
def lookup? (h : Heap) (s : ScopeId) (name : String) : Option Value :=
  lookupFrom h name (s + 1) s

def resolveFrom (h : Heap) (name : String) : Nat → ScopeId → Option ScopeId
  | 0, _ => none
  | steps + 1, s =>
      if h.hasLocal s name then some s
      else match h.parent? s with
        | none => none
        | some p => resolveFrom h name steps p

/-- The nearest scope, from `s` outward, that binds a name. -/
def resolve? (h : Heap) (s : ScopeId) (name : String) : Option ScopeId :=
  resolveFrom h name (s + 1) s

/-- Binds a name in `s` itself, whether or not it is bound already. -/
def setLocal (h : Heap) (s : ScopeId) (name : String) (v : Value) : Heap :=
  h.modifyScope s (·.set name v)

/-- Binds a name that `s` itself does not bind yet. -/
def declare (h : Heap) (s : ScopeId) (name : String) (v : Value) : Except Cause Unit × Heap :=
  if h.hasLocal s name then (.error (.redeclaration name), h)
  else (.ok (), h.setLocal s name v)

/-- Sets a name in the nearest scope that binds it, or binds it in `s`. -/
def assign (h : Heap) (s : ScopeId) (name : String) (v : Value) : Heap :=
  h.setLocal ((h.resolve? s name).getD s) name v

/-- The value of a name; an unbound one is a fault. -/
def lookup (h : Heap) (s : ScopeId) (name : String) : Except Cause Value :=
  match h.lookup? s name with
  | some v => .ok v
  | none => .error (.undefinedVariable name)

/-! ### Returning -/

/-- The scopes from `s` outward up to the nearest boundary: those inside it, and
the boundary itself. -/
def boundaryFrom (h : Heap) : Nat → ScopeId → Option (List ScopeId × ScopeId)
  | 0, _ => none
  | steps + 1, s =>
      match h.scope? s with
      | none => none
      | some scope =>
          if scope.boundary then some ([], s)
          else match scope.parent with
            | none => none
            | some p => (boundaryFrom h steps p).map fun (blocks, b) => (s :: blocks, b)

def terminate (h : Heap) (s : ScopeId) : Heap := h.modifyScope s ({ · with terminated := true })

/-- Marks the scopes up to the nearest boundary as terminated and parks the
value there. Without a boundary nothing changes. -/
def signalReturn (h : Heap) (s : ScopeId) (v : Value) : Except Cause Unit × Heap :=
  match h.boundaryFrom (s + 1) s with
  | none => (.error .returnOutsideFunction, h)
  | some (blocks, b) =>
      (.ok (), (blocks.foldl terminate h).modifyScope b
        ({ · with terminated := true, returned := some v }))

def isTerminated (h : Heap) (s : ScopeId) : Bool :=
  match h.scope? s with
  | none => false
  | some scope => scope.terminated

/-- The parked value, which is gone afterwards. -/
def takeReturned (h : Heap) (s : ScopeId) : Option Value × Heap :=
  ((h.scope? s).bind Scope.returned, h.modifyScope s ({ · with returned := none }))

/-! ### Arrays -/

def items? (h : Heap) (a : ArrayId) : Option (Array Value) := h.arrays[a]?

/-- The elements of an array. -/
def items (h : Heap) (a : ArrayId) : Array Value := (h.items? a).getD #[]

def newArray (h : Heap) (items : Array Value) : Value × Heap :=
  (.array h.arrays.size, { h with arrays := h.arrays.push items })

/-- `count` values made one after the other. -/
def makeMany (make : Heap → Value × Heap) : Nat → Array Value → Heap → Array Value × Heap
  | 0, made, h => (made, h)
  | count + 1, made, h =>
      let (v, h) := make h
      makeMany make count (made.push v) h

/-- A rectangular array of the given sizes, filled with `null`. Every part has
its own storage. -/
def makeArray : List Nat → Heap → Value × Heap
  | [], h => (.null, h)
  | size :: sizes, h =>
      let (made, h) := makeMany (makeArray sizes) size #[] h
      h.newArray made

/-- The first size for which an array with room for `room` values is too small. The
arrays inside an empty one are never made, so their sizes do not matter. -/
def oversized? (room : Nat) : List Nat → Option Nat
  | [] => none
  | size :: sizes =>
      if room < size then some size
      else if size = 0 then none
      else oversized? room sizes

/-- The position that an index stands for in a sequence of the given length. -/
def position? (index : Int64) (length : Nat) : Option Nat :=
  if 0 ≤ index.toInt ∧ index.toInt < length then some index.toInt.toNat else none

/-- Overwrites one element of an array, seen through every reference to it. -/
def storeElement (h : Heap) (a : ArrayId) (index : Int64) (v : Value) :
    Except Cause Unit × Heap :=
  let length := (h.items a).size
  match position? index length with
  | some i => (.ok (), { h with arrays := h.arrays.modify a (·.setIfInBounds i v) })
  | none => (.error (.indexOutOfBounds index length), h)

/-- Overwrites one element of the array that a name stands for. -/
def assignIndexed (h : Heap) (s : ScopeId) (name : String) (index : Int64) (v : Value) :
    Except Cause Unit × Heap :=
  match h.lookup s name with
  | .ok (.array a) => h.storeElement a index v
  | .ok other => (.error (.typeProblem (.variableNotIndexable name other.kind)), h)
  | .error cause => (.error cause, h)

/-! ### Other cells -/

def newRoutine (h : Heap) (r : Routine) : RoutineId × Heap :=
  (h.routines.size, { h with routines := h.routines.push r })

/-- A routine value for a declaration in scope `s`. -/
def closure (h : Heap) (decl : RoutineDecl) (s : ScopeId) : Value × Heap :=
  let (id, h) := h.newRoutine ⟨decl, s⟩
  (match decl.kind with
    | .function => .function id
    | .procedure => .procedure id, h)

def newClass (h : Heap) (c : ClassCell) : Value × Heap :=
  (.classRef h.classes.size, { h with classes := h.classes.push c })

def newObject (h : Heap) (o : Object) : ObjectId × Heap :=
  (h.objects.size, { h with objects := h.objects.push o })

def newReader (h : Heap) (r : FileReader) : Value × Heap :=
  (.reader h.readers.size, { h with readers := h.readers.push r })

def newWriter (h : Heap) (w : FileWriter) : Value × Heap :=
  (.writer h.writers.size, { h with writers := h.writers.push w })

def setReader (h : Heap) (id : ReaderId) (r : FileReader) : Heap :=
  { h with readers := h.readers.setIfInBounds id r }

def setWriter (h : Heap) (id : WriterId) (w : FileWriter) : Heap :=
  { h with writers := h.writers.setIfInBounds id w }

def routineName (h : Heap) (id : RoutineId) : String :=
  match h.routines[id]? with
  | some r => r.decl.name
  | none => ""

def className (h : Heap) (id : ClassId) : String :=
  match h.classes[id]? with
  | some c => c.decl.name
  | none => ""

/-- The name of the class of an object. -/
def objectClass (h : Heap) (id : ObjectId) : String :=
  match h.objects[id]? with
  | some o => h.className o.classId
  | none => ""

end Heap

/-- Truth of a value: false, null, an empty text and an empty array are not
true. -/
def Value.truthy (h : Heap) : Value → Bool
  | boolean b => b
  | null => false
  | text s => !s.isEmpty
  | array a => !(h.items a).isEmpty
  | _ => true

end Pseudocode

import Pseudocode.Heap
import Pseudocode.World.Basic

/-!
The machine that runs programs, and actions on it.

An action ends in one of four ways: with a result, with a fault of the
program, with a crash of the machine itself, or without an answer because its
bound on steps is used up. A fault and a crash keep the machine as it was left:
output, files and variables stay. But a fault is reported like any other answer,
while a crash ends all that was going on.
-/

namespace Pseudocode

structure Machine where
  heap : Heap := {}
  world : World := {}
  /-- The number of routine calls that are being executed. -/
  depth : Nat := 0

/-- Why the machine itself stops. -/
inductive Crash where
  /-- There is no number in a range, or none that the generator can draw. -/
  | range (range : Draw)
  /-- An array cannot have room for so many values. -/
  | capacity (size : Nat)
  /-- A counter has no next number. -/
  | counter

def Crash.message : Crash → String
  | range (.integer ..) => "cannot sample empty range"
  | range (.float first last) =>
      if first < last then "UniformSampler::sample_single: range overflow"
      else "cannot sample empty range"
  | capacity _ => "capacity overflow"
  | counter => "attempt to add with overflow"

/-- How an action ends. -/
inductive Outcome (α : Type) where
  | done (a : α) (m : Machine)
  | failed (f : Fault) (m : Machine)
  | crashed (c : Crash) (m : Machine)
  | exhausted

def Action (α : Type) : Type := Machine → Outcome α

namespace Action

@[inline] def pure {α : Type} (a : α) : Action α := fun m => .done a m

@[inline] def bind {α β : Type} (x : Action α) (f : α → Action β) : Action β := fun m =>
  match x m with
  | .done a m => f a m
  | .failed e m => .failed e m
  | .crashed c m => .crashed c m
  | .exhausted => .exhausted

instance : Monad Action where
  pure := pure
  bind := bind

/-! ### Failing -/

/-- No answer. -/
def exhausted {α : Type} : Action α := fun _ => .exhausted

def crash {α : Type} (c : Crash) : Action α := fun m => .crashed c m

@[inline] def fail {α : Type} (cause : Cause) : Action α := fun m => .failed (.unplaced cause) m

@[inline] def failAt {α : Type} (span : Span) (cause : Cause) : Action α := fun m =>
  .failed ⟨cause, span⟩ m

/-- Places a fault that has no place yet. -/
@[inline] def orAt {α : Type} (span : Span) (x : Action α) : Action α := fun m =>
  match x m with
  | .done a m => .done a m
  | .failed f m => .failed (f.orAt span) m
  | .crashed c m => .crashed c m
  | .exhausted => .exhausted

@[inline] def ofExcept {α : Type} : Except Cause α → Action α
  | .ok a => pure a
  | .error cause => fail cause

/-! ### Reading and changing the machine -/

/-- Something read off the heap. -/
@[inline] def ofHeap {α : Type} (f : Heap → α) : Action α := fun m => .done (f m.heap) m

/-- Something read off the heap that may be a fault. -/
@[inline] def tryOfHeap {α : Type} (f : Heap → Except Cause α) : Action α := fun m =>
  match f m.heap with
  | .ok a => .done a m
  | .error cause => .failed (.unplaced cause) m

@[inline] def changeHeap {α : Type} (f : Heap → α × Heap) : Action α := fun ⟨heap, world, depth⟩ =>
  let (a, heap) := f heap
  .done a ⟨heap, world, depth⟩

@[inline] def tryChangeHeap {α : Type} (f : Heap → Except Cause α × Heap) : Action α :=
  fun ⟨heap, world, depth⟩ =>
    match f heap with
    | (.ok a, heap) => .done a ⟨heap, world, depth⟩
    | (.error cause, heap) => .failed (.unplaced cause) ⟨heap, world, depth⟩

@[inline] def changeWorld {α : Type} (f : World → α × World) : Action α :=
  fun ⟨heap, world, depth⟩ =>
    let (a, world) := f world
    .done a ⟨heap, world, depth⟩

@[inline] def getDepth : Action Nat := fun m => .done m.depth m

/-- Runs an action one call deeper. However it ends, the depth is then as
before. -/
@[inline] def deeper {α : Type} (x : Action α) : Action α := fun ⟨heap, world, depth⟩ =>
  match x ⟨heap, world, depth + 1⟩ with
  | .done a m => .done a { m with depth := m.depth - 1 }
  | .failed f m => .failed f { m with depth := m.depth - 1 }
  | .crashed c m => .crashed c { m with depth := m.depth - 1 }
  | .exhausted => .exhausted

/-! ### Scopes -/

def lookup (s : ScopeId) (name : String) : Action Value := tryOfHeap fun h => h.lookup s name

def declare (s : ScopeId) (name : String) (v : Value) : Action Unit :=
  tryChangeHeap fun h => h.declare s name v

def setLocal (s : ScopeId) (name : String) (v : Value) : Action Unit :=
  changeHeap fun h => ((), h.setLocal s name v)

def assign (s : ScopeId) (name : String) (v : Value) : Action Unit :=
  changeHeap fun h => ((), h.assign s name v)

def newBlock (s : ScopeId) : Action ScopeId := changeHeap fun h => h.newBlock s

def newCall (s : ScopeId) : Action ScopeId := changeHeap fun h => h.newCall s

def isTerminated (s : ScopeId) : Action Bool := ofHeap fun h => h.isTerminated s

def signalReturn (s : ScopeId) (v : Value) : Action Unit :=
  tryChangeHeap fun h => h.signalReturn s v

def takeReturned (s : ScopeId) : Action (Option Value) := changeHeap fun h => h.takeReturned s

def storeElement (a : ArrayId) (index : Int64) (v : Value) : Action Unit :=
  tryChangeHeap fun h => h.storeElement a index v

def assignIndexed (s : ScopeId) (name : String) (index : Int64) (v : Value) : Action Unit :=
  tryChangeHeap fun h => h.assignIndexed s name index v

def newArray (items : Array Value) : Action Value := changeHeap fun h => h.newArray items

/-- A rectangular array, when there is room for every row of it. -/
def makeArray (room : Nat) (sizes : List Nat) : Action Value :=
  match Heap.oversized? room sizes with
  | some size => crash (.capacity size)
  | none => changeHeap (Heap.makeArray sizes)

/-! ### The world -/

/-- A number of a range. When the generator has none, the machine crashes. -/
def draw {α : Type} (range : Draw) (answer : Generator → List Draw → Option α) : Action α :=
  fun ⟨heap, world, depth⟩ =>
    match answer world.generator world.drawn with
    | some a => .done a ⟨heap, world.drawFrom range, depth⟩
    | none => .crashed (.range range) ⟨heap, world.drawFrom range, depth⟩

def drawInteger (first last : Int64) : Action Int64 :=
  draw (.integer first last) fun generator drawn => generator.integer drawn first last

def drawFloat (first last : Float) : Action Float :=
  draw (.float first last) fun generator drawn => generator.float drawn first last

/-- Adds a line of output. -/
def log (text : String) : Action Unit := changeWorld fun w => ((), w.record (.log text))

end Action

end Pseudocode

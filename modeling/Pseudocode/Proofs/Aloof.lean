import Pseudocode.Eval
import Pseudocode.Proofs.Outcome

/-!
Actions that have to do with arrays, files and the world only.

`Native x` says that the action `x` is put together from looking at arrays, open files
and texts of values, changing arrays and open files, and the operations of the world.
Operators, built-in functions and methods, and everything done to arrays is of this
kind.

An action is `Aloof` when it cannot tell machines apart that have the same arrays,
open files and world and write values as the same texts, changes the same things on
both, and fails without a place if it fails. Whatever relates the rest of two
machines then relates it still when the action has run on both. Native actions are
aloof (`Native.aloof`).
-/

namespace Pseudocode

/-! ### What is looked at and what is changed -/

/-- The heaps look the same to an action that is aloof. -/
structure Heap.Resembles (h h' : Heap) : Prop where
  arrays : h'.arrays = h.arrays
  readers : h'.readers = h.readers
  writers : h'.writers = h.writers
  text : ∀ v, h'.scalarText v = h.scalarText v

/-- The heap with other arrays and open files. -/
def Heap.patch (h : Heap) (arrays : Array (Array Value)) (readers : Array FileReader)
    (writers : Array FileWriter) : Heap :=
  { h with arrays := arrays, readers := readers, writers := writers }

theorem Heap.patch_self (h : Heap) : h.patch h.arrays h.readers h.writers = h := rfl

theorem Heap.Resembles.patch_self {h h' : Heap} (alike : h.Resembles h') :
    h'.patch h.arrays h.readers h.writers = h' := by
  rw [← alike.arrays, ← alike.readers, ← alike.writers]
  rfl

theorem Heap.Resembles.patch {h h' : Heap} (alike : h.Resembles h') (arrays : Array (Array Value))
    (readers : Array FileReader) (writers : Array FileWriter) :
    (h.patch arrays readers writers).Resembles (h'.patch arrays readers writers) := by
  refine ⟨rfl, rfl, rfl, ?_⟩
  intro v
  have same := alike.text v
  cases v <;> exact same

/-- What can be done to the world: a line is printed, an answer asked for, a file read or
written, a number drawn from a range. -/
inductive World.Run : World → World → Prop where
  | refl {w : World} : Run w w
  | trans {w w' w'' : World} (first : Run w w') (second : Run w' w'') : Run w w''
  | print (w : World) (text : String) : Run w (w.record (.log text))
  | ask (w : World) (prompt : String) : Run w (w.request prompt).2
  | read (w : World) (path : String) : Run w (w.load path).2
  | write (w : World) (path contents : String) : Run w (w.save path contents).2
  | draw (w : World) (range : Draw) : Run w (w.drawFrom range)

/-- A relation between machines that look the same, which has nothing to do with what
an action that is aloof can change. -/
structure Aside (E : Machine → Machine → Prop) : Prop where
  alike : ∀ {m m' : Machine}, E m m' → m.heap.Resembles m'.heap
  world : ∀ {m m' : Machine}, E m m' → m'.world = m.world
  patch : ∀ {m m' : Machine}, E m m' → ∀ arrays readers writers world,
    E { m with heap := m.heap.patch arrays readers writers, world := world }
      { m' with heap := m'.heap.patch arrays readers writers, world := world }

/-- The outcomes are the same up to related machines, and a fault has no place. -/
inductive Outcome.Matches {α : Type} (E : Machine → Machine → Prop) : Outcome α → Outcome α → Prop where
  | done (a : α) {m m' : Machine} (left : E m m') : Matches E (.done a m) (.done a m')
  | failed (cause : Cause) {m m' : Machine} (left : E m m') :
      Matches E (.failed (.unplaced cause) m) (.failed (.unplaced cause) m')
  | crashed (c : Crash) {m m' : Machine} (left : E m m') : Matches E (.crashed c m) (.crashed c m')

namespace Action

variable {α β : Type}

/-- A change of arrays and open files that is the same on heaps that look the same. -/
def Patches (f : Heap → α × Heap) : Prop :=
  ∀ h h' : Heap, h.Resembles h' → ∃ a arrays readers writers,
    f h = (a, h.patch arrays readers writers) ∧ f h' = (a, h'.patch arrays readers writers)

/-- A change that is computed from arrays and open files. -/
theorem patches_of_eq {f : Heap → α × Heap}
    (g : Array (Array Value) → Array FileReader → Array FileWriter →
      α × Array (Array Value) × Array FileReader × Array FileWriter)
    (computed : ∀ h : Heap, f h = ((g h.arrays h.readers h.writers).1,
      h.patch (g h.arrays h.readers h.writers).2.1 (g h.arrays h.readers h.writers).2.2.1
        (g h.arrays h.readers h.writers).2.2.2)) : Patches f := by
  intro h h' alike
  refine ⟨_, _, _, _, computed h, ?_⟩
  rw [computed h', alike.arrays, alike.readers, alike.writers]

/-- What the built-in part of the language is made of. -/
inductive Native : {α : Type} → Action α → Prop where
  | pure {α : Type} (a : α) : Native (Pure.pure a : Action α)
  | fail {α : Type} (cause : Cause) : Native (fail cause : Action α)
  | bind {α β : Type} {x : Action α} {f : α → Action β} (first : Native x)
      (second : ∀ a, Native (f a)) : Native (x >>= f)
  | ofHeap {α : Type} {f : Heap → α} (same : ∀ h h' : Heap, h.Resembles h' → f h' = f h) :
      Native (ofHeap f)
  | tryOfHeap {α : Type} {f : Heap → Except Cause α}
      (same : ∀ h h' : Heap, h.Resembles h' → f h' = f h) : Native (tryOfHeap f)
  | changeHeap {α : Type} {f : Heap → α × Heap} (patches : Patches f) : Native (changeHeap f)
  | tryChangeHeap {α : Type} {f : Heap → Except Cause α × Heap} (patches : Patches f) :
      Native (tryChangeHeap f)
  | changeWorld {α : Type} {f : World → α × World} (run : ∀ w : World, w.Run (f w).2) :
      Native (changeWorld f)
  | drawInteger {first last : Int64} (ordered : first.toInt ≤ last.toInt) :
      Native (drawInteger first last)
  | drawFloat {first last : Float} (ordered : ¬ last < first) (apart : (first == last) = false) :
      Native (drawFloat first last)

theorem Native.ofExcept (verdict : Except Cause α) : Native (ofExcept verdict) := by
  cases verdict with
  | ok a => exact .pure a
  | error cause => exact .fail cause

def Aloof (x : Action α) : Prop :=
  ∀ E, Aside E → ∀ m m', E m m' → (x m).Matches E (x m')

namespace Aloof

theorem pure (a : α) : Aloof (Pure.pure a : Action α) :=
  fun _ _ _ _ related => .done a related

theorem fail (cause : Cause) : Aloof (fail cause : Action α) :=
  fun _ _ _ _ related => .failed cause related

theorem bind {x : Action α} {f : α → Action β} (first : Aloof x) (second : ∀ a, Aloof (f a)) :
    Aloof (x >>= f) := by
  intro E aside m m' related
  have ends := first E aside m m' related
  rw [bind_apply, bind_apply]
  generalize x m = o at ends ⊢
  generalize x m' = o' at ends ⊢
  cases ends with
  | done a left => exact second a E aside _ _ left
  | failed cause left => exact .failed cause left
  | crashed c left => exact .crashed c left

theorem ofHeap {f : Heap → α} (same : ∀ h h' : Heap, h.Resembles h' → f h' = f h) : Aloof (ofHeap f) := by
  intro E aside m m' related
  unfold Action.ofHeap
  rw [same _ _ (aside.alike related)]
  exact .done _ related

theorem tryOfHeap {f : Heap → Except Cause α} (same : ∀ h h' : Heap, h.Resembles h' → f h' = f h) :
    Aloof (tryOfHeap f) := by
  intro E aside m m' related
  unfold Action.tryOfHeap
  rw [same _ _ (aside.alike related)]
  cases f m.heap with
  | ok a => exact .done a related
  | error cause => exact .failed cause related

theorem changeHeap {f : Heap → α × Heap} (patches : Patches f) : Aloof (changeHeap f) := by
  intro E aside m m' related
  obtain ⟨a, arrays, readers, writers, here, there⟩ := patches _ _ (aside.alike related)
  have patched := aside.patch related arrays readers writers m.world
  rw [changeHeap_apply, changeHeap_apply, here, there, aside.world related]
  exact .done a patched

theorem tryChangeHeap {f : Heap → Except Cause α × Heap} (patches : Patches f) :
    Aloof (tryChangeHeap f) := by
  intro E aside m m' related
  obtain ⟨verdict, arrays, readers, writers, here, there⟩ := patches _ _ (aside.alike related)
  have patched := aside.patch related arrays readers writers m.world
  rw [tryChangeHeap_apply, tryChangeHeap_apply, here, there, aside.world related]
  cases verdict with
  | ok a => exact .done a patched
  | error cause => exact .failed cause patched

theorem changeWorld (f : World → α × World) : Aloof (changeWorld f) := by
  intro E aside m m' related
  have patched := aside.patch related m.heap.arrays m.heap.readers m.heap.writers (f m.world).2
  rw [m.heap.patch_self, (aside.alike related).patch_self] at patched
  have there : Action.changeWorld f m' = .done (f m'.world).1 { m' with world := (f m'.world).2 } := rfl
  rw [there, aside.world related]
  exact .done _ patched

theorem draw (range : Draw) (answer : Generator → List Draw → Option α) :
    Aloof (draw range answer) := by
  intro E aside m m' related
  have patched := aside.patch related m.heap.arrays m.heap.readers m.heap.writers
    (m.world.drawFrom range)
  rw [m.heap.patch_self, (aside.alike related).patch_self] at patched
  rw [draw_apply, draw_apply, aside.world related]
  cases answer m.world.generator m.world.drawn with
  | some a => exact .done a patched
  | none => exact .crashed _ patched

end Aloof

theorem Native.aloof {x : Action α} (native : Native x) : Aloof x := by
  induction native with
  | pure a => exact .pure a
  | fail cause => exact .fail cause
  | bind _ _ first second => exact .bind first second
  | ofHeap same => exact .ofHeap same
  | tryOfHeap same => exact .tryOfHeap same
  | changeHeap patches => exact .changeHeap patches
  | tryChangeHeap patches => exact .tryChangeHeap patches
  | changeWorld run => exact .changeWorld _
  | drawInteger ordered => exact .draw _ _
  | drawFloat ordered apart => exact .draw _ _

end Action

/-! ### Reading values -/

namespace Heap.Resembles

variable {h h' : Heap} (alike : h.Resembles h')
include alike

theorem items (a : ArrayId) : h'.items a = h.items a := by
  unfold Heap.items Heap.items?
  rw [alike.arrays]

theorem allEqual (met : List (ArrayId × ArrayId)) (pairs : List (Value × Value)) :
    h'.allEqual met pairs = h.allEqual met pairs := by
  fun_induction h.allEqual met pairs with
  | case1 => rw [Heap.allEqual]
  | case2 met b rest ih => rw [Heap.allEqual, if_pos rfl, ih]
  | case3 met a b rest ne fresh bounds xs ys ih =>
      rw [Heap.allEqual, if_neg ne, dif_pos fresh, alike.arrays, dif_pos bounds, alike.items,
        alike.items]
      exact congrArg (xs.size == ys.size && ·) ih
  | case4 met a b rest ne fresh bounds =>
      rw [Heap.allEqual, if_neg ne, dif_pos fresh, alike.arrays, dif_neg bounds]
  | case5 met a b rest ne old ih => rw [Heap.allEqual, if_neg ne, dif_neg old, ih]
  | case6 met u v rest other ih =>
      rw [Heap.allEqual, ih]
      exact other

theorem valuesEqual (u v : Value) : h'.valuesEqual u v = h.valuesEqual u v :=
  alike.allEqual [] [(u, v)]

theorem truthy (v : Value) : v.truthy h' = v.truthy h := by
  cases v with
  | array a => exact congrArg (fun xs => !xs.isEmpty) (alike.items a)
  | _ => rfl

/-- The rendering of a value and of a list of values, at once: each calls the
other on fewer arrays or fewer values. -/
theorem render (quoted : Bool) :
    (∀ ancestors v, h'.render quoted ancestors v = h.render quoted ancestors v) ∧
      ∀ ancestors vs, h'.renderItems quoted ancestors vs = h.renderItems quoted ancestors vs := by
  apply Heap.render.mutual_induct h quoted
  case case1 =>
    intro ancestors s _
    simp only [Heap.render]
  case case2 =>
    intro ancestors s _
    simp only [Heap.render]
  case case3 =>
    intro ancestors a fresh bound ih
    simp only [Heap.render, alike.arrays, alike.items, fresh, bound, dite_true, ih]
  case case4 =>
    intro ancestors a fresh bound
    rw [Heap.render, Heap.render, dif_pos fresh, dif_pos fresh, alike.arrays, dif_neg bound,
      dif_neg bound]
  case case5 =>
    intro ancestors a old
    rw [Heap.render, Heap.render, dif_neg old, dif_neg old]
  case case6 =>
    intro ancestors v notText notArray
    simp only [Heap.render, alike.text]
  case case7 =>
    intro ancestors
    simp only [Heap.renderItems]
  case case8 =>
    intro ancestors v vs first rest
    simp only [Heap.renderItems, first, rest]

end Heap.Resembles

namespace Action.Native

/-! ### Arrays -/

theorem makeMany_patches {make : Heap → Value × Heap} (patches : Patches make) (count : Nat)
    (made : Array Value) : Patches (Heap.makeMany make count made) := by
  induction count generalizing made with
  | zero => exact fun h h' alike => ⟨made, h.arrays, h.readers, h.writers, rfl, by
      rw [alike.patch_self]; rfl⟩
  | succ count ih =>
      intro h h' alike
      obtain ⟨v, arrays, readers, writers, here, there⟩ := patches h h' alike
      obtain ⟨vs, arrays', readers', writers', here', there'⟩ :=
        ih (made.push v) _ _ (alike.patch arrays readers writers)
      refine ⟨vs, arrays', readers', writers', ?_, ?_⟩
      · rw [Heap.makeMany, here]
        exact here'
      · rw [Heap.makeMany, there]
        exact there'

theorem makeArray_patches (sizes : List Nat) : Patches (Heap.makeArray sizes) := by
  induction sizes with
  | nil => exact fun h h' alike => ⟨.null, h.arrays, h.readers, h.writers, rfl, by
      rw [alike.patch_self]; rfl⟩
  | cons size sizes ih =>
      intro h h' alike
      obtain ⟨vs, arrays, readers, writers, here, there⟩ := makeMany_patches ih size #[] h h' alike
      refine ⟨.array arrays.size, arrays.push vs, readers, writers, ?_, ?_⟩
      · rw [Heap.makeArray, here]
        rfl
      · rw [Heap.makeArray, there]
        rfl

theorem storeElement_patches (a : ArrayId) (i : Int64) (v : Value) :
    Patches fun h => h.storeElement a i v := by
  intro h h' alike
  simp only [Heap.storeElement, alike.items, alike.arrays]
  split
  · exact ⟨_, _, h.readers, h.writers, rfl, by rw [← alike.readers, ← alike.writers]; rfl⟩
  · exact ⟨_, h.arrays, h.readers, h.writers, rfl, by rw [alike.patch_self]⟩

/-! ### Operators and elements -/

theorem binary (op : BinaryOp) (l r : Value) :
    Native (Action.tryOfHeap fun h => Operator.binary h op l r) := by
  refine tryOfHeap fun h h' alike => ?_
  cases op <;> simp only [Operator.binary, Operator.binaryWith, alike.valuesEqual]

theorem unary (op : UnaryOp) (v : Value) : Native (Action.tryOfHeap fun h => Operator.unary h op v) := by
  refine tryOfHeap fun h h' alike => ?_
  cases op with
  | not => simp only [Operator.unary, alike.truthy]
  | _ => cases v <;> rfl

theorem newArray (items : Array Value) : Native (Action.newArray items) :=
  changeHeap (patches_of_eq (fun as rs ws => (.array as.size, as.push items, rs, ws)) fun _ => rfl)

theorem index (object i : Value) : Native (Action.index object i) := by
  unfold Action.index
  split
  · exact tryOfHeap fun _ _ alike => by rw [alike.items]
  · exact ofExcept _
  · exact bind (tryOfHeap fun _ _ alike => by rw [alike.items]) fun items => newArray items
  · exact ofExcept _
  · exact fail _
  · exact fail _
  · exact fail _

theorem storeAt (container i v : Value) : Native (Action.storeAt container i v) := by
  unfold Action.storeAt
  split
  · exact tryChangeHeap (storeElement_patches _ _ v)
  · exact fail _
  · exact fail _
  · exact fail _

/-! ### Built-in functions -/

theorem printWith (quoted : Bool) (args : List Value) :
    Native (Action.printWith (fun h v => h.render quoted [] v) args) := by
  refine bind (ofHeap fun h h' alike => ?_) fun line =>
    bind (changeWorld fun w => .print w line) fun _ => pure _
  simp only [(alike.render quoted).1]

theorem requestInput (prompt : String) : Native (Action.requestInput prompt) := by
  refine bind (changeWorld fun w => .ask w prompt) fun answer => ?_
  cases answer with
  | ok answer => exact pure _
  | error reason => exact fail _

theorem input (args : List Value) : Native (Action.input args) := by
  unfold Action.input
  split
  · exact requestInput _
  · exact requestInput _
  · exact fail _
  · exact fail _

theorem len (v : Value) : Native (Action.len v) := by
  unfold Action.len
  split
  · exact ofHeap fun _ _ alike => by rw [alike.items]
  · exact fail _

theorem random (first last : Value) : Native (Action.random first last) := by
  unfold Action.random
  split
  · unfold randomInteger
    split
    · exact fail _
    · rename_i ordered
      exact bind (drawInteger (Int.not_lt.mp ordered)) fun _ => pure _
  · unfold randomFloat
    split
    · exact fail _
    · rename_i ordered
      split
      · exact pure _
      · rename_i apart
        exact bind (drawFloat ordered (Bool.eq_false_iff.mpr apart)) fun _ => pure _
  · exact fail _

theorem fileContents (path : String) : Native (Action.fileContents path) := by
  refine bind (changeWorld fun w => .read w path) fun contents => ?_
  cases contents with
  | none => exact fail _
  | some contents => exact pure _

theorem saveFile (path contents : String) : Native (Action.saveFile path contents) := by
  refine bind (changeWorld fun w => .write w path contents) fun verdict => ?_
  cases verdict with
  | ok _ => exact pure _
  | error reason => exact fail _

theorem openReader (path : String) : Native (Action.openReader path) := by
  refine bind (fileContents path) fun contents => changeHeap ?_
  exact patches_of_eq (fun as rs ws =>
    (.reader rs.size, as, rs.push { unread := Native.linesOf contents }, ws)) fun _ => rfl

theorem openWriter (path : String) : Native (Action.openWriter path) := by
  refine bind (fileContents path) fun contents => changeHeap ?_
  exact patches_of_eq (fun as rs ws =>
    (.writer ws.size, as, rs, ws.push (.ofLines path (Native.linesOf contents)))) fun _ => rfl

theorem unaryFunction {f : NativeFunction} {run : Value → Action Value} (args : List Value)
    (native : ∀ v, Native (run v)) : Native (Action.unaryFunction f args run) := by
  unfold Action.unaryFunction
  split
  · exact native _
  · exact fail _

theorem textFunction {f : NativeFunction} {run : String → Action Value} (args : List Value)
    (native : ∀ s, Native (run s)) : Native (Action.textFunction f args run) :=
  unaryFunction args fun _ => bind (ofExcept _) fun s => native s

theorem callNative (f : NativeFunction) (args : List Value) : Native (Action.callNative f args) := by
  cases f with
  | print => exact printWith false args
  | printRaw => exact printWith true args
  | input => exact input args
  | int => exact unaryFunction args fun v => ofExcept _
  | float => exact unaryFunction args fun v => ofExcept _
  | str => exact unaryFunction args fun v => ofExcept _
  | len => exact unaryFunction args len
  | upper => exact textFunction args fun s => pure _
  | lower => exact textFunction args fun s => pure _
  | openRead => exact textFunction args openReader
  | openWrite => exact textFunction args openWriter
  | newFile => exact textFunction args fun path => bind (saveFile path "") fun _ => pure _
  | random =>
      simp only [Action.callNative]
      split
      · exact random _ _
      · exact fail _

/-! ### Built-in methods -/

theorem readerOf (receiver : Value) : Native (Action.readerOf receiver) := by
  cases receiver with
  | reader id =>
      refine bind (ofHeap fun _ _ alike => by rw [alike.readers]) fun found => ?_
      cases found with
      | none => exact fail _
      | some r => exact pure _
  | _ => exact fail _

theorem writerOf (receiver : Value) : Native (Action.writerOf receiver) := by
  cases receiver with
  | writer id =>
      refine bind (ofHeap fun _ _ alike => by rw [alike.writers]) fun found => ?_
      cases found with
      | none => exact fail _
      | some w => exact pure _
  | _ => exact fail _

theorem setReader (id : ReaderId) (r : FileReader) : Native (Action.setReader id r) :=
  changeHeap (patches_of_eq (fun as rs ws => ((), as, rs.setIfInBounds id r, ws)) fun _ => rfl)

theorem setWriter (id : WriterId) (w : FileWriter) : Native (Action.setWriter id w) :=
  changeHeap (patches_of_eq (fun as rs ws => ((), as, rs, ws.setIfInBounds id w)) fun _ => rfl)

theorem readLine (receiver : Value) : Native (Action.readLine receiver) := by
  refine bind (readerOf receiver) fun (id, r) => ?_
  dsimp only
  split
  · exact fail _
  · split
    · exact fail _
    · exact bind (setReader id _) fun _ => pure _

theorem endOfFile (receiver : Value) : Native (Action.endOfFile receiver) := by
  refine bind (readerOf receiver) fun (id, r) => ?_
  dsimp only
  split
  · exact fail _
  · exact pure _

theorem closeReader (receiver : Value) : Native (Action.closeReader receiver) := by
  refine bind (readerOf receiver) fun (id, r) => ?_
  dsimp only
  split
  · exact fail _
  · exact bind (setReader id _) fun _ => pure _

theorem writeLine (receiver line : Value) : Native (Action.writeLine receiver line) := by
  refine bind (writerOf receiver) fun (id, w) => ?_
  dsimp only
  split
  · exact fail _
  · split
    · exact bind (setWriter id _) fun _ => pure _
    · exact fail _

theorem closeWriter (receiver : Value) : Native (Action.closeWriter receiver) := by
  refine bind (writerOf receiver) fun (id, w) => ?_
  dsimp only
  split
  · exact fail _
  · exact bind (saveFile _ _) fun _ => bind (setWriter id _) fun _ => pure _

theorem plainMethod {m : NativeMethod} {run : Action Value} (args : List Value)
    (native : Native run) : Native (Action.plainMethod m args run) := by
  unfold Action.plainMethod
  split
  · exact native
  · exact fail _

theorem callMethod (m : NativeMethod) (receiver : Value) (args : List Value) :
    Native (Action.callMethod m receiver args) := by
  cases m with
  | substring =>
      simp only [Action.callMethod]
      split
      · exact ofExcept _
      · exact fail _
  | readLine => exact plainMethod args (readLine receiver)
  | endOfFile => exact plainMethod args (endOfFile receiver)
  | closeReader => exact plainMethod args (closeReader receiver)
  | writeLine =>
      simp only [Action.callMethod]
      split
      · exact writeLine receiver _
      · exact fail _
  | closeWriter => exact plainMethod args (closeWriter receiver)

end Action.Native

end Pseudocode

import Pseudocode.Native.Text
import Pseudocode.Proofs.Outcome

/-!
Arrays as cells of the heap.

`Heap.setElement` is what a successful write to an array does. Each of the operations on
arrays is described by what it does to the elements of every array: a write changes one
element of one array (`Heap.items_setElement`), a new array leaves all others alone
(`Heap.items_newArray`). An action `Copies` when it gives an answer and does nothing but
make arrays; looking something up in an array is of this kind.
-/

namespace Pseudocode

namespace Heap

variable {h : Heap} {a b : ArrayId} {i : Nat} {v : Value}

/-! ### Positions -/

theorem position?_eq_some_iff {index : Int64} {length i : Nat} :
    position? index length = some i ↔ index.toInt = i ∧ i < length := by
  unfold position?
  split
  · rw [Option.some.injEq]
    omega
  · simp only [reduceCtorEq, false_iff]
    omega

theorem position?_eq_none_iff {index : Int64} {length : Nat} :
    position? index length = none ↔ index.toInt < 0 ∨ (length : Int) ≤ index.toInt := by
  unfold position?
  split
  · simp only [reduceCtorEq, false_iff]
    omega
  · simp only [true_iff]
    omega

/-! ### Writing an element -/

/-- Element `i` of the array `a` becomes `v`, if there is such an element. -/
def setElement (h : Heap) (a : ArrayId) (i : Nat) (v : Value) : Heap :=
  { h with arrays := h.arrays.modify a (·.setIfInBounds i v) }

theorem storeElement_of_lt {index : Int64} (position : index.toInt = i) (inside : i < (h.items a).size) :
    h.storeElement a index v = (.ok (), h.setElement a i v) := by
  have found : position? index (h.items a).size = some i := position?_eq_some_iff.mpr ⟨position, inside⟩
  simp only [storeElement, found]
  rfl

theorem storeElement_of_none {index : Int64} (outside : position? index (h.items a).size = none) :
    h.storeElement a index v = (.error (.indexOutOfBounds index (h.items a).size), h) := by
  simp only [storeElement, outside]

@[simp] theorem size_setElement : (h.setElement a i v).arrays.size = h.arrays.size := by
  simp [setElement]

/-- A write changes the array that is written to, and no other. -/
theorem items_setElement :
    (h.setElement a i v).items b = if b = a then (h.items a).setIfInBounds i v else h.items b := by
  simp only [items, items?, setElement, Array.getElem?_modify]
  by_cases same : b = a
  · subst same
    cases h.arrays[b]? <;> simp
  · rw [if_neg (Ne.symm same), if_neg same]

theorem items_setElement_self : (h.setElement a i v).items a = (h.items a).setIfInBounds i v := by
  rw [items_setElement, if_pos rfl]

theorem items_setElement_of_ne (other : b ≠ a) : (h.setElement a i v).items b = h.items b := by
  rw [items_setElement, if_neg other]

/-! ### New arrays -/

theorem items_newArray (xs : Array Value) :
    (h.newArray xs).2.items b = if b = h.arrays.size then xs else h.items b := by
  simp only [items, items?, newArray, Array.getElem?_push]
  split <;> rfl

theorem items_eq_empty (missing : h.arrays.size ≤ a) : h.items a = #[] := by
  simp [items, items?, missing]

theorem lt_size_of_items (element : i < (h.items a).size) : a < h.arrays.size := by
  apply Nat.lt_of_not_le
  intro missing
  rw [items_eq_empty missing] at element
  exact Nat.not_lt_zero i element

end Heap

/-! ### Reading an element -/

namespace Slice

variable {items : Array Value} {n : Int64} {i : Nat} {v : Value}

theorem elementAt_of_getElem? (same : n.toInt = i) (element : items[i]? = some v) :
    elementAt items n = .ok v := by
  obtain ⟨inside, -⟩ := Array.getElem?_eq_some_iff.mp element
  have found : Heap.position? n items.size = some i := Heap.position?_eq_some_iff.mpr ⟨same, inside⟩
  simp only [elementAt, found, Option.bind_some, element]

theorem elementAt_of_none (outside : Heap.position? n items.size = none) :
    elementAt items n = .error (.indexOutOfBounds n items.size) := by
  simp only [elementAt, outside, Option.bind_none]

end Slice

namespace Action

variable {m : Machine} {a : ArrayId} {n : Int64} {i : Nat} {v : Value}

theorem index_of_getElem? (same : n.toInt = i) (element : (m.heap.items a)[i]? = some v) :
    index (.array a) (.integer n) m = .done v m := by
  simp only [index, tryOfHeap, Slice.elementAt_of_getElem? same element]

theorem index_of_none (outside : Heap.position? n (m.heap.items a).size = none) :
    index (.array a) (.integer n) m =
      .failed (.unplaced (.indexOutOfBounds n (m.heap.items a).size)) m := by
  simp only [index, tryOfHeap, Slice.elementAt_of_none outside]

end Action

/-! ### Actions that only make arrays -/

/-- The second machine has arrays after those of the first, and nothing else is different. -/
def Machine.Copies (m m' : Machine) : Prop :=
  ∃ copies, m' = { m with heap := { m.heap with arrays := m.heap.arrays ++ copies } }

namespace Machine.Copies

variable {m m' m'' : Machine} {b : ArrayId}

theorem refl (m : Machine) : m.Copies m := ⟨#[], by simp⟩

theorem trans (first : m.Copies m') (second : m'.Copies m'') : m.Copies m'' := by
  obtain ⟨copies, rfl⟩ := first
  obtain ⟨more, rfl⟩ := second
  exact ⟨copies ++ more, by simp⟩

theorem items (copies : m.Copies m') (old : b < m.heap.arrays.size) :
    m'.heap.items b = m.heap.items b := by
  obtain ⟨copies, rfl⟩ := copies
  simp [Heap.items, Heap.items?, Array.getElem?_append_left old]

/-- What is not an array is where it was. -/
theorem rest (copies : m.Copies m') :
    m' = { m with heap := { m.heap with arrays := m'.heap.arrays } } := by
  obtain ⟨copies, rfl⟩ := copies
  rfl

end Machine.Copies

namespace Action

variable {α β : Type}

/-- The action ends without a crash, and all that it does is to make arrays. -/
structure Copies (x : Action α) : Prop where
  ended : ∀ m, (x m).Ended fun _ => False
  keeps : ∀ m, (x m).All m.Copies

namespace Copies

theorem pure (a : α) : Copies (Pure.pure a : Action α) := ⟨fun _ => trivial, .refl⟩

theorem fail (cause : Cause) : Copies (fail cause : Action α) := ⟨fun _ => trivial, .refl⟩

theorem ofExcept (verdict : Except Cause α) : Copies (ofExcept verdict) := by
  cases verdict with
  | ok a => exact pure a
  | error cause => exact fail cause

theorem tryOfHeap (f : Heap → Except Cause α) : Copies (tryOfHeap f) where
  ended := tryOfHeap_ended f
  keeps m := by
    unfold Action.tryOfHeap
    cases f m.heap <;> exact .refl m

theorem bind {x : Action α} {f : α → Action β} (first : Copies x) (second : ∀ a, Copies (f a)) :
    Copies (x >>= f) where
  ended m := bind_ended (first.ended m) fun a m' _ => (second a).ended m'
  keeps m := by
    apply all_bind (first.keeps m) (fun _ kept => kept)
    intro a m' kept
    exact ((second a).keeps m').imp fun _ => kept.trans

theorem orAt {x : Action α} (span : Span) (copies : Copies x) : Copies (orAt span x) where
  ended m := orAt_ended span (copies.ended m)
  keeps m := all_orAt span (copies.keeps m)

theorem newArray (items : Array Value) : Copies (newArray items) where
  ended _ := trivial
  keeps m := by
    change m.Copies _
    exact ⟨#[items], by simp⟩

theorem index (object i : Value) : Copies (index object i) := by
  unfold Action.index
  split
  · exact tryOfHeap _
  · exact ofExcept _
  · exact bind (tryOfHeap _) newArray
  · exact ofExcept _
  · exact fail _
  · exact fail _
  · exact fail _

theorem of_done {x : Action α} {a : α} {m m' : Machine} (copies : Copies x) (done : x m = .done a m') :
    m.Copies m' := by
  have kept := copies.keeps m
  rwa [done] at kept

/-- How an action of this kind ends. -/
theorem ends {x : Action α} (copies : Copies x) (m : Machine) :
    (∃ a m', x m = .done a m' ∧ m.Copies m') ∨ ∃ f m', x m = .failed f m' ∧ m.Copies m' := by
  have kept := copies.keeps m
  have without := copies.ended m
  cases ended : x m with
  | done a m' => exact .inl ⟨a, m', rfl, copies.of_done ended⟩
  | failed f m' =>
      rw [ended] at kept
      exact .inr ⟨f, m', rfl, kept⟩
  | crashed _ _ | exhausted =>
      rw [ended] at without
      exact without.elim

end Copies

end Action

end Pseudocode

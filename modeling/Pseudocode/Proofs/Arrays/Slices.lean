import Pseudocode.Native.Basic
import Pseudocode.Operator
import Pseudocode.Proofs.Arrays.Storage

/-!
Cutting texts and arrays.

There are several ways to take something out of a text or an array, each with its own check of
the bounds. All of them are described by the same relation (`Slice.Segment`), which says where the
elements stand; that they agree follows from it (`Action.cuts_agree`). The end of a substring
is a sum that may be too great for a word. It then counts as the greatest word, which is outside
every text that fits into memory.
-/

namespace Pseudocode

namespace Slice

variable {α : Type} {xs ys zs : List α} {start middle stop : Int}

/-- The elements of `xs` at the positions from `start` up to, not including, `stop` are `ys`. -/
def Segment (xs ys : List α) (start stop : Int) : Prop :=
  ∃ before after, xs = before ++ ys ++ after ∧ start = before.length ∧
    stop = before.length + ys.length

theorem Segment.unique (left : Segment xs ys start stop) (right : Segment xs zs start stop) : ys = zs := by
  obtain ⟨before, after, rfl, rfl, rfl⟩ := left
  obtain ⟨before', after', same, first, last⟩ := right
  rw [List.append_assoc, List.append_assoc] at same
  have rest := List.append_inj_right same (by omega)
  exact List.append_inj_left rest (by omega)

/-- Segments that meet make up a segment. -/
theorem Segment.append (left : Segment xs ys start middle) (right : Segment xs zs middle stop) :
    Segment xs (ys ++ zs) start stop := by
  obtain ⟨before, after, rfl, rfl, rfl⟩ := left
  obtain ⟨before', after', same, first, last⟩ := right
  rw [List.append_assoc before' zs after'] at same
  have rest := List.append_inj_right same (by rw [List.length_append]; omega)
  refine ⟨before, after', ?_, rfl, ?_⟩
  · rw [rest]
    simp only [List.append_assoc]
  · rw [List.length_append]
    omega

theorem Segment.bounds (segment : Segment xs ys start stop) :
    0 ≤ start ∧ start ≤ stop ∧ stop ≤ xs.length := by
  obtain ⟨before, after, rfl, rfl, rfl⟩ := segment
  simp only [List.length_append]
  omega

theorem segment_take {i j : Nat} (order : i ≤ j) (inside : j ≤ xs.length) :
    Segment xs (take i j xs) i j := by
  refine ⟨xs.take i, xs.drop j, ?_, ?_, ?_⟩
  · have middle : (xs.drop i).drop (j - i) = xs.drop j := by
      rw [List.drop_drop]
      congr 1
      omega
    rw [take, List.append_assoc, ← middle, List.take_append_drop, List.take_append_drop]
  · rw [List.length_take]
    omega
  · rw [take, List.length_take, List.length_take, List.length_drop]
    omega

theorem exists_segment_iff :
    (∃ ys, Segment xs ys start stop) ↔ 0 ≤ start ∧ start ≤ stop ∧ stop ≤ xs.length := by
  constructor
  · rintro ⟨ys, segment⟩
    exact segment.bounds
  · rintro ⟨nonneg, order, inside⟩
    obtain ⟨i, rfl⟩ := Int.eq_ofNat_of_zero_le nonneg
    obtain ⟨j, rfl⟩ := Int.eq_ofNat_of_zero_le (Int.le_trans nonneg order)
    exact ⟨_, segment_take (Int.ofNat_le.mp order) (Int.ofNat_le.mp inside)⟩

theorem segment_singleton_iff {x : α} :
    Segment xs [x] start (start + 1) ↔ ∃ i : Nat, start = i ∧ xs[i]? = some x := by
  constructor
  · rintro ⟨before, after, rfl, rfl, -⟩
    exact ⟨before.length, rfl, by simp⟩
  · rintro ⟨i, rfl, element⟩
    obtain ⟨inside, rfl⟩ := List.getElem?_eq_some_iff.mp element
    have segment := segment_take (Nat.le_succ i) inside
    have one : take i (i + 1) xs = [xs[i]] := by
      rw [take, Nat.add_sub_cancel_left, List.drop_eq_getElem_cons inside]
      rfl
    rwa [one] at segment

/-! ### The checks -/

theorem bounds_eq_ok_iff {a b : Int64} {n i j : Nat} :
    bounds a b n = .ok (i, j) ↔ a.toInt = i ∧ b.toInt = j ∧ i ≤ j ∧ j ≤ n := by
  unfold bounds
  split
  · simp only [reduceCtorEq, false_iff]
    omega
  · split
    · simp only [reduceCtorEq, false_iff]
      omega
    · split
      · simp only [reduceCtorEq, false_iff]
        omega
      · simp only [Except.ok.injEq, Prod.mk.injEq]
        omega

theorem segment_iff_bounds {a b : Int64} :
    Segment xs ys a.toInt b.toInt ↔ ∃ p, bounds a b xs.length = .ok p ∧ take p.1 p.2 xs = ys := by
  constructor
  · intro segment
    have limits := segment.bounds
    have first : a.toInt = a.toInt.toNat := by omega
    have last : b.toInt = b.toInt.toNat := by omega
    have order : a.toInt.toNat ≤ b.toInt.toNat := by omega
    have inside : b.toInt.toNat ≤ xs.length := by omega
    refine ⟨_, bounds_eq_ok_iff.mpr ⟨first, last, order, inside⟩, ?_⟩
    have taken := segment_take order inside
    rw [← first, ← last] at taken
    exact taken.unique segment
  · rintro ⟨p, checked, rfl⟩
    obtain ⟨first, last, order, inside⟩ := bounds_eq_ok_iff.mp checked
    rw [first, last]
    exact segment_take order inside

theorem map_eq_ok_iff {ε β γ : Type} {x : Except ε β} {f : β → γ} {c : γ} :
    x.map f = .ok c ↔ ∃ b, x = .ok b ∧ f b = c := by
  cases x <;> simp [Except.map]

theorem ofText_eq_ok_iff {s t : String} {a b : Int64} :
    ofText s a b = .ok t ↔ Segment s.toList t.toList a.toInt b.toInt := by
  rw [segment_iff_bounds, String.length_toList, ofText, map_eq_ok_iff]
  simp only [← String.toList_inj, String.toList_ofList]

theorem ofArray_eq_ok_iff {items slice : Array Value} {a b : Int64} :
    ofArray items a b = .ok slice ↔ Segment items.toList slice.toList a.toInt b.toInt := by
  rw [segment_iff_bounds, Array.length_toList, ofArray, map_eq_ok_iff]
  simp only [← Array.toList_inj, Array.toList_extract, take, List.extract_eq_take_drop]

/-- Looking an element up at an index. -/
theorem segment_iff_position {n : Int64} {x : α} :
    Segment xs [x] n.toInt (n.toInt + 1) ↔ (Heap.position? n xs.length).bind (xs[·]?) = some x := by
  rw [segment_singleton_iff, Option.bind_eq_some_iff]
  constructor
  · rintro ⟨i, same, element⟩
    obtain ⟨inside, -⟩ := List.getElem?_eq_some_iff.mp element
    exact ⟨i, Heap.position?_eq_some_iff.mpr ⟨same, inside⟩, element⟩
  · rintro ⟨i, found, element⟩
    exact ⟨i, (Heap.position?_eq_some_iff.mp found).1, element⟩

theorem charAt_eq_ok_iff {s t : String} {n : Int64} :
    charAt s n = .ok t ↔ Segment s.toList t.toList n.toInt (n.toInt + 1) := by
  have one : Segment s.toList t.toList n.toInt (n.toInt + 1) → ∃ c, t.toList = [c] := by
    rintro ⟨before, after, -, first, last⟩
    exact List.length_eq_one_iff.mp (by omega)
  have found : ∀ c, Segment s.toList [c] n.toInt (n.toInt + 1) ↔
      (Heap.position? n s.length).bind (s.toList[·]?) = some c := by
    intro c
    rw [segment_iff_position, String.length_toList]
  unfold charAt
  dsimp only
  constructor
  · intro done
    split at done
    · rename_i c there
      cases done
      rw [String.toList_singleton]
      exact (found c).mpr there
    · cases done
  · intro segment
    obtain ⟨c, single⟩ := one segment
    rw [single] at segment
    have same : t = String.singleton c := by
      rw [← String.toList_inj, single, String.toList_singleton]
    simp only [(found c).mp segment, same]

theorem elementAt_eq_ok_iff {items : Array Value} {n : Int64} {v : Value} :
    elementAt items n = .ok v ↔ Segment items.toList [v] n.toInt (n.toInt + 1) := by
  rw [segment_iff_position, Array.length_toList, elementAt]
  simp only [Array.getElem?_toList]
  cases (Heap.position? n items.size).bind (items[·]?) with
  | some w => simp
  | none => simp

end Slice

namespace Native

open Slice

theorem toInt_saturatingAdd {a b : Int64} (first : 0 ≤ a.toInt) (second : 0 ≤ b.toInt) :
    (saturatingAdd a b).toInt = min (a.toInt + b.toInt) Integer.greatest := by
  unfold saturatingAdd Integer.add?
  cases sum : Integer.narrow? (a.toInt + b.toInt) with
  | some n =>
      have exact := Integer.narrow?_eq_some_iff.mp sum
      have limits := Integer.toInt_bounds n
      rw [Option.getD_some]
      omega
  | none =>
      have beyond := Integer.narrow?_eq_none_iff.mp sum
      have greatest : (Int64.ofInt Integer.greatest).toInt = Integer.greatest := by decide
      rw [Option.getD_none, greatest]
      simp only [Integer.least] at beyond
      omega

theorem substring_eq_ok_iff {s : String} {a count : Int64} {v : Value}
    (fits : s.length < Integer.greatest) :
    substring (.text s) (.integer a) (.integer count) = .ok v ↔
      ∃ t, v = .text t ∧ Segment s.toList t.toList a.toInt (a.toInt + count.toInt) := by
  have checks : substring (.text s) (.integer a) (.integer count) =
      if a.toInt < 0 ∨ (s.length : Int) < a.toInt then .error (.indexOutOfBounds a s.length)
      else if count.toInt < 0 ∨ (s.length : Int) < (saturatingAdd a count).toInt then
        .error (.indexOutOfBounds (saturatingAdd a count) s.length)
      else .ok (.text (String.ofList ((s.toList.drop a.toInt.toNat).take count.toInt.toNat))) := rfl
  by_cases inside : 0 ≤ a.toInt ∧ 0 ≤ count.toInt ∧ a.toInt + count.toInt ≤ s.length
  · obtain ⟨first, second, enough⟩ := inside
    have stop := toInt_saturatingAdd first second
    have segment : Segment s.toList ((s.toList.drop a.toInt.toNat).take count.toInt.toNat) a.toInt
        (a.toInt + count.toInt) := by
      have length := s.length_toList
      have taken : Segment s.toList _ a.toInt.toNat ((a.toInt.toNat + count.toInt.toNat : Nat) : Int) :=
        segment_take (Nat.le_add_right ..) (by omega)
      rwa [take, Nat.add_sub_cancel_left, Int.natCast_add, Int.toNat_of_nonneg first,
        Int.toNat_of_nonneg second] at taken
    rw [checks, if_neg (by omega), if_neg (by omega), Except.ok.injEq]
    constructor
    · rintro rfl
      refine ⟨_, rfl, ?_⟩
      rwa [String.toList_ofList]
    · rintro ⟨t, rfl, segment'⟩
      rw [segment.unique segment', String.ofList_toList]
  · constructor
    · intro done
      rw [checks] at done
      split at done
      · cases done
      · split at done
        · cases done
        · rename_i first second
          have stop := toInt_saturatingAdd (a := a) (b := count) (by omega) (by omega)
          exact absurd ⟨by omega, by omega, by omega⟩ inside
    · rintro ⟨t, -, segment⟩
      have limits := segment.bounds
      rw [String.length_toList] at limits
      exact absurd ⟨by omega, by omega, by omega⟩ inside

end Native

/-! ### Writes to several arrays -/

namespace Heap

/-- The heap after some writes of a value at an index of an array. -/
def written (h : Heap) (writes : List (ArrayId × Int64 × Value)) : Heap :=
  writes.foldl (fun h (a, n, v) => (h.storeElement a n v).2) h

variable {h h' : Heap} {a b : ArrayId} {n : Int64} {v : Value}

theorem items_storeElement_of_ne (other : b ≠ a) : (h.storeElement a n v).2.items b = h.items b := by
  cases found : position? n (h.items a).size with
  | none => rw [storeElement_of_none found]
  | some i =>
      obtain ⟨same, inside⟩ := position?_eq_some_iff.mp found
      rw [storeElement_of_lt same inside, items_setElement_of_ne other]

theorem items_storeElement_congr (same : h.items a = h'.items a) :
    (h.storeElement a n v).2.items a = (h'.storeElement a n v).2.items a := by
  cases found : position? n (h.items a).size with
  | none =>
      have found' := found
      rw [same] at found'
      rw [storeElement_of_none found, storeElement_of_none found', same]
  | some i =>
      obtain ⟨position, inside⟩ := position?_eq_some_iff.mp found
      have inside' := inside
      rw [same] at inside'
      rw [storeElement_of_lt position inside, storeElement_of_lt position inside', items_setElement_self,
        items_setElement_self, same]

/-- Writes to another array make no difference to an array. -/
theorem items_written_filter (other : a ≠ b) (writes : List (ArrayId × Int64 × Value))
    (same : h.items a = h'.items a) :
    (h.written writes).items a = (h'.written (writes.filter (·.1 != b))).items a := by
  induction writes generalizing h h' with
  | nil => exact same
  | cons write writes ih =>
      obtain ⟨c, n, v⟩ := write
      change ((h.storeElement c n v).2.written writes).items a = _
      by_cases dropped : c = b
      · subst dropped
        rw [List.filter_cons_of_neg (by simp)]
        exact ih ((items_storeElement_of_ne other).trans same)
      · rw [List.filter_cons_of_pos (by simpa using dropped)]
        apply ih
        by_cases mine : a = c
        · subst mine
          exact items_storeElement_congr same
        · rw [items_storeElement_of_ne mine, items_storeElement_of_ne mine, same]

end Heap

/-! ### Texts and arrays in a program -/

namespace Action

open Slice

variable {s : String} {a : ArrayId} {i start stop count : Int64} {v : Value} {m m' : Machine}

theorem ofExcept_eq_done_iff {α : Type} {x : Except Cause α} {w : α} :
    ofExcept x m = .done w m' ↔ x = .ok w ∧ m' = m := by
  cases x with
  | error cause => exact ⟨nofun, fun ⟨ok, _⟩ => nomatch ok⟩
  | ok u =>
      change Outcome.done u m = .done w m' ↔ _
      rw [Outcome.done.injEq, Except.ok.injEq, eq_comm (a := m)]

theorem tryOfHeap_eq_done_iff {α : Type} {f : Heap → Except Cause α} {w : α} :
    tryOfHeap f m = .done w m' ↔ f m.heap = .ok w ∧ m' = m := by
  unfold tryOfHeap
  cases f m.heap with
  | error cause => exact ⟨nofun, fun ⟨ok, _⟩ => nomatch ok⟩
  | ok u => rw [Outcome.done.injEq, Except.ok.injEq, eq_comm (a := m)]

theorem ofExcept_text_iff {x : Except Cause String} {P : String → Prop} (texts : ∀ t, x = .ok t ↔ P t) :
    ofExcept (x.map .text) m = .done v m' ↔ m' = m ∧ ∃ t, v = .text t ∧ P t := by
  rw [ofExcept_eq_done_iff, map_eq_ok_iff]
  simp only [texts]
  constructor
  · rintro ⟨⟨t, good, rfl⟩, same⟩
    exact ⟨same, t, rfl, good⟩
  · rintro ⟨same, t, rfl, good⟩
    exact ⟨⟨t, good, rfl⟩, same⟩

/-- A slice of a text. -/
theorem text_slice_iff : index (.text s) (.range start stop) m = .done v m' ↔
    m' = m ∧ ∃ t, v = .text t ∧ Segment s.toList t.toList start.toInt stop.toInt :=
  ofExcept_text_iff fun _ => ofText_eq_ok_iff

theorem text_element_iff : index (.text s) (.integer i) m = .done v m' ↔
    m' = m ∧ ∃ t, v = .text t ∧ Segment s.toList t.toList i.toInt (i.toInt + 1) :=
  ofExcept_text_iff fun _ => charAt_eq_ok_iff

theorem substring_iff (fits : s.length < Integer.greatest) :
    callMethod .substring (.text s) [.integer start, .integer count] m = .done v m' ↔
      m' = m ∧ ∃ t, v = .text t ∧ Segment s.toList t.toList start.toInt (start.toInt + count.toInt) := by
  change ofExcept (Native.substring (.text s) (.integer start) (.integer count)) m = _ ↔ _
  rw [ofExcept_eq_done_iff, Native.substring_eq_ok_iff fits, and_comm]

theorem array_element_iff : index (.array a) (.integer i) m = .done v m' ↔
    m' = m ∧ Segment (m.heap.items a).toList [v] i.toInt (i.toInt + 1) := by
  change tryOfHeap (fun h => elementAt (h.items a) i) m = _ ↔ _
  rw [tryOfHeap_eq_done_iff, elementAt_eq_ok_iff, and_comm]

/-- A slice of an array is an array that is made for it. -/
theorem array_slice_iff : index (.array a) (.range start stop) m = .done v m' ↔
    ∃ slice : Array Value, Segment (m.heap.items a).toList slice.toList start.toInt stop.toInt ∧
      newArray slice m = .done v m' := by
  change (tryOfHeap (fun h => ofArray (h.items a) start stop) >>= newArray) m = _ ↔ _
  simp only [bind_apply, ← ofArray_eq_ok_iff, tryOfHeap]
  generalize ofArray (m.heap.items a) start stop = cut
  cases cut with
  | error cause => simp
  | ok slice => simp

theorem newArray_done (xs : Array Value) (m : Machine) :
    ∃ m', newArray xs m = .done (.array m.heap.arrays.size) m' ∧ m.Copies m' ∧
      m.heap.arrays.size < m'.heap.arrays.size ∧ m'.heap.items m.heap.arrays.size = xs := by
  refine ⟨_, rfl, ⟨#[xs], by simp⟩, ?_, ?_⟩
  · change _ < (m.heap.arrays.push xs).size
    rw [Array.size_push]
    exact Nat.lt_succ_self _
  · change (m.heap.newArray xs).2.items _ = xs
    rw [Heap.items_newArray, if_pos rfl]

theorem array_slice_of_segment {slice : Array Value}
    (segment : Segment (m.heap.items a).toList slice.toList start.toInt stop.toInt) :
    ∃ m', index (.array a) (.range start stop) m = .done (.array m.heap.arrays.size) m' ∧
      m'.heap.items m.heap.arrays.size = slice := by
  obtain ⟨m', made, -, -, new⟩ := newArray_done slice m
  exact ⟨m', array_slice_iff.mpr ⟨slice, segment, made⟩, new⟩

theorem array_slice_done (done : index (.array a) (.range start stop) m = .done v m') :
    v = .array m.heap.arrays.size ∧ m.Copies m' ∧ m.heap.arrays.size < m'.heap.arrays.size ∧
      Segment (m.heap.items a).toList (m'.heap.items m.heap.arrays.size).toList start.toInt stop.toInt := by
  obtain ⟨slice, segment, made⟩ := array_slice_iff.mp done
  obtain ⟨m'', made', copies, grown, new⟩ := newArray_done slice m
  rw [made] at made'
  cases made'
  rw [new]
  exact ⟨rfl, copies, grown, segment⟩

/-- How a text is cut. -/
structure CutsText (s : String) (m : Machine) : Prop where
  slice_succeeds : ∀ start stop, (∃ v m', index (.text s) (.range start stop) m = .done v m') ↔
    0 ≤ start.toInt ∧ start.toInt ≤ stop.toInt ∧ stop.toInt ≤ s.length
  slice : ∀ start stop v m', index (.text s) (.range start stop) m = .done v m' →
    m' = m ∧ ∃ t, v = .text t ∧ Segment s.toList t.toList start.toInt stop.toInt
  element_succeeds : ∀ i, (∃ v m', index (.text s) (.integer i) m = .done v m') ↔
    0 ≤ i.toInt ∧ i.toInt < s.length
  element : ∀ i next v m', index (.text s) (.integer i) m = .done v m' → next.toInt = i.toInt + 1 →
    index (.text s) (.range i next) m = .done v m'
  /-- The sum of the position and the length stops at the greatest integer. No text in memory
  is that long, so that a sum which has stopped is past the end like the exact one. -/
  substring_succeeds : s.length < Integer.greatest → ∀ start count,
    (∃ v m', callMethod .substring (.text s) [.integer start, .integer count] m = .done v m') ↔
      0 ≤ start.toInt ∧ 0 ≤ count.toInt ∧ start.toInt + count.toInt ≤ s.length
  substring : s.length < Integer.greatest → ∀ start count v m',
    callMethod .substring (.text s) [.integer start, .integer count] m = .done v m' →
      ∃ stop, stop.toInt = start.toInt + count.toInt ∧
        index (.text s) (.range start stop) m = .done v m'
  join : ∀ start middle stop v w m₁ m₂, index (.text s) (.range start middle) m = .done v m₁ →
    index (.text s) (.range middle stop) m = .done w m₂ →
      ∃ u, Operator.binary m.heap .add v w = .ok u ∧ index (.text s) (.range start stop) m = .done u m

/-- What takes a segment of a text succeeds when the bounds are inside the text and in order. -/
theorem succeeds_iff {x : Action Value} {first last : Int}
    (cuts : ∀ v m', x m = .done v m' ↔ m' = m ∧ ∃ t, v = .text t ∧ Segment s.toList t.toList first last) :
    (∃ v m', x m = .done v m') ↔ 0 ≤ first ∧ first ≤ last ∧ last ≤ s.length := by
  rw [← s.length_toList, ← exists_segment_iff]
  constructor
  · rintro ⟨v, m', done⟩
    obtain ⟨-, t, -, segment⟩ := (cuts v m').mp done
    exact ⟨_, segment⟩
  · rintro ⟨cs, segment⟩
    refine ⟨.text (String.ofList cs), m, (cuts _ _).mpr ⟨rfl, _, rfl, ?_⟩⟩
    rwa [String.toList_ofList]

theorem cutsText (s : String) (m : Machine) : CutsText s m := by
  constructor
  case slice_succeeds => exact fun start stop => succeeds_iff fun _ _ => text_slice_iff
  case slice => exact fun start stop v m' => text_slice_iff.mp
  case element_succeeds =>
    intro i
    rw [succeeds_iff fun _ _ => text_element_iff]
    omega
  case element =>
    intro i next v m' done same
    rw [text_slice_iff, same]
    exact text_element_iff.mp done
  case substring_succeeds =>
    intro fits start count
    rw [succeeds_iff fun _ _ => substring_iff fits]
    omega
  case substring =>
    intro fits start count v m' done
    obtain ⟨same, t, text, segment⟩ := (substring_iff fits).mp done
    have limits := segment.bounds
    rw [s.length_toList] at limits
    obtain ⟨stop, exact⟩ : ∃ stop : Int64, stop.toInt = start.toInt + count.toInt := by
      cases sum : Integer.narrow? (start.toInt + count.toInt) with
      | some stop => exact ⟨stop, Integer.narrow?_eq_some_iff.mp sum⟩
      | none =>
          have beyond := Integer.narrow?_eq_none_iff.mp sum
          simp only [Integer.least] at beyond
          omega
    refine ⟨stop, exact, ?_⟩
    rw [text_slice_iff, exact]
    exact ⟨same, t, text, segment⟩
  case join =>
    intro start middle stop v w m₁ m₂ left right
    obtain ⟨-, t, rfl, first⟩ := text_slice_iff.mp left
    obtain ⟨-, u, rfl, second⟩ := text_slice_iff.mp right
    refine ⟨.text (t ++ u), rfl, text_slice_iff.mpr ⟨rfl, _, rfl, ?_⟩⟩
    rw [String.toList_append]
    exact first.append second

theorem exists_slice_iff {xs : Array Value} {start stop : Int} :
    (∃ slice : Array Value, Segment xs.toList slice.toList start stop) ↔
      0 ≤ start ∧ start ≤ stop ∧ stop ≤ xs.size := by
  rw [← Array.length_toList, ← exists_segment_iff]
  constructor
  · rintro ⟨slice, segment⟩
    exact ⟨_, segment⟩
  · rintro ⟨ys, segment⟩
    exact ⟨ys.toArray, segment⟩

/-- How an array is cut. -/
structure CutsArray (a : ArrayId) (m : Machine) : Prop where
  slice_succeeds : ∀ start stop, (∃ v m', index (.array a) (.range start stop) m = .done v m') ↔
    0 ≤ start.toInt ∧ start.toInt ≤ stop.toInt ∧ stop.toInt ≤ (m.heap.items a).size
  /-- The slice is an array that there was not before, and nothing else has changed. -/
  slice : ∀ start stop v m', index (.array a) (.range start stop) m = .done v m' →
    v = .array m.heap.arrays.size ∧ m.Copies m' ∧
      Segment (m.heap.items a).toList (m'.heap.items m.heap.arrays.size).toList start.toInt stop.toInt
  element_succeeds : ∀ i, (∃ v m', index (.array a) (.integer i) m = .done v m') ↔
    0 ≤ i.toInt ∧ i.toInt < (m.heap.items a).size
  element : ∀ i next v m', index (.array a) (.integer i) m = .done v m' → next.toInt = i.toInt + 1 →
    m' = m ∧ ∃ b m'', index (.array a) (.range i next) m = .done (.array b) m'' ∧
      m''.heap.items b = #[v]
  join : ∀ start middle stop b c m₁ m₂, index (.array a) (.range start middle) m = .done (.array b) m₁ →
    index (.array a) (.range middle stop) m₁ = .done (.array c) m₂ →
      ∃ d m₃, index (.array a) (.range start stop) m₂ = .done (.array d) m₃ ∧
        m₃.heap.items d = m₂.heap.items b ++ m₂.heap.items c
  /-- Writes to the slice make no difference to the array, and writes to the array make no
  difference to the slice. -/
  apart : ∀ start stop b m', index (.array a) (.range start stop) m = .done (.array b) m' →
    b ≠ a ∧ ∀ writes,
      (m'.heap.written writes).items a = (m'.heap.written (writes.filter (·.1 != b))).items a ∧
        (m'.heap.written writes).items b = (m'.heap.written (writes.filter (·.1 != a))).items b

theorem cutsArray {a : Nat} (known : a < m.heap.arrays.size) : CutsArray a m := by
  constructor
  case slice_succeeds =>
    intro start stop
    rw [← exists_slice_iff]
    constructor
    · rintro ⟨v, m', done⟩
      obtain ⟨slice, segment, -⟩ := array_slice_iff.mp done
      exact ⟨slice, segment⟩
    · rintro ⟨slice, segment⟩
      obtain ⟨m', done, -⟩ := array_slice_of_segment segment
      exact ⟨_, m', done⟩
  case slice =>
    intro start stop v m' done
    obtain ⟨new, copies, -, segment⟩ := array_slice_done done
    exact ⟨new, copies, segment⟩
  case element_succeeds =>
    intro i
    constructor
    · rintro ⟨v, m', done⟩
      have limits := (array_element_iff.mp done).2.bounds
      rw [Array.length_toList] at limits
      omega
    · rintro ⟨nonneg, inside⟩
      have same : i.toInt = i.toInt.toNat := by omega
      have within : i.toInt.toNat < (m.heap.items a).size := by omega
      exact ⟨_, _, index_of_getElem? same (Array.getElem?_eq_getElem within)⟩
  case element =>
    intro i next v m' done same
    obtain ⟨unchanged, segment⟩ := array_element_iff.mp done
    rw [← same] at segment
    change Segment _ (#[v] : Array Value).toList _ _ at segment
    obtain ⟨m'', cut, new⟩ := array_slice_of_segment segment
    exact ⟨unchanged, _, m'', cut, new⟩
  case join =>
    intro start middle stop b c m₁ m₂ left right
    obtain ⟨new, copies, grown, first⟩ := array_slice_done left
    obtain ⟨new', copies', -, second⟩ := array_slice_done right
    cases new
    cases new'
    have whole : m₂.heap.items a = m.heap.items a := by
      rw [copies'.items (Nat.lt_trans known grown), copies.items known]
    rw [copies.items known] at second
    have segment := first.append second
    rw [← whole, ← copies'.items grown, ← Array.toList_append] at segment
    obtain ⟨m₃, cut, joined⟩ := array_slice_of_segment segment
    exact ⟨_, m₃, cut, joined⟩
  case apart =>
    intro start stop b m' done
    obtain ⟨new, -⟩ := array_slice_done done
    cases new
    have other : m.heap.arrays.size ≠ a := Nat.ne_of_gt known
    refine ⟨other, fun writes => ⟨?_, ?_⟩⟩
    · exact Heap.items_written_filter other.symm writes rfl
    · exact Heap.items_written_filter other writes rfl

/-- The ways to cut a text or an array agree. -/
theorem cuts_agree {a : Nat} (s : String) (known : a < m.heap.arrays.size) :
    CutsText s m ∧ CutsArray a m :=
  ⟨cutsText s m, cutsArray known⟩

/-- A text in which a character takes more than one byte, and an array that has itself as an
element. -/
theorem cuts_agree_beyond_bytes :
    let m : Machine := { heap := { arrays := #[#[.array 0, .null]] } }
    (0 < m.heap.arrays.size ∧ "naïve".length < Integer.greatest) ∧
      CutsText "naïve" m ∧ CutsArray 0 m := by
  intro m
  have known : 0 < m.heap.arrays.size := Nat.zero_lt_one
  have fits : "naïve".length < Integer.greatest := by decide
  exact ⟨⟨known, fits⟩, cuts_agree "naïve" known⟩

end Action

end Pseudocode

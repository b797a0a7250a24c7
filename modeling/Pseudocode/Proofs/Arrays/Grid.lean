import Mathlib.Logic.Function.Basic
import Pseudocode.Proofs.Arrays.Storage

/-!
Arrays of several dimensions.

The rows of a new array follow one another in the heap, each behind its own rows, so that the
place of a row can be computed from its indices (`rowAt`) and no two rows share a place
(`rowAt_injective`). A `Grid` is a heap with all rows of such an array at their places, and a
value at every tuple of indices. A new array is a grid of `null` (`makeArray_grid`), and a
write at one tuple of indices changes the value at this tuple alone (`Grid.setElement`).
-/

namespace Pseudocode

/-- As far as the indices go, they are inside the sizes. -/
def Within : List Nat → List Int64 → Prop
  | _, [] => True
  | [], _ :: _ => False
  | size :: sizes, i :: is => (0 ≤ i.toInt ∧ i.toInt < size) ∧ Within sizes is

/-- The number of arrays that an array of the given sizes consists of. -/
def rowCount : List Nat → Nat
  | [] => 0
  | size :: sizes => size * rowCount sizes + 1

/-- The row at some indices, when `first` is the array that is made first. -/
def rowAt : List Nat → Nat → List Int64 → Nat
  | [], first, _ => first
  | size :: sizes, first, [] => first + size * rowCount sizes
  | _ :: sizes, first, i :: is => rowAt sizes (first + i.toInt.toNat * rowCount sizes) is

/-- What stands at some indices: a row, or the value at a whole tuple of indices. -/
def partAt (values : List Int64 → Value) (sizes : List Nat) (first : Nat) (is : List Int64) : Value :=
  if is.length < sizes.length then .array (rowAt sizes first is) else values is

section

variable {sizes : List Nat} {first : Nat} {is js : List Int64} {n : Int64}

theorem partAt_of_lt {values : List Int64 → Value} (row : is.length < sizes.length) :
    partAt values sizes first is = .array (rowAt sizes first is) :=
  if_pos row

theorem partAt_of_eq {values : List Int64 → Value} (whole : is.length = sizes.length) :
    partAt values sizes first is = values is :=
  if_neg (Nat.not_lt_of_le (Nat.le_of_eq whole.symm))

@[simp] theorem within_nil (sizes : List Nat) : Within sizes [] := by
  cases sizes <;> trivial

theorem Within.prefix (within : Within sizes (is ++ js)) : Within sizes is := by
  induction is generalizing sizes with
  | nil => exact within_nil sizes
  | cons i is ih =>
      cases sizes with
      | nil => exact within
      | cons size sizes => exact ⟨within.1, ih within.2⟩

theorem Within.length_le (within : Within sizes is) : is.length ≤ sizes.length := by
  induction is generalizing sizes with
  | nil => exact Nat.zero_le _
  | cons i is ih =>
      cases sizes with
      | nil => exact within.elim
      | cons size sizes => exact Nat.succ_le_succ (ih within.2)

theorem Within.last_nonneg (within : Within sizes (is ++ [n])) : 0 ≤ n.toInt := by
  induction is generalizing sizes with
  | nil =>
      cases sizes with
      | nil => exact within.elim
      | cons size sizes => exact within.1.1
  | cons i is ih =>
      cases sizes with
      | nil => exact within.elim
      | cons size sizes => exact ih within.2

theorem block_le {i j : Nat} (lt : i < j) (first count : Nat) :
    first + i * count + count ≤ first + j * count := by
  have next : (i + 1) * count ≤ j * count := Nat.mul_le_mul_right count lt
  rw [Nat.add_one_mul] at next
  omega

theorem rowAt_bounds (first : Nat) (within : Within sizes is) (row : is.length < sizes.length) :
    first ≤ rowAt sizes first is ∧ rowAt sizes first is < first + rowCount sizes := by
  induction sizes generalizing first is with
  | nil => exact absurd row (Nat.not_lt_zero _)
  | cons size sizes ih =>
      cases is with
      | nil => exact ⟨Nat.le_add_right .., Nat.lt_succ_self _⟩
      | cons i is =>
          obtain ⟨inside, rest⟩ := within
          have below := ih (first + i.toInt.toNat * rowCount sizes) rest (Nat.lt_of_succ_lt_succ row)
          have block := block_le (i := i.toInt.toNat) (j := size) (by omega) first (rowCount sizes)
          simp only [rowAt, rowCount]
          omega

/-- The rows inside an array stand before it. -/
theorem rowAt_lt_whole {size : Nat} {i : Int64} (first : Nat) (inside : 0 ≤ i.toInt ∧ i.toInt < size)
    (within : Within sizes is) (row : is.length < sizes.length) :
    rowAt sizes (first + i.toInt.toNat * rowCount sizes) is < first + size * rowCount sizes := by
  have below := (rowAt_bounds (first + i.toInt.toNat * rowCount sizes) within row).2
  have block := block_le (i := i.toInt.toNat) (j := size) (by omega) first (rowCount sizes)
  omega

/-- The rows inside different elements of an array are different. -/
theorem rowAt_apart {i j : Int64} (lt : i.toInt.toNat < j.toInt.toNat) (left : Within sizes is)
    (right : Within sizes js) (isRow : is.length < sizes.length) (isRow' : js.length < sizes.length) :
    rowAt sizes (first + i.toInt.toNat * rowCount sizes) is <
      rowAt sizes (first + j.toInt.toNat * rowCount sizes) js := by
  have before := (rowAt_bounds (first + i.toInt.toNat * rowCount sizes) left isRow).2
  have behind := (rowAt_bounds (first + j.toInt.toNat * rowCount sizes) right isRow').1
  have block := block_le lt first (rowCount sizes)
  omega

theorem rowAt_injective (left : Within sizes is) (right : Within sizes js)
    (isRow : is.length < sizes.length) (isRow' : js.length < sizes.length)
    (same : rowAt sizes first is = rowAt sizes first js) : is = js := by
  induction sizes generalizing first is js with
  | nil => exact absurd isRow (Nat.not_lt_zero _)
  | cons size sizes ih =>
      cases is with
      | nil =>
          cases js with
          | nil => rfl
          | cons j js =>
              have lt := rowAt_lt_whole first right.1 right.2 (Nat.lt_of_succ_lt_succ isRow')
              exact absurd same.symm (Nat.ne_of_lt lt)
      | cons i is =>
          have below := Nat.lt_of_succ_lt_succ isRow
          cases js with
          | nil => exact absurd same (Nat.ne_of_lt (rowAt_lt_whole first left.1 left.2 below))
          | cons j js =>
              have below' := Nat.lt_of_succ_lt_succ isRow'
              rcases Nat.lt_trichotomy i.toInt.toNat j.toInt.toNat with lt | equal | lt
              · exact absurd same (Nat.ne_of_lt (rowAt_apart lt left.2 right.2 below below'))
              · have index : i = j := by
                  apply Int64.toInt_inj.mp
                  have left := left.1
                  have right := right.1
                  omega
                subst index
                rw [ih left.2 right.2 below below' same]
              · exact absurd same.symm (Nat.ne_of_lt (rowAt_apart lt right.2 left.2 below' below))

/-! ### Grids -/

/-- All rows of an array are at their places, and hold what stands at their indices. -/
structure Grid (h : Heap) (sizes : List Nat) (first : Nat) (values : List Int64 → Value) : Prop where
  room : first + rowCount sizes ≤ h.arrays.size
  inside : ∀ is n, Within sizes (is ++ [n]) →
    (h.items (rowAt sizes first is))[n.toInt.toNat]? = some (partAt values sizes first (is ++ [n]))
  outside : ∀ is n, Within sizes is → is.length < sizes.length → ¬Within sizes (is ++ [n]) →
    Heap.position? n (h.items (rowAt sizes first is)).size = none

namespace Grid

variable {h h' : Heap} {values : List Int64 → Value}

/-- Arrays that are made later make no difference. -/
theorem later (grid : Grid h sizes first values) (grown : h.arrays.size ≤ h'.arrays.size)
    (kept : ∀ b < h.arrays.size, h'.items b = h.items b) : Grid h' sizes first values := by
  have same : ∀ is, Within sizes is → is.length < sizes.length →
      h'.items (rowAt sizes first is) = h.items (rowAt sizes first is) := by
    intro is within row
    have below := (rowAt_bounds first within row).2
    exact kept _ (Nat.lt_of_lt_of_le below grid.room)
  constructor
  case room => exact Nat.le_trans grid.room grown
  case inside =>
    intro is n within
    have row := within.length_le
    rw [List.length_append] at row
    rw [same is within.prefix row]
    exact grid.inside is n within
  case outside =>
    intro is n within row outside
    rw [same is within row]
    exact grid.outside is n within row outside

theorem partAt_update_of_ne {v : Value} (other : js ≠ is) :
    partAt (Function.update values is v) sizes first js = partAt values sizes first js := by
  simp only [partAt, Function.update_of_ne other]

/-- A write at a whole tuple of indices changes what stands there, and nothing else. -/
theorem setElement (grid : Grid h sizes first values) (within : Within sizes (is ++ [n]))
    (whole : (is ++ [n]).length = sizes.length) (v : Value) :
    Grid (h.setElement (rowAt sizes first is) n.toInt.toNat v) sizes first
      (Function.update values (is ++ [n]) v) := by
  have isRow : is.length < sizes.length := by
    rw [List.length_append] at whole
    exact Nat.lt_of_succ_le (Nat.le_of_eq whole)
  constructor
  case room => exact Nat.le_trans grid.room (Nat.le_of_eq Heap.size_setElement.symm)
  case inside =>
    intro js k within'
    have isRow' : js.length < sizes.length := by
      have le := within'.length_le
      rwa [List.length_append] at le
    have before := grid.inside js k within'
    by_cases row : js = is
    · subst row
      rw [Heap.items_setElement_self, Array.getElem?_setIfInBounds]
      by_cases index : k = n
      · subst index
        obtain ⟨bound, -⟩ := Array.getElem?_eq_some_iff.mp before
        rw [if_pos rfl, if_pos bound, partAt_of_eq whole, Function.update_self]
      · have apart : n.toInt.toNat ≠ k.toInt.toNat := by
          have left := within.last_nonneg
          have right := within'.last_nonneg
          intro same
          exact index (Int64.toInt_inj.mp (by omega))
        have other : js ++ [k] ≠ js ++ [n] := by simpa using index
        rw [if_neg apart, before, partAt_update_of_ne other]
    · have apart : rowAt sizes first js ≠ rowAt sizes first is := fun same =>
        row (rowAt_injective within'.prefix within.prefix isRow' isRow same)
      have other : js ++ [k] ≠ is ++ [n] := fun same => row (List.append_inj_left' same rfl)
      rw [Heap.items_setElement_of_ne apart, before, partAt_update_of_ne other]
  case outside =>
    intro js k within' isRow' outside
    have size : ((h.setElement (rowAt sizes first is) n.toInt.toNat v).items (rowAt sizes first js)).size =
        (h.items (rowAt sizes first js)).size := by
      rw [Heap.items_setElement]
      split
      · rename_i same
        rw [Array.size_setIfInBounds, same]
      · rfl
    rw [size]
    exact grid.outside js k within' isRow' outside

end Grid

/-! ### New arrays -/

/-- What is made is an array of the given sizes, in arrays that are new, with `null`
everywhere. -/
structure MakesGrid (h : Heap) (sizes : List Nat) (made : Value × Heap) : Prop where
  value : made.1 = partAt (fun _ => .null) sizes h.arrays.size []
  grid : Grid made.2 sizes h.arrays.size (fun _ => .null)
  size : made.2.arrays.size = h.arrays.size + rowCount sizes
  kept : ∀ b < h.arrays.size, made.2.items b = h.items b

/-- Arrays of the given sizes are made one after the other, and added to those `before`. -/
structure MakesGrids (h : Heap) (sizes : List Nat) (count : Nat) (before : Array Value)
    (made : Array Value × Heap) : Prop where
  length : made.1.size = before.size + count
  old : ∀ i < before.size, made.1[i]? = before[i]?
  value : ∀ i < count, made.1[before.size + i]? =
    some (partAt (fun _ => .null) sizes (h.arrays.size + i * rowCount sizes) [])
  grid : ∀ i < count, Grid made.2 sizes (h.arrays.size + i * rowCount sizes) (fun _ => .null)
  size : made.2.arrays.size = h.arrays.size + count * rowCount sizes
  kept : ∀ b < h.arrays.size, made.2.items b = h.items b

/-- The first array is made before the rest, and added to those before. -/
theorem MakesGrid.next {h : Heap} {first : Value × Heap} {made : Array Value × Heap}
    {before : Array Value} {count : Nat} (one : MakesGrid h sizes first)
    (rest : MakesGrids first.2 sizes count (before.push first.1) made) :
    MakesGrids h sizes (count + 1) before made := by
  have next (i : Nat) : first.2.arrays.size + i * rowCount sizes =
      h.arrays.size + (i + 1) * rowCount sizes := by
    rw [one.size, Nat.add_one_mul]
    omega
  have grown : h.arrays.size ≤ first.2.arrays.size := by
    rw [one.size]
    exact Nat.le_add_right ..
  constructor
  case length =>
    rw [rest.length, Array.size_push]
    omega
  case old =>
    intro i bound
    rw [rest.old i (by rw [Array.size_push]; omega), Array.getElem?_push,
      if_neg (Nat.ne_of_lt bound)]
  case value =>
    intro i bound
    cases i with
    | zero =>
        rw [Nat.add_zero, rest.old before.size (by rw [Array.size_push]; omega),
          Array.getElem?_push_size, one.value, Nat.zero_mul, Nat.add_zero]
    | succ i =>
        have there := rest.value i (Nat.lt_of_succ_lt_succ bound)
        rw [Array.size_push, next] at there
        rw [← there]
        congr 1
        omega
  case grid =>
    intro i bound
    cases i with
    | zero =>
        rw [Nat.zero_mul, Nat.add_zero]
        refine one.grid.later ?_ rest.kept
        rw [rest.size]
        exact Nat.le_add_right ..
    | succ i =>
        rw [← next]
        exact rest.grid i (Nat.lt_of_succ_lt_succ bound)
  case size => rw [rest.size, next]
  case kept =>
    intro b old
    rw [rest.kept b (Nat.lt_of_lt_of_le old grown), one.kept b old]

theorem makeMany_grids {make : Heap → Value × Heap} (makes : ∀ h, MakesGrid h sizes (make h))
    (count : Nat) (before : Array Value) (h : Heap) :
    MakesGrids h sizes count before (Heap.makeMany make count before h) := by
  induction count generalizing before h with
  | zero =>
      constructor
      case length => rfl
      case old => exact fun _ _ => rfl
      case value => exact fun i bound => absurd bound (Nat.not_lt_zero i)
      case grid => exact fun i bound => absurd bound (Nat.not_lt_zero i)
      case size => simp [Heap.makeMany]
      case kept => exact fun _ _ => rfl
  | succ count ih => exact (makes h).next (ih (before.push (make h).1) (make h).2)

theorem partAt_null_cons (size : Nat) (i : Int64) :
    partAt (fun _ => .null) (size :: sizes) first (i :: is) =
      partAt (fun _ => .null) sizes (first + i.toInt.toNat * rowCount sizes) is := by
  simp only [partAt, rowAt, List.length_cons, Nat.succ_lt_succ_iff]

namespace MakesGrids

variable {h : Heap} {size : Nat} {made : Array Value × Heap}

/-- The new row comes after the rows it is made of. -/
theorem place (rows : MakesGrids h sizes size #[] made) :
    made.2.arrays.size = rowAt (size :: sizes) h.arrays.size [] :=
  rows.size

theorem items_whole (rows : MakesGrids h sizes size #[] made) :
    (made.2.newArray made.1).2.items (rowAt (size :: sizes) h.arrays.size []) = made.1 := by
  rw [Heap.items_newArray, if_pos rows.place.symm]

theorem items_below {i : Int64} (rows : MakesGrids h sizes size #[] made)
    (within : Within (size :: sizes) (i :: is)) (row : is.length < sizes.length) :
    (made.2.newArray made.1).2.items (rowAt (size :: sizes) h.arrays.size (i :: is)) =
      made.2.items (rowAt sizes (h.arrays.size + i.toInt.toNat * rowCount sizes) is) := by
  have lt := rowAt_lt_whole h.arrays.size within.1 within.2 row
  rw [← rows.size] at lt
  rw [Heap.items_newArray, rowAt, if_neg (Nat.ne_of_lt lt)]

/-- A row of grids is a grid. An index with nothing before it is one of the new row, and any
other one is inside the grid that the first index selects. -/
theorem newArray_grid (rows : MakesGrids h sizes size #[] made) :
    Grid (made.2.newArray made.1).2 (size :: sizes) h.arrays.size (fun _ => .null) := by
  constructor
  case room =>
    change _ ≤ (made.2.arrays.push made.1).size
    rw [Array.size_push, rows.size, rowCount]
    omega
  case inside =>
    intro is n within
    cases is with
    | nil =>
        obtain ⟨bound, -⟩ := within
        have there := rows.value n.toInt.toNat (by omega)
        rw [Array.size_empty, Nat.zero_add] at there
        rw [rows.items_whole, there, List.nil_append, partAt_null_cons]
    | cons i is =>
        have isRow := within.length_le
        rw [List.length_append] at isRow
        rw [rows.items_below within.prefix (Nat.lt_of_succ_lt_succ isRow), List.cons_append,
          partAt_null_cons]
        have bound := within.1
        exact (rows.grid i.toInt.toNat (by omega)).inside is n within.2
  case outside =>
    intro is n within isRow outside
    cases is with
    | nil =>
        have out : ¬(0 ≤ n.toInt ∧ n.toInt < size) := fun inside =>
          outside ⟨inside, within_nil sizes⟩
        have length : made.1.size = size := rows.length.trans (Nat.zero_add size)
        rw [rows.items_whole, length]
        exact Heap.position?_eq_none_iff.mpr (by omega)
    | cons i is =>
        have row := Nat.lt_of_succ_lt_succ isRow
        rw [rows.items_below within row]
        have bound := within.1
        exact (rows.grid i.toInt.toNat (by omega)).outside is n within.2 row fun inside =>
          outside ⟨bound, inside⟩

/-- A row of rows that are there, made after them. -/
theorem newArray (rows : MakesGrids h sizes size #[] made) :
    MakesGrid h (size :: sizes) (made.2.newArray made.1) := by
  constructor
  case value =>
    change Value.array made.2.arrays.size = _
    have row : ([] : List Int64).length < (size :: sizes).length := Nat.succ_pos _
    rw [rows.place, partAt_of_lt row]
  case grid => exact rows.newArray_grid
  case size =>
    change (made.2.arrays.push made.1).size = _
    rw [Array.size_push, rows.size]
    rfl
  case kept =>
    intro b old
    have lt : b < made.2.arrays.size := by
      rw [rows.size]
      exact Nat.lt_of_lt_of_le old (Nat.le_add_right ..)
    rw [Heap.items_newArray, if_neg (Nat.ne_of_lt lt), rows.kept b old]

end MakesGrids

/-- A new array is a grid of `null`. -/
theorem makeArray_grid (sizes : List Nat) (h : Heap) : MakesGrid h sizes (h.makeArray sizes) := by
  induction sizes generalizing h with
  | nil =>
      constructor
      case value => rfl
      case grid =>
        constructor
        case room => exact Nat.le_refl _
        case inside =>
          intro is n within
          exact absurd within.length_le (by simp)
        case outside => exact fun is n _ row => absurd row (Nat.not_lt_zero _)
      case size => rfl
      case kept => exact fun _ _ => rfl
  | cons size sizes ih => exact (makeMany_grids ih size #[] h).newArray

end

end Pseudocode

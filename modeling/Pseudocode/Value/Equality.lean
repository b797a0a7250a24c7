import Pseudocode.Heap

/-!
Equality of values in the language.

Integers and floats compare as numbers, arrays element by element, everything
else by `Value.same`. Arrays may contain each other and themselves: a pair of
arrays that has been met once is taken for equal when it is met again, so that
two arrays are equal exactly when no difference can be reached from them.
-/

namespace Pseudocode

namespace Value

/-- Equality of values that are not both arrays. -/
def scalarEqual : Value → Value → Bool
  | integer a, float b => Binary64.ofInt a.toInt == b
  | float a, integer b => Binary64.ofInt b.toInt == a
  | a, b => a.same b

end Value

namespace Heap

/-- The pairs of arrays of the heap. -/
def arrayPairs (h : Heap) : List (ArrayId × ArrayId) :=
  let ids := List.range h.arrays.size
  ids.flatMap fun a => ids.map fun b => (a, b)

/-- How many pairs of arrays of the heap have not been met. -/
def unmet (h : Heap) (met : List (ArrayId × ArrayId)) : Nat :=
  (h.arrayPairs.filter fun p => !met.contains p).length

theorem mem_arrayPairs {h : Heap} {a b : ArrayId} :
    (a, b) ∈ h.arrayPairs ↔ a < h.arrays.size ∧ b < h.arrays.size := by
  simp [arrayPairs]

theorem length_filter_lt {α : Type} {p q : α → Bool} {x : α} {xs : List α} (mem : x ∈ xs)
    (hp : p x = true) (hq : q x = false) (imp : ∀ y, q y = true → p y = true) :
    (xs.filter q).length < (xs.filter p).length := by
  induction xs with
  | nil => cases mem
  | cons y ys ih =>
      have le : (ys.filter q).length ≤ (ys.filter p).length := by
        clear ih mem
        induction ys with
        | nil => exact Nat.le_refl _
        | cons z zs ih =>
            by_cases hz : q z = true
            · simpa [List.filter_cons, hz, imp z hz] using ih
            · by_cases hw : p z = true <;> simp [hz, hw] <;> omega
      rcases List.mem_cons.mp mem with rfl | mem
      · simp [hp, hq]
        omega
      · have lt := ih mem
        by_cases hy : q y = true
        · simpa [List.filter_cons, hy, imp y hy] using lt
        · by_cases hw : p y = true <;> simp [hy, hw] <;> omega

theorem unmet_cons_lt {h : Heap} {met : List (ArrayId × ArrayId)} {a b : ArrayId}
    (ha : a < h.arrays.size) (hb : b < h.arrays.size) (fresh : met.contains (a, b) = false) :
    h.unmet ((a, b) :: met) < h.unmet met := by
  refine length_filter_lt (mem_arrayPairs.mpr ⟨ha, hb⟩) (by rw [fresh]; rfl) (by simp) ?_
  intro y hy
  simp only [List.contains_cons, Bool.not_eq_true', Bool.or_eq_false_iff] at hy
  rw [hy.2]
  rfl

/-- All the pairs are equal, given that the pairs `met` are. -/
def allEqual (h : Heap) (met : List (ArrayId × ArrayId)) : List (Value × Value) → Bool
  | [] => true
  | (.array a, .array b) :: rest =>
      if a = b then h.allEqual met rest
      else if _fresh : met.contains (a, b) = false then
        if _bounds : a < h.arrays.size ∧ b < h.arrays.size then
          let xs := h.items a
          let ys := h.items b
          xs.size == ys.size && h.allEqual ((a, b) :: met) (xs.toList.zip ys.toList ++ rest)
        else false
      else h.allEqual met rest
  | (u, v) :: rest => u.scalarEqual v && h.allEqual met rest
termination_by pending => (h.unmet met, pending.length)
decreasing_by
  · exact Prod.Lex.right _ (Nat.lt_succ_self _)
  · exact Prod.Lex.left _ _ (unmet_cons_lt _bounds.1 _bounds.2 _fresh)
  · exact Prod.Lex.right _ (Nat.lt_succ_self _)
  · exact Prod.Lex.right _ (Nat.lt_succ_self _)

/-- The equality of the language. -/
def valuesEqual (h : Heap) (a b : Value) : Bool := h.allEqual [] [(a, b)]

end Heap

end Pseudocode

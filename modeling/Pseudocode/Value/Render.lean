import Pseudocode.Decimal.Layout
import Pseudocode.Value.Equality

/-!
Values as text.

`Heap.display` is what `print` shows, `Heap.raw` what `printRaw` shows: there
texts stand between quotes. An array inside itself is shown as `[...]`; an
array that occurs twice without containing itself is written out twice.
-/

namespace Pseudocode

namespace Heap

/-- How many arrays of the heap are not among the given ones. -/
def others (h : Heap) (ancestors : List ArrayId) : Nat :=
  ((List.range h.arrays.size).filter fun a => !ancestors.contains a).length

theorem others_cons_lt {h : Heap} {ancestors : List ArrayId} {a : ArrayId}
    (ha : a < h.arrays.size) (fresh : ancestors.contains a = false) :
    h.others (a :: ancestors) < h.others ancestors := by
  refine length_filter_lt (List.mem_range.mpr ha) (by rw [fresh]; rfl) (by simp) ?_
  intro y hy
  simp only [List.contains_cons, Bool.not_eq_true', Bool.or_eq_false_iff] at hy
  rw [hy.2]
  rfl

/-- The text of a value that is neither a text nor an array. -/
def scalarText (h : Heap) : Value → String
  | .null => "null"
  | .integer n => Integer.text n
  | .float x => Decimal.floatText x
  | .boolean b => if b then "true" else "false"
  | .range start stop => Integer.text start ++ " to " ++ Integer.text stop
  | .function id => "<function " ++ h.routineName id ++ ">"
  | .procedure id => "<procedure " ++ h.routineName id ++ ">"
  | .classRef id => "<class " ++ h.className id ++ ">"
  | .object id => "<" ++ h.objectClass id ++ " instance>"
  | .nativeFunction f => "<native-function " ++ f.name ++ ">"
  | .nativeMethod m => "<native-method " ++ m.name ++ ">"
  | .nativeGetter g => "<native-getter " ++ g.name ++ ">"
  | v@(.reader _) | v@(.writer _) => "Type<" ++ v.kind.name ++ ">"
  | .text s => s
  | .array _ => ""

mutual

/-- The text of a value inside the arrays `ancestors`. -/
def render (h : Heap) (quoted : Bool) (ancestors : List ArrayId) : Value → String
  | .text s => if quoted then "\"" ++ s ++ "\"" else s
  | .array a =>
      if _fresh : ancestors.contains a = false then
        if _bound : a < h.arrays.size then
          "[" ++ ", ".intercalate (h.renderItems quoted (a :: ancestors) (h.items a).toList) ++ "]"
        else "[]"
      else "[...]"
  | v => h.scalarText v
termination_by (h.others ancestors, 0)
decreasing_by exact Prod.Lex.left _ _ (others_cons_lt _bound _fresh)

def renderItems (h : Heap) (quoted : Bool) (ancestors : List ArrayId) : List Value → List String
  | [] => []
  | v :: vs => h.render quoted ancestors v :: h.renderItems quoted ancestors vs
termination_by vs => (h.others ancestors, vs.length + 1)
decreasing_by
  · exact Prod.Lex.right _ (by simp)
  · exact Prod.Lex.right _ (by simp)

end

/-- The text of a value as `print` shows it. -/
def display (h : Heap) (v : Value) : String := h.render false [] v

/-- The text of a value as it is written in a program. -/
def raw (h : Heap) (v : Value) : String := h.render true [] v

end Heap

end Pseudocode

import Mathlib.Logic.Relation
import Pseudocode.Proofs.Arrays.Storage
import Pseudocode.Value.Render

/-!
Arrays inside themselves, as text.

`Heap.renderWithin` renders a value as long as arrays are nested no deeper than a limit, and
tells whether it has cut an array that is inside itself. No more depth is needed than there
are arrays (`Heap.renderWithin_eq_render`), because on the way to an element no array occurs
twice. `Heap.plainWithin` never cuts, and so it finds no end if an array that can be reached
contains itself. An array is cut in exactly this case, and in every other case the text is the
plain one (`Heap.rendering_cuts_cycles`).
-/

namespace Pseudocode

namespace Heap

/-- One value is an element of the other, which is an array. -/
def Holds (h : Heap) (u v : Value) : Prop := ∃ a, u = .array a ∧ v ∈ (h.items a).toList

/-- From the value an array can be reached that can be reached from itself. -/
def Endless (h : Heap) (v : Value) : Prop :=
  ∃ a, Relation.ReflTransGen h.Holds v (.array a) ∧ Relation.TransGen h.Holds (.array a) (.array a)

/-- The text of a value that is not an array. -/
def leafText (h : Heap) (quoted : Bool) : Value → String
  | .text s => if quoted then "\"" ++ s ++ "\"" else s
  | v => h.scalarText v

/-- The text of an array from the texts of its elements. -/
def arrayText (parts : List String) : String := "[" ++ ", ".intercalate parts ++ "]"

/-- The texts of some values, and whether any of them has been cut. -/
def renderAll (one : Value → Option (String × Bool)) : List Value → Option (List String × Bool)
  | [] => some ([], false)
  | v :: vs => do
      let (part, cut) ← one v
      let (parts, cuts) ← renderAll one vs
      return (part :: parts, cut || cuts)

/-- The text of a value inside the arrays `ancestors`, and whether it has been cut. There is no
text if arrays are nested deeper than the limit. -/
def renderWithin (h : Heap) (quoted : Bool) : Nat → List ArrayId → Value → Option (String × Bool)
  | 0, _, _ => none
  | depth + 1, ancestors, .array a =>
      if ancestors.contains a then some ("[...]", true)
      else do
        let (parts, cut) ← renderAll (renderWithin h quoted depth (a :: ancestors)) (h.items a).toList
        return (arrayText parts, cut)
  | _ + 1, _, v => some (h.leafText quoted v, false)

/-- The text of a value when all arrays are written out in full. There is none if arrays are
nested deeper than the limit. -/
def plainWithin (h : Heap) (quoted : Bool) : Nat → Value → Option String
  | 0, _ => none
  | depth + 1, .array a => do
      let parts ← (h.items a).toList.mapM (plainWithin h quoted depth)
      return arrayText parts
  | _ + 1, v => some (h.leafText quoted v)

variable {h : Heap} {quoted cut : Bool} {depth : Nat} {ancestors : List ArrayId} {a : ArrayId}
  {u v : Value} {text : String} {one : Value → Option (String × Bool)} {vs : List Value}

/-! ### Texts of several values -/

theorem renderAll_cons_eq_some {parts : List String} (done : renderAll one (v :: vs) = some (parts, cut)) :
    ∃ part cut₁ rest cut₂, one v = some (part, cut₁) ∧ renderAll one vs = some (rest, cut₂) ∧
      parts = part :: rest ∧ cut = (cut₁ || cut₂) := by
  obtain ⟨⟨part, cut₁⟩, first, done⟩ := Option.bind_eq_some_iff.mp done
  obtain ⟨⟨rest, cut₂⟩, second, done⟩ := Option.bind_eq_some_iff.mp done
  cases done
  exact ⟨part, cut₁, rest, cut₂, first, second, rfl, rfl⟩

theorem renderAll_eq_map {f : Value → String} (each : ∀ v ∈ vs, ∃ cut, one v = some (f v, cut)) :
    ∃ cut, renderAll one vs = some (vs.map f, cut) := by
  induction vs with
  | nil => exact ⟨false, rfl⟩
  | cons v vs ih =>
      obtain ⟨cut₁, first⟩ := each v (List.mem_cons_self ..)
      obtain ⟨cut₂, rest⟩ := ih fun w mem => each w (List.mem_cons_of_mem v mem)
      refine ⟨cut₁ || cut₂, ?_⟩
      rw [renderAll, first, rest]
      rfl

/-- Where one of several values has been cut. -/
theorem exists_of_renderAll_cut {parts : List String} (done : renderAll one vs = some (parts, true)) :
    ∃ v ∈ vs, ∃ part, one v = some (part, true) := by
  induction vs generalizing parts with
  | nil => cases done
  | cons v vs ih =>
      obtain ⟨part, cut₁, rest, cut₂, first, second, -, either⟩ := renderAll_cons_eq_some done
      cases cut₁ with
      | true => exact ⟨v, List.mem_cons_self .., part, first⟩
      | false =>
          rw [Bool.false_or] at either
          subst either
          obtain ⟨w, mem, found⟩ := ih second
          exact ⟨w, List.mem_cons_of_mem v mem, found⟩

theorem mapM_of_renderAll {parts : List String} {plain : Value → Option String}
    (each : ∀ v ∈ vs, ∀ part, one v = some (part, false) → plain v = some part)
    (done : renderAll one vs = some (parts, false)) : vs.mapM plain = some parts := by
  induction vs generalizing parts with
  | nil =>
      cases done
      rfl
  | cons v vs ih =>
      obtain ⟨part, cut₁, rest, cut₂, first, second, rfl, neither⟩ := renderAll_cons_eq_some done
      obtain ⟨rfl, rfl⟩ := Bool.or_eq_false_iff.mp neither.symm
      rw [List.mapM_cons, each v (List.mem_cons_self ..) part first,
        ih (fun w mem => each w (List.mem_cons_of_mem v mem)) second]
      rfl

theorem mapM_eq_none {plain : Value → Option String} (mem : v ∈ vs) (missing : plain v = none) :
    vs.mapM plain = none := by
  induction vs with
  | nil => cases mem
  | cons w vs ih =>
      rw [List.mapM_cons]
      rcases List.mem_cons.mp mem with rfl | mem
      · rw [missing]
        rfl
      · rw [ih mem]
        cases plain w <;> rfl

/-! ### The depth that is needed -/

theorem renderItems_eq_map (vs : List Value) :
    h.renderItems quoted ancestors vs = vs.map (h.render quoted ancestors) := by
  induction vs with
  | nil => rw [renderItems, List.map_nil]
  | cons v vs ih => rw [renderItems, ih, List.map_cons]

theorem render_array_of_fresh (fresh : ancestors.contains a = false) :
    h.render quoted ancestors (.array a) =
      arrayText ((h.items a).toList.map (h.render quoted (a :: ancestors))) := by
  rw [render, dif_pos fresh]
  split
  · rw [renderItems_eq_map]
    rfl
  · rename_i missing
    rw [items_eq_empty (Nat.le_of_not_lt missing)]
    rfl

/-- The text of a value comes out if the limit exceeds the number of arrays around which it
does not lie. -/
theorem renderWithin_eq_render (enough : h.others ancestors < depth) :
    ∃ cut, h.renderWithin quoted depth ancestors v = some (h.render quoted ancestors v, cut) := by
  induction depth generalizing ancestors v with
  | zero => exact absurd enough (Nat.not_lt_zero _)
  | succ depth ih =>
      cases v with
      | array a =>
          rw [renderWithin]
          by_cases repeated : ancestors.contains a = true
          · have old : ¬ancestors.contains a = false := by simpa using repeated
            rw [if_pos repeated, render, dif_neg old]
            exact ⟨true, rfl⟩
          · have fresh : ancestors.contains a = false := by simpa using repeated
            rw [if_neg repeated, render_array_of_fresh fresh]
            have each : ∀ v ∈ (h.items a).toList, ∃ cut,
                h.renderWithin quoted depth (a :: ancestors) v =
                  some (h.render quoted (a :: ancestors) v, cut) := by
              intro v mem
              have bound : a < h.arrays.size := by
                obtain ⟨i, inside, -⟩ := List.mem_iff_getElem.mp mem
                exact lt_size_of_items inside
              exact ih (Nat.lt_of_lt_of_le (others_cons_lt bound fresh) (Nat.le_of_lt_succ enough))
            obtain ⟨cut, done⟩ := renderAll_eq_map each
            rw [done]
            exact ⟨cut, rfl⟩
      | text s =>
          rw [render]
          exact ⟨false, rfl⟩
      | _ =>
          rw [render]
          · exact ⟨false, rfl⟩
          all_goals
            intro _ same
            cases same

theorem others_nil : h.others [] = h.arrays.size := by
  have all : ∀ a ∈ List.range h.arrays.size, (!([] : List ArrayId).contains a) = true := fun _ _ => rfl
  rw [others, List.filter_eq_self.mpr all, List.length_range]

/-! ### Cycles -/

theorem holds_of_mem (mem : v ∈ (h.items a).toList) : h.Holds (.array a) v := ⟨a, rfl, mem⟩

theorem Endless.head (holds : h.Holds u v) (endless : h.Endless v) : h.Endless u := by
  obtain ⟨a, reaches, cycle⟩ := endless
  exact ⟨a, .head holds reaches, cycle⟩

/-- What has no end is an array with an element that has none. -/
theorem Endless.exists_holds (endless : h.Endless u) : ∃ v, h.Holds u v ∧ h.Endless v := by
  obtain ⟨a, reaches, cycle⟩ := endless
  rcases Relation.ReflTransGen.cases_head reaches with rfl | ⟨v, holds, rest⟩
  · obtain ⟨v, holds, rest⟩ := Relation.TransGen.head'_iff.mp cycle
    exact ⟨v, holds, a, rest, cycle⟩
  · exact ⟨v, holds, a, rest, cycle⟩

theorem plainWithin_eq_none (endless : h.Endless v) (depth : Nat) : h.plainWithin quoted depth v = none := by
  induction depth generalizing v with
  | zero => rfl
  | succ depth ih =>
      obtain ⟨w, ⟨a, rfl, mem⟩, rest⟩ := endless.exists_holds
      rw [plainWithin, mapM_eq_none mem (ih rest)]
      rfl

/-- What has not been cut is written out in full. -/
theorem plainWithin_of_uncut (done : h.renderWithin quoted depth ancestors v = some (text, false)) :
    h.plainWithin quoted depth v = some text := by
  induction depth generalizing ancestors v text with
  | zero => cases done
  | succ depth ih =>
      cases v with
      | array a =>
          rw [renderWithin] at done
          split at done
          · cases done
          · obtain ⟨⟨parts, cut⟩, rendered, done⟩ := Option.bind_eq_some_iff.mp done
            cases done
            rw [plainWithin, mapM_of_renderAll (fun w mem part uncut => ih uncut) rendered]
            rfl
      | _ =>
          cases done
          rfl

/-- What has been cut has no end, if it is inside its ancestors. -/
theorem endless_of_cut (inside : ∀ b ∈ ancestors, Relation.TransGen h.Holds (.array b) v)
    (done : h.renderWithin quoted depth ancestors v = some (text, true)) : h.Endless v := by
  induction depth generalizing ancestors v text with
  | zero => cases done
  | succ depth ih =>
      cases v with
      | array a =>
          rw [renderWithin] at done
          split at done
          · rename_i repeated
            exact ⟨a, .refl, inside a (List.contains_iff_mem.mp repeated)⟩
          · obtain ⟨⟨parts, cut⟩, rendered, done⟩ := Option.bind_eq_some_iff.mp done
            cases done
            obtain ⟨w, mem, part, found⟩ := exists_of_renderAll_cut rendered
            have holds := holds_of_mem mem
            apply Endless.head holds
            apply ih _ found
            intro b old
            rcases List.mem_cons.mp old with rfl | old
            · exact .single holds
            · exact (inside b old).tail holds
      | _ => cases done

/-! ### Rendering -/

/-- How a value becomes a text, which has been cut or not. -/
structure Rendered (h : Heap) (quoted : Bool) (v : Value) (text : String) (cut : Bool) : Prop where
  /-- Arrays are never nested deeper than there are arrays, also where some contain themselves. -/
  ends : ∀ depth, h.arrays.size < depth → h.renderWithin quoted depth [] v = some (text, cut)
  cycles : cut = true ↔ ∃ a, Relation.ReflTransGen h.Holds v (.array a) ∧
    Relation.TransGen h.Holds (.array a) (.array a)
  plain : cut = false → ∀ depth, h.arrays.size < depth → h.plainWithin quoted depth v = some text
  endless : cut = true → ∀ depth, h.plainWithin quoted depth v = none

theorem rendered (h : Heap) (quoted : Bool) (v : Value) (cut : Bool) (cycles : cut = true ↔ h.Endless v) :
    Rendered h quoted v (h.render quoted [] v) cut := by
  have ends : ∀ depth, h.arrays.size < depth →
      h.renderWithin quoted depth [] v = some (h.render quoted [] v, cut) := by
    intro depth enough
    rw [← others_nil] at enough
    obtain ⟨found, done⟩ := renderWithin_eq_render enough
    rw [done]
    cases found with
    | true => rw [cycles.mpr (endless_of_cut (fun b old => absurd old List.not_mem_nil) done)]
    | false =>
        cases cut with
        | false => rfl
        | true =>
            have plain := plainWithin_of_uncut done
            rw [plainWithin_eq_none (cycles.mp rfl)] at plain
            cases plain
  constructor
  case ends => exact ends
  case cycles => exact cycles
  case plain =>
    rintro rfl depth enough
    exact plainWithin_of_uncut (ends depth enough)
  case endless => exact fun isCut => plainWithin_eq_none (cycles.mp isCut)

/-- Every value becomes a text, and arrays are cut only where they contain themselves. -/
theorem rendering_cuts_cycles (h : Heap) (v : Value) :
    ∃ cut, Rendered h false v (h.display v) cut ∧ Rendered h true v (h.raw v) cut := by
  by_cases endless : h.Endless v
  · exact ⟨true, rendered h false v true (by simpa), rendered h true v true (by simpa)⟩
  · exact ⟨false, rendered h false v false (by simpa), rendered h true v false (by simpa)⟩

/-- An array that stands twice in an array, and a third time inside itself. -/
example :
    let h : Heap := { arrays := #[#[.array 1, .array 1], #[.null, .array 1]] }
    h.renderWithin false 3 [] (.array 0) = some ("[[null, [...]], [null, [...]]]", true) := by
  rfl

end Heap

end Pseudocode

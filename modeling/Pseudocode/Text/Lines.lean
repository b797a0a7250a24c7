import Pseudocode.Text.Blank

/-!
Texts in parts, and texts as lines.

A separator ends a part and starts the next, so a text has one part more than
separators. The parts between line feeds are lines.
-/

namespace Pseudocode.Text

/-- The parts between separators. -/
def split (sep : Char) : List Char → List (List Char)
  | [] => [[]]
  | c :: cs =>
      match split sep cs with
      | [] => [[]]
      | part :: parts => if c = sep then [] :: part :: parts else (c :: part) :: parts

/-- The parts between line feeds. -/
def splitLines : List Char → List (List Char) := split '\n'

/-- The lines of a text, without the carriage returns at their ends. -/
def lines (s : String) : List String :=
  (splitLines s.toList).map fun l => String.ofList (dropEnd (· == '\r') l)

/-- Lines with a line feed between them. -/
def joinLines (lines : List String) : String := "\n".intercalate lines

section Split

variable {sep : Char}

theorem split_ne_nil (cs : List Char) : split sep cs ≠ [] := by
  cases cs with
  | nil => simp [split]
  | cons c cs =>
      simp only [split]
      split
      · simp
      · split <;> simp

/-- A part holds no separator. -/
theorem notMem_of_mem_split {cs part : List Char} (h : part ∈ split sep cs) : sep ∉ part := by
  induction cs generalizing part with
  | nil => simp_all [split]
  | cons c cs ih =>
      simp only [split] at h
      split at h
      · simp_all
      next first rest hs =>
        rw [hs] at ih
        split at h
        next =>
          rcases List.mem_cons.mp h with rfl | h
          · simp
          · exact ih h
        next hc =>
          rcases List.mem_cons.mp h with rfl | h
          · have hfirst : sep ∉ first := ih (by simp)
            simp [Ne.symm hc, hfirst]
          · exact ih (List.mem_cons_of_mem _ h)

/-- A text without separators is one part. -/
theorem split_of_notMem {cs : List Char} (none : sep ∉ cs) : split sep cs = [cs] := by
  induction cs with
  | nil => rfl
  | cons c cs ih =>
      simp only [List.mem_cons, not_or] at none
      simp only [split, ih none.2, if_neg (Ne.symm none.1)]

/-- The parts before a separator and those after it. -/
theorem split_append_cons (cs ds : List Char) :
    split sep (cs ++ sep :: ds) = split sep cs ++ split sep ds := by
  induction cs with
  | nil =>
      simp only [List.nil_append, split]
      split
      next h => exact absurd h (split_ne_nil ds)
      next part parts h => simp [h]
  | cons c cs ih =>
      simp only [List.cons_append, split, ih]
      split
      next h =>
        have none : split sep cs = [] := (List.append_eq_nil_iff.mp h).1
        exact absurd none (split_ne_nil cs)
      next part parts h =>
        cases hs : split sep cs with
        | nil => exact absurd hs (split_ne_nil cs)
        | cons first rest =>
            rw [hs, List.cons_append, List.cons.injEq] at h
            obtain ⟨rfl, rfl⟩ := h
            split <;> rfl

/-- Parts without separators are found again between the separators. -/
theorem split_intercalate {parts : List (List Char)} (some : parts ≠ [])
    (none : ∀ part ∈ parts, sep ∉ part) : split sep ([sep].intercalate parts) = parts := by
  induction parts with
  | nil => exact absurd rfl some
  | cons part parts ih =>
      have alone := split_of_notMem (none part List.mem_cons_self)
      cases parts with
      | nil => rw [List.intercalate_singleton, alone]
      | cons next rest =>
          rw [List.intercalate_cons_cons, List.append_assoc, List.singleton_append,
            split_append_cons, alone, ih (by simp) fun p mem => none p (List.mem_cons_of_mem _ mem)]
          rfl

end Split

end Pseudocode.Text

import Mathlib.Algebra.Order.BigOperators.Group.List
import Mathlib.Algebra.Order.Ring.Nat
import Pseudocode.Proofs.Pages.Labels

/-!
What colour changes on a page.

The control sequences of a page in colour can be deleted, and what is left is the listing of
its diagnostics, but the line numbers stand further to the left: their paint has been
counted as ten characters when they were aligned. So what is left is the page without colour
when no diagnostic has a label, and never otherwise (`colored_page_shows`).
-/

namespace Pseudocode

/-- Diagnostics in plain text. -/
def listingAll (source file : String) (longer : Nat) (ds : List Diagnostic) : String :=
  String.join (ds.map fun d => listing source file longer d ++ "\n")
    ++ (if ds.isEmpty then "" else Page.summary ds.length)

theorem Page.fades_renderAll (page : Page) {ds : List Diagnostic}
    (whole : page.color = true → page.TextsClean)
    (clean : page.color = true → ∀ d ∈ ds, d.TextsClean) :
    Fades page.color (page.renderAll ds)
      (listingAll page.source page.file (paintLength page.color) ds) := by
  have summary : Clean (summary ds.length) := by
    have plural : Clean (if ds.length = 1 then "" else "s") := by split <;> decide
    exact ((((by decide : Clean "error: aborting due to ").append (lacks_numeral rfl _)).append
      (by decide)).append plural).append (by decide)
  have last : Clean (if ds.isEmpty then "" else Page.summary ds.length) := by
    split
    · decide
    · exact summary
  refine (Fades.join fun d mem => ?_).bare last
  exact (page.fades_render whole fun colored => clean colored d mem).bare (by decide)

/-! ### Blanks that colour takes away -/

variable {source file : String}

/-- How many blanks before a line number are missing when it is taken for ten characters
longer. -/
def missingBlanks (width : Nat) (number : String) : Nat := min 10 (width + 1 - number.length)

theorem gutter_eq (width : Nat) (number : String) :
    gutter 0 width number = spaces (missingBlanks width number) ++ gutter 10 width number := by
  have sum : width + 1 - (number.length + 0) =
      missingBlanks width number + (width + 1 - (number.length + 10)) := by
    unfold missingBlanks
    omega
  have split (a b : Nat) : spaces (a + b) = spaces a ++ spaces b := by
    rw [spaces, List.replicate_add, String.ofList_append]
    rfl
  rw [gutter, gutter, sum, split, String.append_assoc, String.append_assoc, String.append_assoc]

/-- How many blanks are missing in the listing of a diagnostic. -/
def allMissing (source : String) (labels : List Label) : Nat :=
  ((labelledLines source labels).map fun line =>
    missingBlanks (numberWidth source labels) (Decimal.numeral line.number)).sum

theorem labelledLines_nil : labelledLines source [] = [] := by
  simp [labelledLines]

theorem length_join_map {α : Type} {f g : α → String} {missing : α → Nat} {xs : List α}
    (each : ∀ x ∈ xs, (f x).length = (g x).length + missing x) :
    (String.join (xs.map f)).length = (String.join (xs.map g)).length + (xs.map missing).sum := by
  rw [String.length_join, String.length_join, List.map_map, List.map_map, ← List.sum_map_add]
  exact congrArg List.sum (List.map_congr_left each)

theorem length_rows (source : String) (width : Nat) (line : LabelledLine) :
    (unlines (line.rows source 0 width)).length =
      (unlines (line.rows source 10 width)).length
        + missingBlanks width (Decimal.numeral line.number) := by
  have blanks (n : Nat) : (spaces n).length = n := by
    rw [spaces, String.length_ofList, List.length_replicate]
  simp only [LabelledLine.rows, unlines_cons, gutter_eq, String.length_append, blanks]
  omega

theorem length_excerptRows (source file : String) (labels : List Label) :
    (unlines (excerptRows source file 0 labels)).length =
      (unlines (excerptRows source file 10 labels)).length + allMissing source labels := by
  cases some : labels with
  | nil =>
      rw [allMissing, labelledLines_nil]
      rfl
  | cons l more =>
      have lines := length_join_map fun line (_ : line ∈ labelledLines source labels) =>
        length_rows source (numberWidth source labels) line
      rw [← some, unlines_excerptRows _ _ _ some, unlines_excerptRows _ _ _ some]
      simp only [String.length_append, lines, allMissing]
      omega

theorem length_listing (d : Diagnostic) :
    (listing source file 0 d).length =
      (listing source file 10 d).length + allMissing source d.labels := by
  have excerpt := length_excerptRows source file d.labels
  simp only [listing, diagnosticRows, unlines_cons, unlines_append, String.length_append, excerpt]
  omega

/-- At each line number a blank is missing. -/
theorem allMissing_eq_zero_iff {labels : List Label} :
    allMissing source labels = 0 ↔ labels = [] := by
  constructor
  · intro zero
    by_contra some
    obtain ⟨l, mem⟩ := List.exists_mem_of_ne_nil _ some
    obtain ⟨line, here, number, _⟩ :
        ∃ line ∈ labelledLines source labels, line.number = l.line source ∧ l ∈ line.labels :=
      l.exists_labelledLine mem
    have fits : Decimal.digitCount (l.line source) ≤ numberWidth source labels :=
      digitCount_le_numberWidth mem
    have none := List.sum_eq_zero_iff.mp zero _ (List.mem_map_of_mem here)
    rw [missingBlanks, length_numeral, number] at none
    omega
  · rintro rfl
    rw [allMissing, labelledLines_nil]
    rfl

/-- Two listings are the same if no blank is missing. -/
theorem listingAll_eq_iff {ds : List Diagnostic} :
    listingAll source file 10 ds = listingAll source file 0 ds ↔ ∀ d ∈ ds, d.labels = [] := by
  constructor
  · intro same d mem
    have each : ∀ d ∈ ds, (listing source file 0 d ++ "\n").length =
        (listing source file 10 d ++ "\n").length + allMissing source d.labels := by
      intro d _
      rw [String.length_append, String.length_append, length_listing]
      omega
    have all := length_join_map each
    have lengths := congrArg String.length same
    rw [listingAll, listingAll, String.length_append, String.length_append, all] at lengths
    have zero : (ds.map fun d => allMissing source d.labels).sum = 0 := by omega
    exact allMissing_eq_zero_iff.mp (List.sum_eq_zero_iff.mp zero _ (List.mem_map_of_mem mem))
  · intro none
    have each : ∀ d ∈ ds, listing source file 10 d ++ "\n" = listing source file 0 d ++ "\n" := by
      intro d mem
      rw [listing, listing, diagnosticRows, diagnosticRows, none d mem]
      rfl
    rw [listingAll, listingAll, List.map_congr_left each]

/-! ### Pages in colour -/

/-- Without its control sequences a page in colour is the listing of its diagnostics, but for
the places of the line numbers, and it is the page without colour only if none is shown. -/
theorem colored_page_shows {ds : List Diagnostic} (text : Clean source) (name : Clean file)
    (clean : ∀ d ∈ ds, d.TextsClean) :
    Page.renderAll ⟨source, file, false⟩ ds = listingAll source file 0 ds ∧
      deleteEscapes (Page.renderAll ⟨source, file, true⟩ ds) = listingAll source file 10 ds ∧
      (deleteEscapes (Page.renderAll ⟨source, file, true⟩ ds) =
        Page.renderAll ⟨source, file, false⟩ ds ↔ ∀ d ∈ ds, d.labels = []) := by
  have plain : Page.renderAll ⟨source, file, false⟩ ds = listingAll source file 0 ds :=
    (Page.fades_renderAll ⟨source, file, false⟩ nofun nofun).eq
  have fades : Fades true (Page.renderAll ⟨source, file, true⟩ ds) (listingAll source file 10 ds) :=
    Page.fades_renderAll ⟨source, file, true⟩ (fun _ => ⟨text, name⟩) fun _ => clean
  have colored := fades.deleteEscapes_eq
  refine ⟨plain, colored, ?_⟩
  rw [plain, colored]
  exact listingAll_eq_iff

/-- An error at the first character of a text. -/
def pointed : Diagnostic where
  kind := .syntactic
  message := "m"
  labels := [⟨.primary, ⟨0, 1⟩, "here"⟩]

theorem textsClean_pointed : ∀ d ∈ [pointed], d.TextsClean := by
  intro d mem
  obtain rfl := List.mem_singleton.mp mem
  exact ⟨by decide, by decide, by decide, by decide⟩

theorem colored_page_shows_pointed :
    Clean "x" ∧ Clean "f" ∧ (∀ d ∈ [pointed], d.TextsClean) ∧
      Page.renderAll ⟨"x", "f", false⟩ [pointed] = listingAll "x" "f" 0 [pointed] ∧
      deleteEscapes (Page.renderAll ⟨"x", "f", true⟩ [pointed]) = listingAll "x" "f" 10 [pointed] ∧
      (deleteEscapes (Page.renderAll ⟨"x", "f", true⟩ [pointed]) =
        Page.renderAll ⟨"x", "f", false⟩ [pointed] ↔ ∀ d ∈ [pointed], d.labels = []) := by
  have text : Clean "x" := by decide
  have name : Clean "f" := by decide
  exact ⟨text, name, textsClean_pointed, colored_page_shows text name textsClean_pointed⟩

/-- With colour the line number has lost the blank before it, and its bar is not below the
others. -/
theorem colored_number_shifted :
    Clean "x" ∧ Clean "f" ∧ (∀ d ∈ [pointed], d.TextsClean) ∧
      Page.renderAll ⟨"x", "f", false⟩ [pointed] = unlines
        ["syntax error: m", " --> f:1:1", "   |", " 1 | x", "   | ^ here", "   |", "",
          "error: aborting due to 1 error"] ∧
      deleteEscapes (Page.renderAll ⟨"x", "f", true⟩ [pointed]) = unlines
        ["syntax error: m", " --> f:1:1", "   |", "1 | x", "   | ^ here", "   |", "",
          "error: aborting due to 1 error"] ∧
      deleteEscapes (Page.renderAll ⟨"x", "f", true⟩ [pointed]) ≠
        Page.renderAll ⟨"x", "f", false⟩ [pointed] := by
  have text : Clean "x" := by decide
  have name : Clean "f" := by decide
  have plain : Page.renderAll ⟨"x", "f", false⟩ [pointed] = unlines
      ["syntax error: m", " --> f:1:1", "   |", " 1 | x", "   | ^ here", "   |", "",
        "error: aborting due to 1 error"] := by
    decide +kernel
  have colored : deleteEscapes (Page.renderAll ⟨"x", "f", true⟩ [pointed]) = unlines
      ["syntax error: m", " --> f:1:1", "   |", "1 | x", "   | ^ here", "   |", "",
        "error: aborting due to 1 error"] := by
    have fades : Fades true (Page.renderAll ⟨"x", "f", true⟩ [pointed])
        (listingAll "x" "f" 10 [pointed]) :=
      Page.fades_renderAll ⟨"x", "f", true⟩ (fun _ => ⟨text, name⟩) fun _ => textsClean_pointed
    rw [fades.deleteEscapes_eq]
    decide +kernel
  refine ⟨text, name, textsClean_pointed, plain, colored, ?_⟩
  rw [plain, colored]
  decide +kernel

end Pseudocode

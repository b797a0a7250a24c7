import Pseudocode.Proofs.Pages.Listing

/-!
No label is lost on a page.

A page without colour is the listing of its diagnostic: each line of the text on which a
label starts, once and in order, and below it a row for each label that starts there, with
its marks under the column at which it starts (`labels_shown`).
-/

namespace Pseudocode

/-- The lines that are shown of a text with labels: every line on which a label starts, in
order and each once, with its own text and with all labels that start on it. -/
structure ShowsLabels (source : String) (labels : List Label) (lines : List LabelledLine) :
    Prop where
  ordered : (lines.map LabelledLine.number).Pairwise (· < ·)
  starts : ∀ n, n ∈ lines.map LabelledLine.number ↔ ∃ l ∈ labels, l.line source = n
  own : ∀ line ∈ lines, (Text.lines source)[line.number - 1]? = some line.content
  all : ∀ line ∈ lines, line.labels = labels.filter fun l => l.line source == line.number

theorem labelledLines_showsLabels (source : String) (labels : List Label) :
    ShowsLabels source labels (labelledLines source labels) where
  ordered := labelledLines_ordered source labels
  starts _ := mem_numbers
  own _ mem := (mem_labelledLines.mp mem).2.1
  all _ mem := (mem_labelledLines.mp mem).2.2.1

/-- Numbers and marks stand behind margins of the same width. -/
theorem length_gutter {width : Nat} {number : String} (fits : number.length ≤ width + 1) :
    (gutter 0 width number).length = width + 4 := by
  have bar : " | ".length = 3 := rfl
  rw [gutter, String.length_append, String.length_append, spaces, String.length_ofList,
    List.length_replicate, bar]
  omega

variable {source : String} {labels : List Label}

theorem lacks_gutter {c : Char} (other : c ≠ ' ') (bar : c ≠ '|') {number : String}
    (lacks : Lacks c number) (longer width : Nat) : Lacks c (gutter longer width number) := by
  have last : Lacks c " | " := by simp [Lacks, other, bar]
  exact ((lacks_spaces other _).append lacks).append last

/-- Rows are rows: with labels whose remarks are on one line, none of them has a line feed. -/
theorem lacks_feed_of_mem_labelRows (oneLine : ∀ l ∈ labels, Lacks '\n' l.message) {row : String}
    (mem : row ∈ labelRows source 0 labels) : Lacks '\n' row := by
  obtain ⟨line, here, mem⟩ := List.mem_flatMap.mp mem
  obtain ⟨_, found, all, _⟩ := mem_labelledLines.mp here
  rcases List.mem_cons.mp mem with rfl | mem
  · have content : Lacks '\n' line.content := fun feed =>
      (mem_of_mem_lines (List.mem_of_getElem? found) feed).2 rfl
    exact (lacks_gutter (by decide) (by decide) (lacks_numeral rfl _) _ _).append content
  · obtain ⟨l, among, rfl⟩ := List.mem_map.mp mem
    rw [all] at among
    have message := oneLine l (List.mem_filter.mp among).1
    have marks : Lacks '\n' (String.ofList (List.replicate (l.markCount source) l.style.marker)) :=
      lacks_replicate (by cases l.style <;> decide) _
    have blank : Lacks '\n' " " := by decide
    exact (((lacks_gutter (by decide) (by decide) (by decide) _ _).append
      (lacks_spaces (by decide) _)).append marks).append (lacks_trimEnd (blank.append message))

/-- A page without colour shows every line on which a label starts, once and in order, and
every label below its line, with its marks under the column at which it starts. -/
theorem labels_shown (source file : String) (d : Diagnostic)
    (oneLine : ∀ l ∈ d.labels, '\n' ∉ l.message.toList) :
    Page.render ⟨source, file, false⟩ d = listing source file 0 d ∧
      ShowsLabels source d.labels (labelledLines source d.labels) ∧
      (∀ row ∈ labelRows source 0 d.labels, '\n' ∉ row.toList) ∧
      ∀ l ∈ d.labels, l.Stands source ∧
        (gutter 0 (numberWidth source d.labels) (Decimal.numeral (l.line source))).length =
          (gutter 0 (numberWidth source d.labels) "").length := by
  refine ⟨?_, labelledLines_showsLabels source d.labels,
    fun row mem => lacks_feed_of_mem_labelRows oneLine mem, fun l mem => ⟨l.stands source, ?_⟩⟩
  · exact (Page.fades_render ⟨source, file, false⟩ nofun nofun).eq
  · have fits : Decimal.digitCount (l.line source) ≤ numberWidth source d.labels :=
      digitCount_le_numberWidth mem
    rw [length_gutter (by rw [length_numeral]; omega), length_gutter (Nat.zero_le _)]

/-- A label that starts inside a character and ends on another line, one past the end of the
text, and one without a remark. -/
def crowded : Diagnostic where
  kind := .runtime
  message := "m"
  labels := [⟨.secondary, ⟨2, 9⟩, "to the end"⟩, ⟨.primary, ⟨99, 99⟩, "past it"⟩,
    ⟨.primary, ⟨0, 3⟩, ""⟩]

theorem labels_shown_crowded :
    (∀ l ∈ crowded.labels, '\n' ∉ l.message.toList) ∧
      labelRows "aé\r\nb" 0 crowded.labels =
        [" 1 | aé", "   |   - to the end", "   | ^^", " 2 | b", "   |  ^ past it"] ∧
      Page.render ⟨"aé\r\nb", "f", false⟩ crowded = listing "aé\r\nb" "f" 0 crowded ∧
      ShowsLabels "aé\r\nb" crowded.labels (labelledLines "aé\r\nb" crowded.labels) ∧
      (∀ row ∈ labelRows "aé\r\nb" 0 crowded.labels, '\n' ∉ row.toList) ∧
      ∀ l ∈ crowded.labels, l.Stands "aé\r\nb" ∧
        (gutter 0 (numberWidth "aé\r\nb" crowded.labels)
          (Decimal.numeral (l.line "aé\r\nb"))).length =
          (gutter 0 (numberWidth "aé\r\nb" crowded.labels) "").length := by
  have oneLine : ∀ l ∈ crowded.labels, '\n' ∉ l.message.toList := by decide
  exact ⟨oneLine, by decide +kernel, labels_shown _ "f" crowded oneLine⟩

end Pseudocode

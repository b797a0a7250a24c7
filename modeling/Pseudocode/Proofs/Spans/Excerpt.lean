import Mathlib.Data.List.Basic
import Pseudocode.Diagnostic

/-!
Diagnostics point at the place they are about.

A rendered diagnostic whose first label is a primary one has a line that names the
place of the label, and the line of the source on which the label starts, with a row
of marks below it (`Page.render_pointsAt`). That line is always there, because an
offset is never on a line that the text does not have.
-/

namespace Pseudocode

/-! ### Lines of a text -/

theorem Text.length_split (sep : Char) (cs : List Char) :
    (Text.split sep cs).length = cs.count sep + 1 := by
  induction cs with
  | nil => rfl
  | cons c cs ih =>
      unfold Text.split
      split
      next none => exact absurd none (Text.split_ne_nil cs)
      next part parts some =>
        rw [some] at ih
        by_cases same : c = sep
        · simp_all
        · simp_all

theorem Position.line_seek_le (offset : Nat) (p : Position) (cs : List Char) :
    (Position.seek offset p cs).line ≤ p.line + cs.count '\n' := by
  induction cs generalizing p with
  | nil => exact Nat.le_refl _
  | cons c cs ih =>
      unfold Position.seek
      split
      · exact Nat.le_add_right _ _
      · have rest := ih (p.next c)
        by_cases feed : c = '\n'
        · subst feed
          have next : (p.next '\n').line = p.line + 1 := rfl
          rw [List.count_cons_self]
          omega
        · have next : (p.next c).line = p.line := by simp [Position.next, feed]
          rw [List.count_cons_of_ne feed]
          omega

/-- An offset is on a line of the text. -/
theorem exists_line (source : String) (offset : Nat) :
    ∃ content, (Text.lines source)[(lineColumn source offset).1 - 1]? = some content := by
  have line := Position.line_seek_le offset .first source.toList
  have lines : (Text.lines source).length = source.toList.count '\n' + 1 := by
    rw [Text.lines, List.length_map]
    exact Text.length_split _ _
  have first : Position.first.line = 1 := rfl
  have inside : (lineColumn source offset).1 - 1 < (Text.lines source).length := by
    unfold lineColumn
    dsimp only
    omega
  exact ⟨_, List.getElem?_eq_getElem inside⟩

theorem mem_sortedNumbers {n : Nat} {ns : List Nat} (mem : n ∈ ns) : n ∈ sortedNumbers ns := by
  have sorted : n ∈ ns.mergeSort (· ≤ ·) := List.mem_mergeSort.mpr mem
  unfold sortedNumbers
  generalize ns.mergeSort (· ≤ ·) = ms at sorted
  induction ms with
  | nil => exact sorted
  | cons m ms ih =>
      rw [List.foldr_cons]
      split
      · rename_i head
        rcases List.mem_cons.mp sorted with rfl | mem
        · exact List.mem_of_head? head
        · exact ih mem
      · rcases List.mem_cons.mp sorted with rfl | mem
        · exact List.mem_cons_self
        · exact List.mem_cons_of_mem m (ih mem)

/-! ### Rows -/

theorem dropEnd_append {α : Type} {p : α → Bool} {x : α} (kept : p x = false) (xs ys : List α) :
    Text.dropEnd p (xs ++ x :: ys) = xs ++ x :: Text.dropEnd p ys := by
  unfold Text.dropEnd
  rw [List.reverse_append, List.reverse_cons, List.append_assoc, List.dropWhile_append]
  split
  · rename_i empty
    simp_all
  · simp

/-- Only what follows the last mark can be trimmed. -/
theorem trimEnd_marks (indent : Nat) {length : Nat} (some : 0 < length) {marker : Char}
    (graphic : Text.isBlank marker = false) (remark : String) :
    Text.trimEnd (spaces indent ++ String.ofList (List.replicate length marker) ++ remark) =
      spaces indent ++ String.ofList (List.replicate length marker) ++ Text.trimEnd remark := by
  obtain ⟨n, rfl⟩ := Nat.exists_eq_succ_of_ne_zero (Nat.ne_of_gt some)
  have row : (spaces indent ++ String.ofList (List.replicate (n + 1) marker) ++ remark).toList =
      (List.replicate indent ' ' ++ List.replicate n marker) ++ marker :: remark.toList := by
    simp [spaces, List.replicate_succ']
  rw [Text.trimEnd, row, dropEnd_append graphic, ← String.toList_inj]
  simp [spaces, Text.trimEnd, List.replicate_succ']

namespace Page

/-- The line that names the place where a span starts. -/
def placeLine (page : Page) (width : Nat) (s : Span) : String :=
  spaces width ++ Paint.gutter.apply page.color "-->" ++ " " ++ page.file ++ ":"
    ++ Decimal.numeral (lineColumn page.source s.start).1 ++ ":"
    ++ Decimal.numeral (lineColumn page.source s.start).2 ++ "\n"

/-- A line of the source text with its number. -/
def sourceLine (page : Page) (width line : Nat) (content : String) : String :=
  padLeft (width + 1) (Paint.gutter.apply page.color (Decimal.numeral line)) ++ " " ++ page.bar
    ++ " " ++ content ++ "\n"

/-- A row of marks below a line of the source text, with a remark. -/
def underline (page : Page) (width indent length : Nat) (remark : String) : String :=
  spaces (width + 1) ++ " " ++ page.bar ++ " "
    ++ Paint.error.apply page.color
      (spaces indent ++ String.ofList (List.replicate length '^') ++ remark) ++ "\n"

/-- The text has a line that names the place of the span, and further down the line of
the source on which the span starts, underlined from there by one mark at least. -/
def PointsAt (page : Page) (text : String) (s : Span) : Prop :=
  ∃ width before between content length remark after,
    (Text.lines page.source)[(lineColumn page.source s.start).1 - 1]? = some content ∧
      0 < length ∧
      text = before ++ "\n" ++ page.placeLine width s ++ between ++ "\n"
        ++ page.sourceLine width (lineColumn page.source s.start).1 content
        ++ page.underline width ((lineColumn page.source s.start).2 - 1) length remark ++ after

/-- The row of a primary label. -/
theorem labelRow_primary (page : Page) (width : Nat) {l : Label} (primary : l.style = .primary) :
    ∃ length remark, 0 < length ∧ page.labelRow width l =
      page.underline width ((lineColumn page.source l.span.start).2 - 1) length remark := by
  have some : 0 < (page.mark l).2 := by
    unfold Page.mark
    dsimp only
    split
    · omega
    · exact Nat.zero_lt_one
  have trimmed := trimEnd_marks ((lineColumn page.source l.span.start).2 - 1) some
    (by decide : Text.isBlank '^' = false) (" " ++ l.message)
  refine ⟨(page.mark l).2, Text.trimEnd (" " ++ l.message), some, ?_⟩
  unfold Page.labelRow Page.underline
  dsimp only
  rw [primary, ← trimmed, ← String.append_assoc]
  rfl

/-! ### Excerpts -/

/-- A text that ends with the end of a line. -/
def EndsLine (text : String) : Prop := ∃ line, text = line ++ "\n"

theorem EndsLine.append {a b : String} (first : EndsLine a) (rest : b = "" ∨ EndsLine b) :
    EndsLine (a ++ b) := by
  rcases rest with rfl | ⟨line, rfl⟩
  · rwa [String.append_empty]
  · exact ⟨a ++ line, by rw [String.append_assoc]⟩

theorem EndsLine.join {a : String} (first : EndsLine a) {texts : List String}
    (each : ∀ t ∈ texts, t = "" ∨ EndsLine t) : EndsLine (a ++ String.join texts) := by
  induction texts generalizing a with
  | nil => rwa [String.join_nil, String.append_empty]
  | cons t texts ih =>
      rw [String.join_cons, ← String.append_assoc]
      exact ih (first.append (each t List.mem_cons_self)) fun u mem =>
        each u (List.mem_cons_of_mem t mem)

theorem labelRow_endsLine (page : Page) (width : Nat) (l : Label) : EndsLine (page.labelRow width l) :=
  ⟨_, rfl⟩

theorem lineRows_endsLine (page : Page) (d : Diagnostic) (width line : Nat) :
    page.lineRows d width line = "" ∨ EndsLine (page.lineRows d width line) := by
  unfold Page.lineRows
  split
  · exact .inl rfl
  · refine .inr (EndsLine.join ⟨_, rfl⟩ ?_)
    intro row mem
    obtain ⟨l, _, rfl⟩ := List.mem_map.mp mem
    exact .inr (page.labelRow_endsLine width l)

/-- The row of the first label is the first below its line. -/
theorem lineRows_first (page : Page) {d : Diagnostic} {l : Label} {more : List Label}
    (labels : d.labels = l :: more) (width : Nat) :
    ∃ content after,
      (Text.lines page.source)[(lineColumn page.source l.span.start).1 - 1]? = some content ∧
      page.lineRows d width (lineColumn page.source l.span.start).1 =
        page.sourceLine width (lineColumn page.source l.span.start).1 content
          ++ page.labelRow width l ++ after := by
  obtain ⟨content, found⟩ := exists_line page.source l.span.start
  let others := more.filter fun m =>
    (lineColumn page.source m.span.start).1 == (lineColumn page.source l.span.start).1
  refine ⟨content, String.join (others.map (page.labelRow width)), found, ?_⟩
  unfold Page.lineRows Page.sourceLine
  rw [found, labels, List.filter_cons_of_pos (by simp)]
  dsimp only
  rw [List.map_cons, String.join_cons, ← String.append_assoc]

/-- The row above and below the lines of an excerpt. -/
def edge (page : Page) (width : Nat) : String := spaces (width + 1) ++ " " ++ page.bar ++ "\n"

theorem excerpt_eq (page : Page) {d : Diagnostic} {l : Label} {more : List Label}
    (labels : d.labels = l :: more) :
    ∃ (width : Nat) (lines : List Nat), (lineColumn page.source l.span.start).1 ∈ lines ∧
      page.excerpt d = page.placeLine width l.span ++ page.edge width
        ++ String.join (lines.map (page.lineRows d width)) ++ page.edge width := by
  let lines := sortedNumbers ((l :: more).map fun l => (lineColumn page.source l.span.start).1)
  have first : (lineColumn page.source l.span.start).1 ∈ lines :=
    mem_sortedNumbers (List.mem_map.mpr ⟨l, List.mem_cons_self, rfl⟩)
  refine ⟨Decimal.digitCount (lines.getLast?.getD 1), lines, first, ?_⟩
  unfold Page.excerpt
  rw [labels]
  rfl

/-- A diagnostic points at the place of its first label. -/
theorem render_pointsAt (page : Page) {d : Diagnostic} {l : Label} {more : List Label}
    (labels : d.labels = l :: more) (primary : l.style = .primary) :
    page.PointsAt (page.render d) l.span := by
  obtain ⟨width, lines, mem, excerpt⟩ := page.excerpt_eq labels
  obtain ⟨above, below, rfl⟩ := List.append_of_mem mem
  obtain ⟨content, rows, found, shown⟩ := page.lineRows_first labels width
  obtain ⟨length, remark, some, row⟩ := page.labelRow_primary width primary
  obtain ⟨between, ends⟩ : EndsLine
      (page.edge width ++ String.join (above.map (page.lineRows d width))) := by
    refine EndsLine.join ⟨_, rfl⟩ ?_
    intro text mem
    obtain ⟨line, _, rfl⟩ := List.mem_map.mp mem
    exact page.lineRows_endsLine d width line
  let after := rows ++ (String.join (below.map (page.lineRows d width)) ++ page.edge width)
  have joined : page.excerpt d =
      page.placeLine width l.span
        ++ (page.edge width ++ String.join (above.map (page.lineRows d width)))
        ++ (page.sourceLine width (lineColumn page.source l.span.start).1 content
          ++ page.underline width ((lineColumn page.source l.span.start).2 - 1) length remark ++ after) := by
    rw [excerpt, List.map_append, List.map_cons, String.join_append, String.join_cons, shown, row]
    simp only [after, String.append_assoc]
  rw [ends] at joined
  refine ⟨width, Paint.error.apply page.color (heading d) ++ ": "
    ++ Paint.strong.apply page.color d.message, between, content, length, remark,
    after ++ String.join (d.notes.map fun note =>
      "  " ++ Paint.gutter.apply page.color "=" ++ " " ++ note ++ "\n"), found, some, ?_⟩
  unfold Page.render
  rw [joined]
  simp only [String.append_assoc]

end Page

end Pseudocode

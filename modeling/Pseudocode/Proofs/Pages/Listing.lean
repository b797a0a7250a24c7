import Pseudocode.Proofs.Pages.Lines
import Pseudocode.Proofs.Pages.Paint

/-!
Diagnostics as rows of plain text.

`listing` shows a diagnostic under its text once more, without paint: it goes through the
lines of the text, writes those that have labels, and below each of them a row for each of
its labels. The page of a diagnostic, with the control sequences of its colours deleted, is
this listing (`Page.fades_render`), with one difference: a page aligns painted line numbers,
which are longer than the numbers are.
-/

namespace Pseudocode

/-! ### Listings -/

/-- The character that marks a label. -/
def LabelStyle.marker : LabelStyle → Char
  | primary => '^'
  | secondary => '-'

/-- The width of the longest number of a line on which a label starts. -/
def numberWidth (source : String) (labels : List Label) : Nat :=
  (labels.map fun l => Decimal.digitCount (l.line source)).max?.getD 0

/-- A line number, or nothing, and the bar. The number is aligned to the right as though it
were longer than it is. -/
def gutter (longer width : Nat) (number : String) : String :=
  spaces (width + 1 - (number.length + longer)) ++ number ++ " | "

/-- The number of marks below a label: its length, but one at least, and one only if it ends
on another line. -/
def Label.markCount (source : String) (l : Label) : Nat :=
  if (lineColumn source l.span.stop).1 = l.line source then
    max 1 ((lineColumn source l.span.stop).2 - l.column source)
  else 1

/-- The row that marks a label. -/
def Label.markRow (source : String) (width : Nat) (l : Label) : String :=
  gutter 0 width "" ++ spaces (l.column source - 1)
    ++ String.ofList (List.replicate (l.markCount source) l.style.marker)
    ++ Text.trimEnd (" " ++ l.message)

/-- A line of the text, and below it a row for each label that starts on it. -/
def LabelledLine.rows (source : String) (longer width : Nat) (line : LabelledLine) : List String :=
  (gutter longer width (Decimal.numeral line.number) ++ line.content)
    :: line.labels.map (Label.markRow source width)

/-- The lines of the text that have labels, with the labels below them. -/
def labelRows (source : String) (longer : Nat) (labels : List Label) : List String :=
  (labelledLines source labels).flatMap
    (LabelledLine.rows source longer (numberWidth source labels))

/-- The row that names the place of a label. -/
def Label.placeRow (source file : String) (width : Nat) (l : Label) : String :=
  spaces width ++ "--> " ++ file ++ ":" ++ Decimal.numeral (l.line source) ++ ":"
    ++ Decimal.numeral (l.column source)

/-- The row above and below the lines of the text. -/
def edgeRow (width : Nat) : String := spaces (width + 1) ++ " |"

/-- The rows that show a part of the text. -/
def excerptRows (source file : String) (longer : Nat) : List Label → List String
  | [] => []
  | first :: more =>
      let width := numberWidth source (first :: more)
      first.placeRow source file width :: edgeRow width
        :: (labelRows source longer (first :: more) ++ [edgeRow width])

/-- The rows of a diagnostic. -/
def diagnosticRows (source file : String) (longer : Nat) (d : Diagnostic) : List String :=
  (Page.heading d ++ ": " ++ d.message)
    :: (excerptRows source file longer d.labels ++ d.notes.map ("  = " ++ ·))

def unlines (rows : List String) : String := String.join (rows.map (· ++ "\n"))

/-- A diagnostic in plain text. -/
def listing (source file : String) (longer : Nat) (d : Diagnostic) : String :=
  unlines (diagnosticRows source file longer d)

/-! ### Rows one after the other -/

theorem unlines_cons (row : String) (rows : List String) :
    unlines (row :: rows) = row ++ "\n" ++ unlines rows := by
  rw [unlines, List.map_cons, String.join_cons]
  rfl

theorem unlines_append (rows more : List String) :
    unlines (rows ++ more) = unlines rows ++ unlines more := by
  rw [unlines, List.map_append, String.join_append]
  rfl

theorem unlines_map {α : Type} (f : α → String) (xs : List α) :
    unlines (xs.map f) = String.join (xs.map fun x => f x ++ "\n") := by
  rw [unlines, List.map_map]
  rfl

theorem unlines_flatMap {α : Type} (f : α → List String) (xs : List α) :
    unlines (xs.flatMap f) = String.join (xs.map fun x => unlines (f x)) := by
  induction xs with
  | nil => rfl
  | cons x xs ih =>
      rw [List.flatMap_cons, unlines_append, ih, List.map_cons, String.join_cons]

/-! ### Numbers -/

theorem digitCount_mono {n m : Nat} (le : n ≤ m) : Decimal.digitCount n ≤ Decimal.digitCount m := by
  have some : 0 < Decimal.digitCount m := Nat.length_toDigits_pos
  have bound := (Nat.length_toDigits_le_iff (b := 10) (n := m) (by decide) some).mp (Nat.le_refl _)
  exact (Nat.length_toDigits_le_iff (by decide) some).mpr (le.trans_lt bound)

theorem length_numeral (n : Nat) : (Decimal.numeral n).length = Decimal.digitCount n := by
  rw [Decimal.numeral, if_neg (by omega), String.length_ofList]
  rfl

theorem lacks_numeral {c : Char} (other : c.isDigit = false) (n : Nat) :
    Lacks c (Decimal.numeral n) := by
  intro mem
  rw [Decimal.numeral, if_neg (by omega), String.toList_ofList] at mem
  have digit := Nat.isDigit_of_mem_toDigits (by decide) (by decide) mem
  rw [other] at digit
  cases digit

theorem lacks_spaces {c : Char} (other : c ≠ ' ') (n : Nat) : Lacks c (spaces n) :=
  lacks_replicate other n

theorem lacks_trimEnd {c : Char} {s : String} (lacks : Lacks c s) : Lacks c (Text.trimEnd s) := by
  intro mem
  rw [Text.trimEnd, String.toList_ofList] at mem
  exact lacks (mem_of_mem_dropEnd mem)

variable {source file : String} {labels : List Label}

/-- No number of a line with labels is wider. -/
theorem digitCount_le_numberWidth {l : Label} (mem : l ∈ labels) :
    Decimal.digitCount (l.line source) ≤ numberWidth source labels := by
  have among : Decimal.digitCount (l.line source) ∈
      labels.map fun l => Decimal.digitCount (l.line source) :=
    List.mem_map.mpr ⟨l, mem, rfl⟩
  have le := List.le_max?_getD_of_mem among (k := 0)
  exact le

/-- The last of the numbers is the widest. -/
theorem digitCount_last (some : labels ≠ []) :
    Decimal.digitCount ((sortedNumbers (labels.map (Label.line source))).getLast?.getD 1) =
      numberWidth source labels := by
  obtain ⟨ordered, among⟩ := sortedNumbers_ordered (labels.map (Label.line source))
  have each {l : Label} (mem : l ∈ labels) :
      l.line source ∈ sortedNumbers (labels.map (Label.line source)) :=
    mem_sortedNumbers (List.mem_map.mpr ⟨l, mem, rfl⟩)
  obtain ⟨first, mem⟩ := List.exists_mem_of_ne_nil _ some
  obtain ⟨init, last, whole⟩ :=
    (List.eq_nil_or_concat _).resolve_left (List.ne_nil_of_mem (each mem))
  rw [whole, List.concat_eq_append] at ordered among each ⊢
  rw [List.getLast?_concat, Option.getD_some]
  refine Nat.le_antisymm ?_ ?_
  · obtain ⟨l, mem, same⟩ := List.mem_map.mp (among last (by simp))
    rw [← same]
    exact digitCount_le_numberWidth mem
  · unfold numberWidth
    cases widest : (labels.map fun l => Decimal.digitCount (l.line source)).max? with
    | none => exact Nat.zero_le _
    | some width =>
        obtain ⟨l, mem, rfl⟩ := List.mem_map.mp (List.max?_mem widest)
        refine digitCount_mono ?_
        rcases List.mem_append.mp (each mem) with earlier | here
        · exact ((List.pairwise_append.mp ordered).2.2 _ earlier last (by simp)).le
        · exact (List.mem_singleton.mp here).le

theorem unlines_excerptRows (source file : String) (longer : Nat) {l : Label} {more : List Label}
    (some : labels = l :: more) :
    unlines (excerptRows source file longer labels) =
      (l.placeRow source file (numberWidth source labels) ++ "\n")
        ++ (edgeRow (numberWidth source labels) ++ "\n")
        ++ String.join ((labelledLines source labels).map fun line =>
          unlines (line.rows source longer (numberWidth source labels)))
        ++ (edgeRow (numberWidth source labels) ++ "\n") := by
  have last (row : String) : unlines [row] = row ++ "\n" := by
    rw [unlines_cons]
    exact String.append_empty
  rw [some, excerptRows, unlines_cons, unlines_cons, unlines_append, labelRows, unlines_flatMap,
    last]
  simp only [String.append_assoc]

/-! ### The rows of a page -/

/-- Neither the text nor the name of its file has control sequences. -/
structure Page.TextsClean (page : Page) : Prop where
  source : Clean page.source
  file : Clean page.file

/-- No part of the diagnostic has control sequences. -/
structure Diagnostic.TextsClean (d : Diagnostic) : Prop where
  message : Clean d.message
  code : ∀ code ∈ d.code, Clean code
  labels : ∀ l ∈ d.labels, Clean l.message
  notes : ∀ note ∈ d.notes, Clean note

namespace Page

/-- How many characters paint adds to a line number. -/
def paintLength (color : Bool) : Nat := if color then 10 else 0

theorem length_paint (color : Bool) (s : String) :
    (Paint.gutter.apply color s).length = s.length + paintLength color := by
  cases color with
  | false => rfl
  | true => exact paint_laws.gutter s

variable {page : Page} {d : Diagnostic} {width : Nat}

theorem fades_bar (page : Page) : Fades page.color page.bar "|" :=
  fades_paint .gutter fun _ => by decide

theorem fades_edge : Fades page.color (page.edge width) (edgeRow width ++ "\n") := by
  have plain : edgeRow width ++ "\n" = spaces (width + 1) ++ " " ++ "|" ++ "\n" := by
    have bar : " |" = " " ++ "|" := by decide
    simp only [edgeRow, bar, String.append_assoc]
  rw [plain]
  exact (fades_clean _ (lacks_spaces (by decide) _)).bare (by decide)
    |>.append page.fades_bar |>.bare (by decide)

/-- What stands before the text of a row. -/
theorem fades_gutter {longer : Nat} {painted number : String}
    (paint : Fades page.color painted number) (size : painted.length = number.length + longer) :
    Fades page.color (padLeft (width + 1) painted ++ " " ++ page.bar ++ " ")
      (gutter longer width number) := by
  have plain : gutter longer width number =
      spaces (width + 1 - painted.length) ++ number ++ " " ++ "|" ++ " " := by
    have bar : " | " = " " ++ "|" ++ " " := by decide
    simp only [gutter, bar, size, String.append_assoc]
  rw [plain, padLeft]
  exact (fades_clean _ (lacks_spaces (by decide) _)).append paint |>.bare (by decide)
    |>.append page.fades_bar |>.bare (by decide)

/-- The line number is aligned with its paint. -/
theorem fades_sourceLine (n : Nat) {content : String} (clean : page.color = true → Clean content) :
    Fades page.color (page.sourceLine width n content)
      (gutter (paintLength page.color) width (Decimal.numeral n) ++ content ++ "\n") := by
  have paint : Fades page.color (Paint.gutter.apply page.color (Decimal.numeral n))
      (Decimal.numeral n) := fades_paint .gutter fun _ => lacks_numeral rfl n
  have number : Fades page.color _ (gutter (paintLength page.color) width (Decimal.numeral n)) :=
    fades_gutter paint (length_paint page.color _)
  exact (number.append (fades_self clean)).bare (by decide)

theorem mark_eq (page : Page) (l : Label) :
    page.mark l = (l.column page.source - 1, l.markCount page.source) := by
  unfold mark Label.markCount Label.column Label.line
  refine Prod.ext rfl ?_
  dsimp only
  by_cases same : (lineColumn page.source l.span.stop).1 = (lineColumn page.source l.span.start).1
  · rw [if_pos same]
    split <;> omega
  · rw [if_neg same, if_neg fun both => same both.1]

theorem markCount_pos (source : String) (l : Label) : 0 < l.markCount source := by
  unfold Label.markCount
  split <;> omega

/-- The marks stand under the column at which the label starts. -/
theorem fades_labelRow {l : Label} (clean : page.color = true → Clean l.message) :
    Fades page.color (page.labelRow width l) (l.markRow page.source width ++ "\n") := by
  obtain ⟨paint, row⟩ : ∃ paint : Paint, page.labelRow width l =
      padLeft (width + 1) "" ++ " " ++ page.bar ++ " "
        ++ paint.apply page.color (Text.trimEnd (spaces (l.column page.source - 1)
          ++ String.ofList (List.replicate (l.markCount page.source) l.style.marker)
          ++ (" " ++ l.message))) ++ "\n" := by
    unfold labelRow padLeft
    rw [mark_eq, String.append_empty, ← String.append_assoc]
    cases l.style with
    | primary => exact ⟨.error, rfl⟩
    | secondary => exact ⟨.gutter, rfl⟩
  have graphic : Text.isBlank l.style.marker = false := by
    cases l.style <;> decide
  have marks : Clean (String.ofList (List.replicate (l.markCount page.source) l.style.marker)) :=
    lacks_replicate (by cases l.style <;> decide) _
  have blank : Clean " " := by decide
  have plain : l.markRow page.source width ++ "\n" = gutter 0 width ""
      ++ (spaces (l.column page.source - 1)
        ++ String.ofList (List.replicate (l.markCount page.source) l.style.marker)
        ++ Text.trimEnd (" " ++ l.message)) ++ "\n" := by
    simp only [Label.markRow, String.append_assoc]
  have left : Fades page.color (padLeft (width + 1) "" ++ " " ++ page.bar ++ " ")
      (gutter 0 width "") := fades_gutter (fades_clean _ (by decide)) rfl
  rw [row, plain, trimEnd_marks _ (markCount_pos page.source l) graphic]
  refine (left.append (fades_paint paint fun colored => ?_)).bare (by decide)
  have remark := lacks_trimEnd (blank.append (clean colored))
  exact ((lacks_spaces (by decide) _).append marks).append remark

/-! ### Pages -/

/-- What a page shows of a line of the text. -/
def lineText (page : Page) (width : Nat) (line : LabelledLine) : String :=
  page.sourceLine width line.number line.content
    ++ String.join (line.labels.map (page.labelRow width))

/-- The line is always found. -/
theorem lineRows_eq {line : LabelledLine}
    (mem : line ∈ labelledLines page.source d.labels) :
    page.lineRows d width line.number = page.lineText width line := by
  obtain ⟨_, found, all, _⟩ := mem_labelledLines.mp mem
  unfold lineRows lineText
  rw [found, all]
  rfl

theorem excerpt_eq_lines {l : Label} {more : List Label} (labels : d.labels = l :: more) :
    page.excerpt d =
      page.placeLine (numberWidth page.source d.labels) l.span
        ++ page.edge (numberWidth page.source d.labels)
        ++ String.join ((labelledLines page.source d.labels).map
          (page.lineText (numberWidth page.source d.labels)))
        ++ page.edge (numberWidth page.source d.labels) := by
  have some : d.labels ≠ [] := by simp [labels]
  have lines : (labelledLines page.source d.labels).map
      (page.lineText (numberWidth page.source d.labels)) =
        (sortedNumbers (d.labels.map (Label.line page.source))).map
          (page.lineRows d (numberWidth page.source d.labels)) := by
    rw [sortedNumbers_eq, List.map_map]
    exact List.map_congr_left fun line mem => (lineRows_eq mem).symm
  rw [lines, ← digitCount_last some]
  unfold excerpt
  rw [labels]
  rfl

theorem fades_placeLine (width : Nat) (l : Label) (clean : page.color = true → Clean page.file) :
    Fades page.color (page.placeLine width l.span)
      (l.placeRow page.source page.file width ++ "\n") := by
  have plain : l.placeRow page.source page.file width ++ "\n" =
      spaces width ++ "-->" ++ " " ++ page.file ++ ":" ++ Decimal.numeral (l.line page.source)
        ++ ":" ++ Decimal.numeral (l.column page.source) ++ "\n" := by
    have arrow : "--> " = "-->" ++ " " := by decide
    simp only [Label.placeRow, arrow, String.append_assoc]
  have arrow : Fades page.color (Paint.gutter.apply page.color "-->") "-->" :=
    fades_paint .gutter fun _ => by decide
  rw [plain]
  exact (fades_clean _ (lacks_spaces (by decide) _)).append arrow |>.bare (by decide)
    |>.append (fades_self clean) |>.bare (by decide) |>.bare (lacks_numeral rfl _)
    |>.bare (by decide) |>.bare (lacks_numeral rfl _) |>.bare (by decide)

theorem fades_lineText (width : Nat) {line : LabelledLine}
    (mem : line ∈ labelledLines page.source d.labels)
    (whole : page.color = true → page.TextsClean) (clean : page.color = true → d.TextsClean) :
    Fades page.color (page.lineText width line)
      (unlines (line.rows page.source (paintLength page.color) width)) := by
  obtain ⟨_, found, all, _⟩ := mem_labelledLines.mp mem
  rw [LabelledLine.rows, unlines_cons, unlines_map]
  refine (fades_sourceLine line.number fun colored => ?_).append (Fades.join fun l here => ?_)
  · intro escape
    exact (whole colored).source (mem_of_mem_lines (List.mem_of_getElem? found) escape).1
  · rw [all] at here
    exact fades_labelRow fun colored => (clean colored).labels l (List.mem_filter.mp here).1

theorem fades_excerpt (whole : page.color = true → page.TextsClean)
    (clean : page.color = true → d.TextsClean) :
    Fades page.color (page.excerpt d)
      (unlines (excerptRows page.source page.file (paintLength page.color) d.labels)) := by
  cases labels : d.labels with
  | nil =>
      have nothing : page.excerpt d = "" := by
        unfold excerpt
        rw [labels]
      rw [nothing]
      exact fades_clean _ (by decide : Clean "")
  | cons l more =>
      have lines := Fades.join fun line (mem : line ∈ labelledLines page.source d.labels) =>
        fades_lineText (numberWidth page.source d.labels) mem whole clean
      have place := fades_placeLine (numberWidth page.source d.labels) l fun colored =>
        (whole colored).file
      rw [excerpt_eq_lines labels, ← labels, unlines_excerptRows _ _ _ labels]
      exact ((place.append fades_edge).append lines).append fades_edge

/-- A page shows as the listing of its diagnostic. -/
theorem fades_render (page : Page) (whole : page.color = true → page.TextsClean)
    (clean : page.color = true → d.TextsClean) :
    Fades page.color (page.render d)
      (listing page.source page.file (paintLength page.color) d) := by
  have title : page.color = true → Clean (heading d) := by
    intro colored
    have kind : Clean d.kind.title := by cases d.kind <;> decide
    unfold heading
    cases code : d.code with
    | none => exact kind
    | some code' =>
        exact ((kind.append (by decide)).append ((clean colored).code _ code)).append (by decide)
  have notes : Fades page.color
      (String.join (d.notes.map fun note =>
        "  " ++ Paint.gutter.apply page.color "=" ++ " " ++ note ++ "\n"))
      (unlines (d.notes.map ("  = " ++ ·))) := by
    rw [unlines_map]
    refine Fades.join fun note mem => ?_
    have plain : "  = " ++ note ++ "\n" = "  " ++ "=" ++ " " ++ note ++ "\n" := rfl
    have bullet : Fades page.color (Paint.gutter.apply page.color "=") "=" :=
      fades_paint .gutter fun _ => by decide
    rw [plain]
    exact (fades_clean _ (by decide)).append bullet |>.bare (by decide)
      |>.append (fades_self fun colored => (clean colored).notes note mem) |>.bare (by decide)
  have message : Fades page.color (Paint.strong.apply page.color d.message) d.message :=
    fades_paint .strong fun colored => (clean colored).message
  rw [listing, diagnosticRows, unlines_cons, unlines_append, ← String.append_assoc]
  exact (fades_paint .error title).bare (by decide) |>.append message |>.bare (by decide)
    |>.append (fades_excerpt whole clean) |>.append notes

end Page

end Pseudocode

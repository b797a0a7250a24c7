import Mathlib.Data.List.Sort
import Pseudocode.Proofs.Spans.Excerpt
import Pseudocode.Proofs.Spans.Places

/-!
The lines of a text that have labels.

A label is about an offset, and a page shows lines. The line of an offset is the part
between line feeds in which the offset stands (`splitLines_getElem?`), so every label is on
a line that the text has (`Label.stands`). The numbers of these lines, sorted and each once,
are those of the lines met on a walk through the text (`sortedNumbers_eq`).
-/

namespace Pseudocode

/-! ### Characters of lines -/

theorem mem_of_mem_dropEnd {α : Type} {p : α → Bool} {x : α} {xs : List α}
    (mem : x ∈ Text.dropEnd p xs) : x ∈ xs := by
  unfold Text.dropEnd at mem
  exact List.mem_reverse.mp ((List.dropWhile_sublist p).subset (List.mem_reverse.mp mem))

theorem mem_of_mem_split {sep c : Char} {cs part : List Char} (parts : part ∈ Text.split sep cs)
    (mem : c ∈ part) : c ∈ cs := by
  induction cs generalizing part with
  | nil =>
      obtain rfl := List.mem_singleton.mp parts
      exact mem
  | cons d cs ih =>
      unfold Text.split at parts
      split at parts
      next none => exact absurd none (Text.split_ne_nil cs)
      next first rest whole =>
        rw [whole] at ih
        split at parts
        · rcases List.mem_cons.mp parts with rfl | later
          · cases mem
          · exact List.mem_cons_of_mem d (ih later mem)
        · rcases List.mem_cons.mp parts with rfl | later
          · rcases List.mem_cons.mp mem with rfl | mem
            · exact List.mem_cons_self
            · exact List.mem_cons_of_mem d (ih List.mem_cons_self mem)
          · exact List.mem_cons_of_mem d (ih (List.mem_cons_of_mem first later) mem)

/-- A line holds characters of its text, but no line feed. -/
theorem mem_of_mem_lines {source content : String} {c : Char} (line : content ∈ Text.lines source)
    (mem : c ∈ content.toList) : c ∈ source.toList ∧ c ≠ '\n' := by
  obtain ⟨part, parts, rfl⟩ := List.mem_map.mp line
  rw [String.toList_ofList] at mem
  have inside := mem_of_mem_dropEnd mem
  refine ⟨mem_of_mem_split parts inside, ?_⟩
  rintro rfl
  exact Text.notMem_of_mem_split parts inside

/-! ### The line of an offset -/

theorem splitLines_cons_feed (before after : List Char) :
    Text.splitLines (before ++ '\n' :: after) = Text.splitLines before ++ Text.splitLines after :=
  Text.split_append_cons before after

/-- A text starts with the rest of its first line. -/
theorem splitLines_head (before after : List Char) (inside : '\n' ∉ before) :
    (Text.splitLines (before ++ after))[0]? = some (before ++ after.takeWhile (· != '\n')) := by
  have first : '\n' ∉ before ++ after.takeWhile (· != '\n') := by
    intro mem
    rcases List.mem_append.mp mem with mem | mem
    · exact inside mem
    · simpa using List.mem_takeWhile_imp mem
  have parts : before ++ after =
      (before ++ after.takeWhile (· != '\n')) ++ after.dropWhile (· != '\n') := by
    rw [List.append_assoc, List.takeWhile_append_dropWhile]
  cases rest : after.dropWhile (· != '\n') with
  | nil =>
      rw [parts, rest, List.append_nil, Text.splitLines, Text.split_of_notMem first]
      rfl
  | cons c rest' =>
      obtain rfl : c = '\n' := by
        have stop := List.head?_dropWhile_not (· != '\n') after
        rw [rest] at stop
        simpa using stop
      rw [parts, rest, splitLines_cons_feed, Text.splitLines, Text.split_of_notMem first]
      rfl

/-- A line feed or the start of the text stands before the last line. -/
theorem lastLine_cases (cs : List Char) :
    '\n' ∉ lastLine cs ∧ (cs = lastLine cs ∨ ∃ init, cs = init ++ '\n' :: lastLine cs) := by
  have whole : cs.rdropWhile (· != '\n') ++ lastLine cs = cs := List.rdropWhile_append_rtakeWhile
  constructor
  · intro mem
    simpa using List.mem_rtakeWhile_imp mem
  · rcases List.eq_nil_or_concat (cs.rdropWhile (· != '\n')) with none | ⟨init, c, some⟩
    · rw [none, List.nil_append] at whole
      exact .inl whole.symm
    · have last := List.rdropWhile_last_not (· != '\n') cs (by rw [some]; simp)
      simp only [some] at last
      obtain rfl : c = '\n' := by simpa using last
      rw [some] at whole
      exact .inr ⟨init, by simpa using whole.symm⟩

/-- The line that counts the line feeds before an offset is the one around the offset. -/
theorem splitLines_getElem? (before after : List Char) :
    (Text.splitLines (before ++ after))[before.count '\n']? =
      some (lastLine before ++ after.takeWhile (· != '\n')) := by
  obtain ⟨inside, alone | ⟨init, whole⟩⟩ := lastLine_cases before
  · rw [← alone] at inside ⊢
    rw [List.count_eq_zero.mpr inside]
    exact splitLines_head before after inside
  · have count : before.count '\n' = (Text.splitLines init).length := by
      rw [whole, List.count_append, List.count_cons_self, List.count_eq_zero.mpr inside]
      exact (Text.length_split '\n' init).symm
    rw [count]
    nth_rewrite 1 [whole]
    rw [List.append_assoc, List.cons_append, splitLines_cons_feed,
      List.getElem?_append_right (Nat.le_refl _), Nat.sub_self]
    exact splitLines_head _ after inside

/-! ### Lines with labels -/

namespace Label

/-- The line on which a label starts. -/
def line (source : String) (l : Label) : Nat := (lineColumn source l.span.start).1

/-- The column at which a label starts. -/
def column (source : String) (l : Label) : Nat := (lineColumn source l.span.start).2

/-- Line and column of a label count what is before it, and the line is one of the text:
around the start of the label, up to the next line feed. -/
structure Stands (source : String) (l : Label) : Prop where
  line_eq : l.line source = 1 + (charsBefore l.span.start source.toList).count '\n'
  column_eq : l.column source = 1 + (lastLine (charsBefore l.span.start source.toList)).length
  own : ∃ after, source.toList = charsBefore l.span.start source.toList ++ after ∧
    (Text.splitLines source.toList)[l.line source - 1]? =
      some (lastLine (charsBefore l.span.start source.toList) ++ after.takeWhile (· != '\n'))

/-- A label may have any offsets; its line is always there. -/
theorem stands (source : String) (l : Label) : l.Stands source := by
  have counts := lineColumn_eq_counts source l.span.start
  have line : l.line source = 1 + (charsBefore l.span.start source.toList).count '\n' :=
    congrArg Prod.fst counts
  obtain ⟨after, whole⟩ := exists_charsBefore l.span.start source.toList
  refine ⟨line, congrArg Prod.snd counts, after, whole, ?_⟩
  rw [line, Nat.add_sub_cancel_left]
  nth_rewrite 1 [whole]
  exact splitLines_getElem? _ after

end Label

/-- A line of a text and the labels that start on it. -/
structure LabelledLine where
  number : Nat
  content : String
  labels : List Label

/-- The lines on which labels start, met on a walk through the text from its first line to
its last. -/
def labelledLines (source : String) (labels : List Label) : List LabelledLine :=
  ((Text.lines source).zipIdx 1).filterMap fun (content, number) =>
    match labels.filter fun l => l.line source == number with
    | [] => none
    | here => some ⟨number, content, here⟩

variable {source : String} {labels : List Label} {line : LabelledLine}

theorem labelledLine_eq_some {content : String} {number : Nat} :
    (match labels.filter fun l => l.line source == number with
      | [] => none
      | here => some ⟨number, content, here⟩ : Option LabelledLine) = some line ↔
      line = ⟨number, content, labels.filter fun l => l.line source == number⟩ ∧
        line.labels ≠ [] := by
  cases labels.filter fun l => l.line source == number with
  | nil =>
      constructor
      · nofun
      · rintro ⟨rfl, some⟩
        exact absurd rfl some
  | cons l more =>
      constructor
      · rintro ⟨⟩
        exact ⟨rfl, nofun⟩
      · rintro ⟨rfl, _⟩
        rfl

theorem mem_labelledLines :
    line ∈ labelledLines source labels ↔
      1 ≤ line.number ∧ (Text.lines source)[line.number - 1]? = some line.content ∧
        line.labels = (labels.filter fun l => l.line source == line.number) ∧ line.labels ≠ [] := by
  unfold labelledLines
  simp only [List.mem_filterMap, Prod.exists, labelledLine_eq_some,
    List.mem_zipIdx_iff_le_and_getElem?_sub]
  constructor
  · rintro ⟨content, number, ⟨positive, here⟩, rfl, some⟩
    exact ⟨positive, here, rfl, some⟩
  · rintro ⟨positive, here, all, some⟩
    exact ⟨line.content, line.number, ⟨positive, here⟩, by rw [← all], some⟩

/-- No label is lost: each starts on one of the lines. -/
theorem Label.exists_labelledLine {l : Label} (mem : l ∈ labels) :
    ∃ line ∈ labelledLines source labels, line.number = l.line source ∧ l ∈ line.labels := by
  obtain ⟨content, found⟩ := exists_line source l.span.start
  have positive : 1 ≤ l.line source := by
    have counted := (l.stands source).line_eq
    omega
  have among : l ∈ labels.filter fun m => m.line source == l.line source :=
    List.mem_filter.mpr ⟨mem, beq_self_eq_true _⟩
  refine ⟨⟨l.line source, content, _⟩, ?_, rfl, among⟩
  exact mem_labelledLines.mpr ⟨positive, found, rfl, List.ne_nil_of_mem among⟩

/-! ### Numbers of lines -/

/-- The numbers of the lines are in order, each once. -/
theorem labelledLines_ordered (source : String) (labels : List Label) :
    ((labelledLines source labels).map LabelledLine.number).Pairwise (· < ·) := by
  rw [List.pairwise_map]
  unfold labelledLines
  refine List.Pairwise.filterMap _ ?_ (R := fun p q => p.2 < q.2) ?_
  · rintro ⟨_, _⟩ ⟨_, _⟩ less line found line' found'
    obtain ⟨rfl, _⟩ := labelledLine_eq_some.mp found
    obtain ⟨rfl, _⟩ := labelledLine_eq_some.mp found'
    exact less
  · rw [← List.pairwise_map (f := Prod.snd), List.zipIdx_map_snd]
    exact List.pairwise_lt_range'

/-- Their numbers are those of the lines on which the labels start. -/
theorem mem_numbers {n : Nat} : n ∈ (labelledLines source labels).map LabelledLine.number ↔
    ∃ l ∈ labels, l.line source = n := by
  constructor
  · intro met
    obtain ⟨line, here, rfl⟩ := List.mem_map.mp met
    obtain ⟨_, _, all, some⟩ := mem_labelledLines.mp here
    obtain ⟨l, among⟩ := List.exists_mem_of_ne_nil _ some
    rw [all, List.mem_filter] at among
    exact ⟨l, among.1, beq_iff_eq.mp among.2⟩
  · rintro ⟨l, mem, rfl⟩
    obtain ⟨line, here, number, _⟩ := l.exists_labelledLine mem
    exact List.mem_map.mpr ⟨line, here, number⟩

/-- Sorting a list and leaving out what comes again gives an ordered list of its members. -/
theorem sortedNumbers_ordered (ns : List Nat) :
    (sortedNumbers ns).Pairwise (· < ·) ∧ ∀ n ∈ sortedNumbers ns, n ∈ ns := by
  have sorted : (ns.mergeSort (· ≤ ·)).Pairwise (· ≤ ·) := List.pairwise_mergeSort' (· ≤ ·) ns
  have members (n : Nat) : n ∈ ns.mergeSort (· ≤ ·) ↔ n ∈ ns := List.mem_mergeSort
  simp only [← members]
  unfold sortedNumbers
  generalize ns.mergeSort (· ≤ ·) = ms at sorted
  clear members
  induction sorted with
  | nil => exact ⟨.nil, nofun⟩
  | @cons m ms first _ ih =>
      obtain ⟨ordered, among⟩ := ih
      rw [List.foldr_cons]
      generalize List.foldr _ [] ms = rest at ordered among
      split
      · exact ⟨ordered, fun n mem => List.mem_cons_of_mem m (among n mem)⟩
      · rename_i other
        refine ⟨.cons ?_ ordered, ?_⟩
        · intro n mem
          -- The first of the rest is larger than `m`, as it is another number.
          cases rest with
          | nil => cases mem
          | cons k rest =>
              have le := first k (among k List.mem_cons_self)
              have ne : k ≠ m := fun same => other (by simp [same])
              rcases List.mem_cons.mp mem with rfl | mem
              · omega
              · have := List.rel_of_pairwise_cons ordered mem
                omega
        · intro n mem
          rcases List.mem_cons.mp mem with rfl | mem
          · exact List.mem_cons_self
          · exact List.mem_cons_of_mem m (among n mem)

/-- Both ways to the numbers of lines with labels lead to the same. -/
theorem sortedNumbers_eq (source : String) (labels : List Label) :
    sortedNumbers (labels.map (Label.line source)) =
      (labelledLines source labels).map LabelledLine.number := by
  obtain ⟨ordered, among⟩ := sortedNumbers_ordered (labels.map (Label.line source))
  refine ordered.eq_of_mem_iff (labelledLines_ordered source labels) ?_
  intro n
  rw [mem_numbers, ← List.mem_map]
  exact ⟨among n, mem_sortedNumbers⟩

end Pseudocode

import Mathlib.Data.List.DropRight
import Pseudocode.Proofs.Files.Calls

/-!
Lines that are written to a file and then read.

A writer joins its lines by line feeds, and a reader splits at them, takes carriage
returns off the ends, and finds no line in an empty file. So the lines come back as
they are, with one exception: a single empty line is written as an empty file.
-/

namespace Pseudocode

/-! ### Lines and files -/

/-- A text that can be a line of a file: it holds no line feed and does not end in a
carriage return. -/
structure FitsLine (line : String) : Prop where
  oneLine : '\n' ∉ line.toList
  noReturn : line.toList.getLast? ≠ some '\r'

/-- A line that fits keeps its end. -/
theorem FitsLine.dropEnd {line : String} (fit : FitsLine line) :
    Text.dropEnd (· == '\r') line.toList = line.toList := by
  change line.toList.rdropWhile (· == '\r') = line.toList
  rw [List.rdropWhile_eq_self_iff]
  intro nonempty returns
  refine fit.noReturn ?_
  rw [List.getLast?_eq_some_getLast nonempty]
  exact congrArg some (by simpa using returns)

namespace Native

/-- Every line that a reader finds fits. -/
theorem fitsLine_of_mem_linesOf {contents line : String} (mem : line ∈ linesOf contents) :
    FitsLine line := by
  unfold linesOf at mem
  split at mem
  · cases mem
  · obtain ⟨part, inside, rfl⟩ := List.mem_map.mp mem
    change FitsLine (String.ofList (part.rdropWhile (· == '\r')))
    constructor <;> rw [String.toList_ofList]
    · intro feed
      exact Text.notMem_of_mem_split inside ((List.rdropWhile_prefix _ part).subset feed)
    · intro ending
      have nonempty : part.rdropWhile (· == '\r') ≠ [] := by
        intro empty
        simp [empty] at ending
      rw [List.getLast?_eq_some_getLast nonempty, Option.some.injEq] at ending
      have last := List.rdropWhile_last_not (· == '\r') part nonempty
      simp [ending] at last

/-- Lines that fit are found again in the text that joins them. -/
theorem lines_joinLines {lines : List String} (nonempty : lines ≠ [])
    (fit : ∀ l ∈ lines, FitsLine l) : Text.lines (Text.joinLines lines) = lines := by
  have parts : Text.splitLines (Text.joinLines lines).toList = lines.map String.toList := by
    rw [Text.joinLines, String.toList_intercalate]
    refine Text.split_intercalate (by simpa using nonempty) ?_
    intro part mem
    obtain ⟨line, inside, rfl⟩ := List.mem_map.mp mem
    exact (fit line inside).oneLine
  rw [Text.lines, parts, List.map_map]
  refine (List.map_congr_left ?_).trans (List.map_id lines)
  intro line mem
  simp [(fit line mem).dropEnd]

/-- The joined text is empty when there is no line, or a single empty one. -/
theorem joinLines_eq_empty_iff (lines : List String) :
    Text.joinLines lines = "" ↔ lines = [] ∨ lines = [""] := by
  rw [← String.toList_eq_nil_iff, Text.joinLines, String.toList_intercalate]
  match lines with
  | [] => simp
  | [line] => simp
  | first :: second :: rest => simp [List.intercalate_cons_cons]

/-- What a reader finds in a file of lines that fit. -/
theorem linesOf_joinLines {lines : List String} (fit : ∀ l ∈ lines, FitsLine l) :
    linesOf (Text.joinLines lines) = if lines = [""] then [] else lines := by
  unfold linesOf
  by_cases empty : Text.joinLines lines = ""
  · rw [if_pos (String.isEmpty_iff.mpr empty)]
    rcases (joinLines_eq_empty_iff lines).mp empty with rfl | rfl <;> rfl
  · rw [if_neg (mt String.isEmpty_iff.mp empty)]
    have some := mt (joinLines_eq_empty_iff lines).mpr empty
    rw [not_or] at some
    rw [if_neg some.2, lines_joinLines some.1 fit]

end Native

/-! ### Writing and reading -/

section Calls

variable (ctx : Context) (span : Span)

/-- A writer takes lines, one after the other. -/
inductive Takes (id : WriterId) : Machine → List String → Machine → Prop where
  | stop (m : Machine) : Takes id m [] m
  | next {m m' m'' : Machine} {line : String} {v : Value} {lines : List String}
      (taken : (FileCall.writeLine (.writer id) [.text line]).perform ctx span m = .done v m')
      (others : Takes id m' lines m'') : Takes id m (line :: lines) m''

/-- A reader is read to its end: it gives lines until it says that none is left. -/
inductive ReadsOut (id : ReaderId) : Machine → List String → Machine → Prop where
  | stop {m m' : Machine}
      (ended : (FileCall.endOfFile (.reader id) []).perform ctx span m = .done (.boolean true) m') :
      ReadsOut id m [] m'
  | next {m m' m'' m''' : Machine} {line : String} {lines : List String}
      (more : (FileCall.endOfFile (.reader id) []).perform ctx span m = .done (.boolean false) m')
      (given : (FileCall.readLine (.reader id) []).perform ctx span m' = .done (.text line) m'')
      (others : ReadsOut id m'' lines m''') : ReadsOut id m (line :: lines) m'''

/-- Lines are added to a file, and then the file is read to its end. -/
def ReadsBack (path : String) (added : List String) (m : Machine) (lines : List String) : Prop :=
  ∃ w r m₁ m₂ m₃ m₄ m₅,
    (FileCall.openWrite [.text path]).perform ctx span m = .done (.writer w) m₁ ∧
    Takes ctx span w m₁ added m₂ ∧
    (FileCall.close (.writer w) []).perform ctx span m₂ = .done .null m₃ ∧
    (FileCall.openRead [.text path]).perform ctx span m₃ = .done (.reader r) m₄ ∧
    ReadsOut ctx span r m₄ lines m₅

variable {ctx span} {m m' m'' : Machine}

/-! ### One result -/

theorem Takes.unique {id : WriterId} {lines : List String} (one : Takes ctx span id m lines m')
    (other : Takes ctx span id m lines m'') : m' = m'' := by
  induction one with
  | stop => cases other; rfl
  | next taken _ ih =>
      obtain ⟨_⟩ | ⟨taken', others⟩ := other
      rw [taken] at taken'
      cases taken'
      exact ih others

theorem ReadsOut.unique {id : ReaderId} {lines lines' : List String}
    (one : ReadsOut ctx span id m lines m') (other : ReadsOut ctx span id m lines' m'') :
    lines = lines' := by
  induction one generalizing lines' with
  | stop ended =>
      cases other with
      | stop => rfl
      | next more =>
          rw [ended] at more
          cases more
  | next more given _ ih =>
      cases other with
      | stop ended =>
          rw [more] at ended
          cases ended
      | next more' given' others =>
          rw [more] at more'
          cases more'
          rw [given] at given'
          cases given'
          rw [ih others]

theorem ReadsBack.unique {path : String} {added lines lines' : List String}
    (one : ReadsBack ctx span path added m lines) (other : ReadsBack ctx span path added m lines') :
    lines = lines' := by
  obtain ⟨w, r, m₁, m₂, m₃, m₄, m₅, opened, taken, closed, reopened, read⟩ := one
  obtain ⟨w', r', n₁, n₂, n₃, n₄, n₅, opened', taken', closed', reopened', read'⟩ := other
  rw [opened] at opened'
  cases opened'
  obtain rfl := taken.unique taken'
  rw [closed] at closed'
  cases closed'
  rw [reopened] at reopened'
  cases reopened'
  exact read.unique read'

/-! ### The result -/

/-- An open writer takes any lines, after those it has. -/
theorem exists_takes {id : WriterId} {w : FileWriter} (here : m.heap.writers[id]? = some w)
    (isOpen : w.closed = false) (lines : List String) :
    ∃ m' w', Takes ctx span id m lines m' ∧ m'.heap.writers[id]? = some w' ∧ w'.closed = false ∧
      w'.path = w.path ∧ w'.lines = w.lines ++ lines ∧ m'.world = m.world := by
  induction lines generalizing m w with
  | nil => exact ⟨m, w, .stop m, here, isOpen, rfl, by simp, rfl⟩
  | cons line lines ih =>
      have inside : id < m.heap.writers.size := (Array.getElem?_eq_some_iff.mp here).1
      have effect : FileCall.Effect m (.writeLine (.writer id) [.text line]) _ _ :=
        .writeLine here isOpen
      obtain ⟨m', w', taken, here', isOpen', path, all, world⟩ :=
        @ih { m with heap := m.heap.setWriter id (w.add line) } (w.add line)
          (Array.getElem?_setIfInBounds_self_of_lt inside) isOpen
      refine ⟨m', w', .next effect.perform taken, here', isOpen', path, ?_, world⟩
      simpa using all

/-- An open reader gives the lines it holds and then ends. -/
theorem exists_readsOut {id : ReaderId} {r : FileReader} (here : m.heap.readers[id]? = some r)
    (isOpen : r.closed = false) : ∃ m', ReadsOut ctx span id m r.unread m' := by
  obtain ⟨unread, ended⟩ := r
  induction unread generalizing m with
  | nil => exact ⟨m, .stop (FileCall.Effect.endOfFile here isOpen).perform⟩
  | cons line rest ih =>
      have inside : id < m.heap.readers.size := (Array.getElem?_eq_some_iff.mp here).1
      have given := FileCall.Effect.readLine here isOpen rfl
      obtain ⟨m', others⟩ := @ih { m with heap := m.heap.setReader id ⟨rest, ended⟩ }
        (Array.getElem?_setIfInBounds_self_of_lt inside) isOpen
      exact ⟨m', .next (FileCall.Effect.endOfFile here isOpen).perform given.perform others⟩

/-- A file that is opened and read to its end gives the lines of its contents. -/
theorem exists_read {path contents : String} (found : m.world.store.read? path = some contents) :
    ∃ r m₁ m₂, (FileCall.openRead [.text path]).perform ctx span m = .done (.reader r) m₁ ∧
      ReadsOut ctx span r m₁ (Native.linesOf contents) m₂ := by
  have opened := FileCall.Effect.openRead found
  obtain ⟨m₂, read⟩ := @exists_readsOut ctx span
    { FileCall.loaded m path with
      heap := (m.heap.newReader { unread := Native.linesOf contents }).2 }
    m.heap.readers.size { unread := Native.linesOf contents } Array.getElem?_push_size rfl
  exact ⟨_, _, m₂, opened.perform, read⟩

/-- A file that is opened to add lines and closed has the old lines and the new ones. -/
theorem exists_added (lawful : m.world.store.system.Lawful) {path contents : String}
    {added : List String} (found : m.world.store.read? path = some contents)
    (accepted : (m.world.store.write m.world.writes path
      (Text.joinLines (Native.linesOf contents ++ added))).1 = .ok ()) :
    ∃ w m₁ m₂ m₃, (FileCall.openWrite [.text path]).perform ctx span m = .done (.writer w) m₁ ∧
      Takes ctx span w m₁ added m₂ ∧
      (FileCall.close (.writer w) []).perform ctx span m₂ = .done .null m₃ ∧
      m₃.world.store.read? path = some (Text.joinLines (Native.linesOf contents ++ added)) := by
  have opened := FileCall.Effect.openWrite found
  obtain ⟨m₂, w, taken, here, isOpen, ofPath, lines, world⟩ :=
    @exists_takes ctx span
      { FileCall.loaded m path with
        heap := (m.heap.newWriter (.ofLines path (Native.linesOf contents))).2 }
      m.heap.writers.size (.ofLines path (Native.linesOf contents))
      Array.getElem?_push_size rfl added
  rw [FileWriter.lines_ofLines] at lines
  have store : m₂.world.store = m.world.store := by rw [world]; rfl
  have writes : m₂.world.writes = m.world.writes := by rw [world]; rfl
  have stored : (m₂.world.save w.path (Text.joinLines w.lines)).1 = .ok () := by
    rw [FileCall.verdict_save, store, writes, lines, ofPath]
    exact accepted
  have closed := FileCall.Effect.closeWriter here isOpen stored
  refine ⟨_, _, m₂, _, opened.perform, taken, closed.perform, ?_⟩
  change (FileCall.saved m₂ w.path (Text.joinLines w.lines)).world.store.read? path = _
  rw [FileCall.store_saved, store, writes, lines, ofPath]
  exact (FileStore.read?_write lawful accepted path).trans (if_pos rfl)

/-- What is read back is what a reader finds in the text that was stored. -/
theorem readsBack_stored (lawful : m.world.store.system.Lawful) {path contents : String}
    {added : List String} (found : m.world.store.read? path = some contents)
    (accepted : (m.world.store.write m.world.writes path
      (Text.joinLines (Native.linesOf contents ++ added))).1 = .ok ()) :
    ReadsBack ctx span path added m
      (Native.linesOf (Text.joinLines (Native.linesOf contents ++ added))) := by
  obtain ⟨w, m₁, m₂, m₃, opened, taken, closed, found'⟩ := exists_added lawful found accepted
  obtain ⟨r, m₄, m₅, reopened, read⟩ := exists_read found'
  exact ⟨w, r, m₁, m₂, m₃, m₄, m₅, opened, taken, closed, reopened, read⟩

/-- The lines that were added are read back after those that were there, unless all
that there is to read is one empty line: then no line is read. -/
theorem added_lines_read_back (lawful : m.world.store.system.Lawful) {path contents : String}
    {added : List String} (found : m.world.store.read? path = some contents)
    (accepted : (m.world.store.write m.world.writes path
      (Text.joinLines (Native.linesOf contents ++ added))).1 = .ok ())
    (fit : ∀ line ∈ added, FitsLine line) (lines : List String) :
    ReadsBack ctx span path added m lines ↔
      lines = if Native.linesOf contents ++ added = [""] then [] else Native.linesOf contents ++ added := by
  have all : ∀ line ∈ Native.linesOf contents ++ added, FitsLine line := by
    intro line mem
    rcases List.mem_append.mp mem with old | new
    · exact Native.fitsLine_of_mem_linesOf old
    · exact fit line new
  have run : ReadsBack ctx span path added m _ := readsBack_stored lawful found accepted
  rw [Native.linesOf_joinLines all] at run
  constructor
  · exact fun run' => run'.unique run
  · rintro rfl
    exact run

/-- Lines are added to a file whose last line ends in a carriage return. -/
theorem added_lines_read_back_after_return :
    ReadsBack (Action.context {} 0) .unplaced "notes" ["", "two"]
      { world := { store := { files := [("notes", "one\r")] } } } ["one", "", "two"] := by
  refine (added_lines_read_back (FileSystem.flat_lawful fun _ _ => none) rfl rfl ?_ _).mpr (by decide)
  intro line mem
  rcases List.mem_cons.mp mem with rfl | mem
  · exact ⟨by decide, by decide⟩
  · rw [List.mem_singleton.mp mem]
    exact ⟨by decide, by decide⟩

/-- An empty line that is added to an empty file is not read back. -/
theorem empty_line_not_read_back :
    ¬ ∀ (ctx : Context) (span : Span) (m : Machine) (path contents : String) (added : List String),
      m.world.store.system.Lawful → m.world.store.read? path = some contents →
      (∀ moment text, (m.world.store.write moment path text).1 = .ok ()) →
      (∀ line ∈ added, FitsLine line) →
      ReadsBack ctx span path added m (Native.linesOf contents ++ added) := by
  intro always
  let m : Machine := { world := { store := { files := [("notes", "")] } } }
  have claimed := always (Action.context {} 0) .unplaced m "notes" "" [""]
    (FileSystem.flat_lawful fun _ _ => none) rfl (fun _ _ => rfl) (by
    intro line mem
    rw [List.mem_singleton.mp mem]
    exact ⟨by decide, by decide⟩)
  have found : m.world.store.read? "notes" = some "" := rfl
  have none := claimed.unique (readsBack_stored (FileSystem.flat_lawful fun _ _ => none) found rfl)
  exact absurd none (by decide)

end Calls

end Pseudocode

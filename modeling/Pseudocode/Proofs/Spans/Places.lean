import Mathlib.Data.List.DropRight
import Pseudocode.Proofs.Lexing.Cover

/-!
Lines and columns are counts.

The line of an offset is one more than the line feeds before it, and its column one more
than the characters after the last of them (`lineColumn_eq_counts`). The lexer keeps count
while it goes from token to token, `lineColumn` starts again at the start of the text, and
at every token they agree (`tokens_placed`).
-/

namespace Pseudocode

/-! ### Offsets -/

/-- The characters of a text that start before an offset. -/
def charsBefore : Nat → List Char → List Char
  | 0, _ => []
  | _, [] => []
  | n + 1, c :: cs => c :: charsBefore (n + 1 - c.utf8Size) cs

theorem charsBefore_append (before after : List Char) :
    charsBefore (byteLength before) (before ++ after) = before := by
  induction before with
  | nil => cases after <;> rfl
  | cons c before ih =>
      have size := c.utf8Size_pos
      obtain ⟨n, eq⟩ := Nat.exists_eq_add_one.mpr (byteLength_pos (List.cons_ne_nil c before))
      rw [eq, List.cons_append, charsBefore, ← eq, byteLength_cons, Nat.add_sub_cancel_left, ih]

/-- The characters before an offset are the first ones of the text. -/
theorem exists_charsBefore (n : Nat) (cs : List Char) : ∃ after, cs = charsBefore n cs ++ after := by
  induction cs generalizing n with
  | nil => exact ⟨[], by cases n <;> rfl⟩
  | cons c cs ih =>
      cases n with
      | zero => exact ⟨c :: cs, rfl⟩
      | succ n =>
          obtain ⟨after, eq⟩ := ih (n + 1 - c.utf8Size)
          exact ⟨after, by rw [charsBefore, List.cons_append, ← eq]⟩

/-- The walk to an offset reads the characters before it. -/
theorem Position.seek_eq (offset : Nat) (p : Position) (cs : List Char) :
    seek offset p cs = p.after (charsBefore (offset - p.offset) cs) := by
  induction cs generalizing p with
  | nil => cases offset - p.offset <;> rfl
  | cons c cs ih =>
      unfold seek
      split
      · rename_i reached
        rw [Nat.sub_eq_zero_of_le reached]
        rfl
      · rename_i short
        obtain ⟨n, left⟩ := Nat.exists_eq_add_one.mpr (Nat.sub_pos_of_lt (Nat.lt_of_not_le short))
        have rest : offset - (p.next c).offset = n + 1 - c.utf8Size := by
          rw [offset_next]
          omega
        rw [ih, rest, left, charsBefore, after_cons]

/-! ### Counts -/

/-- The characters after the last line feed. -/
def lastLine (cs : List Char) : List Char := cs.rtakeWhile (· != '\n')

theorem Position.place_after_first (cs : List Char) :
    (Position.first.after cs).place = (1 + cs.count '\n', 1 + (lastLine cs).length) := by
  induction cs using List.reverseRecOn with
  | nil => rfl
  | append_singleton cs c ih =>
      obtain ⟨line, column⟩ := Prod.mk.inj ih
      rw [after_append, List.count_append, lastLine, List.rtakeWhile_concat]
      by_cases feed : c = '\n'
      · subst feed
        change ((Position.first.after cs).line + 1, 1) = _
        rw [line]
        rfl
      · have next : ((Position.first.after cs).after [c]).place =
            ((Position.first.after cs).line, (Position.first.after cs).column + 1) := by
          simp [place, next, feed]
        rw [next, line, column]
        simp [feed, lastLine, Nat.add_assoc]

/-- Line and column of an offset, whether it is between characters or not. -/
theorem lineColumn_eq_counts (source : String) (offset : Nat) :
    lineColumn source offset = (1 + (charsBefore offset source.toList).count '\n',
      1 + (lastLine (charsBefore offset source.toList)).length) := by
  rw [← Position.place_after_first, lineColumn, Position.seek_eq]
  rfl

/-! ### Tokens -/

section Tokens

variable {source : String} {ts : List Token} {stop : Position} {t : Token}

/-- The line and column of a token are those of the text before it. -/
theorem Token.exists_before (lexed : tokenizeChars source.toList = .ok (ts, stop))
    (mem : t ∈ ts ++ [.endOfInput stop]) :
    ∃ before after, source.toList = before ++ after ∧ t.span.start = byteLength before ∧
      (t.line, t.column) = (Position.first.after before).place := by
  rcases List.mem_append.mp mem with mem | mem
  · obtain ⟨earlier, later, rfl⟩ := List.append_of_mem mem
    obtain ⟨site⟩ := Token.exists_site lexed
    exact ⟨site.read ++ site.gap, site.lexeme.spelling ++ site.after,
      site.whole.trans (by simp), site.start, site.place⟩
  · obtain rfl := List.mem_singleton.mp mem
    obtain ⟨_, _, _, _, _, _, rfl⟩ := tokenizeChars_eq_ok.mp lexed
    refine ⟨source.toList, [], by simp, ?_, rfl⟩
    exact (tokens_ordered lexed).1

theorem Token.place_eq (lexed : tokenizeChars source.toList = .ok (ts, stop))
    (mem : t ∈ ts ++ [.endOfInput stop]) : (t.line, t.column) = lineColumn source t.span.start := by
  obtain ⟨before, after, whole, start, place⟩ := Token.exists_before lexed mem
  rw [place, start, lineColumn_eq whole]

/-- A later token has another line or column. -/
theorem Token.place_ne {u : Token} (lexed : tokenizeChars source.toList = .ok (ts, stop))
    (mem : t ∈ ts) (mem' : u ∈ ts) (later : t.span.start < u.span.start) :
    (u.line, u.column) ≠ lineColumn source t.span.start := by
  obtain ⟨before, after, whole, start, _⟩ := Token.exists_before lexed (List.mem_append_left _ mem)
  obtain ⟨before', after', whole', start', _⟩ :=
    Token.exists_before lexed (List.mem_append_left _ mem')
  rw [Token.place_eq lexed (List.mem_append_left _ mem'), start, start']
  exact lineColumn_ne whole whole' (by omega)

end Tokens

/-- The line and column of every token, also of the one that ends the text, are those
found for the offset at which it starts, and count what is before it. -/
theorem tokens_placed (source : String) (ts : List Token) (lexed : tokenize source = .ok ts) :
    ∀ t ∈ ts, (t.line, t.column) = lineColumn source t.span.start ∧
      byteLength (charsBefore t.span.start source.toList) = t.span.start ∧
      lineColumn source t.span.start =
        (1 + (charsBefore t.span.start source.toList).count '\n',
          1 + (lastLine (charsBefore t.span.start source.toList)).length) := by
  obtain ⟨init, stop, rfl, chars⟩ := tokenize_eq_ok.mp lexed
  intro t mem
  obtain ⟨before, after, whole, start, _⟩ := Token.exists_before chars mem
  refine ⟨Token.place_eq chars mem, ?_, lineColumn_eq_counts source t.span.start⟩
  rw [start, whole, charsBefore_append]

/-- A text over two lines with a carriage return and a character of two bytes in it, a
comment, and a name in the third line. -/
def overLines : String := "a = \"\r\nü\" // é\n  b"

theorem tokens_placed_overLines :
    ∃ ts t, tokenize overLines = .ok ts ∧ t ∈ ts ∧ t.value = "b" ∧ t.span = ⟨19, 20⟩ ∧
      (t.line, t.column) = lineColumn overLines t.span.start ∧
      byteLength (charsBefore t.span.start overLines.toList) = t.span.start ∧
      lineColumn overLines t.span.start =
        (1 + (charsBefore t.span.start overLines.toList).count '\n',
          1 + (lastLine (charsBefore t.span.start overLines.toList)).length) := by
  have run : (tokenize overLines).toOption.bind (fun ts => ts[3]?) =
      some ⟨.identifier, "b", ⟨19, 20⟩, 3, 3⟩ := by
    decide +kernel
  cases lexed : tokenize overLines with
  | error e =>
      rw [lexed] at run
      cases run
  | ok ts =>
      rw [lexed] at run
      have mem := List.mem_of_getElem? run
      exact ⟨ts, _, rfl, mem, rfl, rfl, tokens_placed overLines ts lexed _ mem⟩

end Pseudocode

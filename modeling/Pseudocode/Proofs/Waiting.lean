import Pseudocode.Command.Run
import Pseudocode.Proofs.Spans.ErrorPlace
import Pseudocode.Proofs.Spans.Excerpt

/-!
Texts that wait for more lines.

An interactive session takes a text that ends too early for one that goes on in the next
line. It decides this by where the error of the text starts: at or after the end of the
text without its trailing white space. Every token starts with a character that is no
white space of any kind, so an error at a token never looks like an early end
(`Blamed.starts`). But the white space that is trimmed is more than the lexer skips: a
text that has white space of another kind at its end waits, although it is refused for
that character, whatever follows (`waits_iff`).
-/

namespace Pseudocode

/-! ### Trailing white space -/

namespace Text

variable {p : Char → Bool}

theorem dropEnd_prefix (cs : List Char) : dropEnd p cs <+: cs := by
  unfold dropEnd
  rw [← List.reverse_suffix, List.reverse_reverse]
  exact List.dropWhile_suffix p

theorem dropEnd_of_all (before : List Char) {rest : List Char} (all : ∀ c ∈ rest, p c = true) :
    dropEnd p (before ++ rest) = dropEnd p before := by
  unfold dropEnd
  rw [List.reverse_append, List.dropWhile_append_of_pos]
  intro c mem
  exact all c (List.mem_reverse.mp mem)

/-- What is kept ends inside the first part just when all of the second part is dropped. -/
theorem byteLength_dropEnd_le (before rest : List Char) :
    byteLength (dropEnd p (before ++ rest)) ≤ byteLength before ↔ ∀ c ∈ rest, p c = true := by
  constructor
  · intro le c mem
    by_contra kept
    obtain ⟨front, back, rfl⟩ := List.append_of_mem mem
    have whole : before ++ (front ++ c :: back) = (before ++ front) ++ c :: back := by simp
    rw [whole, dropEnd_append (by simpa using kept)] at le
    simp only [byteLength_append, byteLength_cons] at le
    have size := c.utf8Size_pos
    omega
  · intro all
    rw [dropEnd_of_all before all]
    obtain ⟨dropped, eq⟩ := dropEnd_prefix (p := p) before
    have length := congrArg byteLength eq
    rw [byteLength_append] at length
    omega

end Text

/-! ### Where errors start -/

/-- No lexeme starts with white space of any kind. -/
theorem Lexeme.Stands.not_isBlank {l : Lexeme} {rest : List Char} (stands : l.Stands rest) :
    ∃ c tail, l.spelling = c :: tail ∧ Text.isBlank c = false := by
  have graphic {c low high : Char} (least : low ≤ c) (greatest : c ≤ high)
      (above : 0x21 ≤ low.toNat) (below : high.toNat ≤ 0x7E) : Text.isBlank c = false :=
    Text.not_isBlank_of_graphic (Nat.le_trans above least) (Nat.le_trans greatest below)
  cases stands with
  | @number c parts _ digit _ _ =>
      simp only [Decimal.isDigit, Bool.and_eq_true, decide_eq_true_eq] at digit
      exact ⟨c, parts, rfl, graphic digit.1 digit.2 (by decide) (by decide)⟩
  | @quoted content _ _ => exact ⟨'"', content ++ ['"'], rfl, by decide⟩
  | @word c parts _ start _ _ =>
      refine ⟨c, parts, rfl, ?_⟩
      simp only [isWordStart, isLetter, Bool.or_eq_true, Bool.and_eq_true, decide_eq_true_eq,
        beq_iff_eq] at start
      rcases start with (⟨low, high⟩ | ⟨low, high⟩) | rfl
      · exact graphic low high (by decide) (by decide)
      · exact graphic low high (by decide) (by decide)
      · decide
  | @pair c _ takes =>
      refine ⟨c, ['='], rfl, ?_⟩
      have each : ['=', '!', '>', '<'].all fun c => !Text.isBlank c := by decide
      simpa using List.all_eq_true.mp each c (List.contains_iff_mem.mp takes)
  | @single c _ symbol _ _ =>
      refine ⟨c, [], rfl, ?_⟩
      have other := of_isSymbol (p := fun c => !Text.isBlank c) (by decide) symbol
      simpa using other

/-- A character that is no white space starts at this offset of the text. -/
def VisibleAt (cs : List Char) (n : Nat) : Prop :=
  ∃ before c after, cs = before ++ c :: after ∧ n = byteLength before ∧ Text.isBlank c = false

theorem VisibleAt.lt {cs : List Char} {n : Nat} (visible : VisibleAt cs n) :
    n < byteLength (Text.dropEnd Text.isBlank cs) := by
  obtain ⟨before, c, after, rfl, rfl, kept⟩ := visible
  apply Nat.lt_of_not_le
  intro le
  have blank := (Text.byteLength_dropEnd_le before (c :: after)).mp le c List.mem_cons_self
  rw [kept] at blank
  cases blank

theorem Lexeme.Stands.visibleAt {l : Lexeme} {before after : List Char} (stands : l.Stands after) :
    VisibleAt (before ++ (l.spelling ++ after)) (byteLength before) := by
  obtain ⟨c, tail, eq, kept⟩ := stands.not_isBlank
  rw [eq]
  exact ⟨before, c, tail ++ after, rfl, rfl, kept⟩

variable {cs : List Char} {ts : List Token} {stop : Position} {e : SyntaxError}

theorem Token.visibleAt {t : Token} (lexed : tokenizeChars cs = .ok (ts, stop)) (mem : t ∈ ts) :
    VisibleAt cs t.span.start := by
  obtain ⟨earlier, later, rfl⟩ := List.append_of_mem mem
  obtain ⟨site⟩ := Token.exists_site lexed
  have visible : VisibleAt ((site.read ++ site.gap) ++ (site.lexeme.spelling ++ site.after)) _ :=
    site.stands.visibleAt
  rw [List.append_assoc, ← site.whole] at visible
  rwa [site.start]

/-- An error of the parser is at the end of the text, or it starts with some token. -/
theorem Blamed.starts (lexed : tokenizeChars cs = .ok (ts, stop))
    (blamed : Blamed ts (.endOfInput stop) e) :
    e.span = ⟨byteLength cs, byteLength cs⟩ ∨ VisibleAt cs e.span.start := by
  have ordered := inOrder_of_tokenizeChars lexed
  cases blamed with
  | token mem span place other =>
      rw [span]
      rcases List.mem_append.mp mem with mem | mem
      · exact .inr (Token.visibleAt lexed mem)
      · obtain rfl := List.mem_singleton.mp mem
        left
        change (⟨stop.offset, stop.offset⟩ : Span) = _
        rw [(tokens_ordered lexed).1]
  | @member earlier us later modifier m whole written span place other =>
      have row : InOrder (modifier :: us) := ordered.sublist (by simp [whole])
      obtain ⟨t, mem, _, start⟩ := (written.spans_member row).start
      right
      rw [span, start]
      exact Token.visibleAt lexed (by rw [whole]; simp_all)
  | @target earlier us later equals target whole written span place invalid =>
      have row : InOrder us := ordered.sublist (by simp [whole])
      obtain ⟨t, mem, _, start⟩ := (written.spanned row).start
      right
      rw [span, start]
      exact Token.visibleAt lexed (by rw [whole]; simp [mem])

/-- The text is refused for a character, and from there on it is white space. -/
def SyntaxError.BeforeBlanks (e : SyntaxError) (cs : List Char) : Prop :=
  ∃ before c after, cs = before ++ c :: after ∧ e.problem = .unrecognisedCharacter c ∧
    e.span = ⟨byteLength before, byteLength before + c.utf8Size⟩ ∧
    ∀ d ∈ c :: after, Text.isBlank d = true

/-- The error is at the end of the text, or where only white space is left that the lexer
does not skip. -/
def SyntaxError.Trailing (e : SyntaxError) (cs : List Char) : Prop :=
  e.span = ⟨byteLength cs, byteLength cs⟩ ∨ e.BeforeBlanks cs

/-- An error of the lexer starts at a character that is no white space, or it is about a
character. -/
theorem starts_of_lexing (failed : tokenizeChars cs = .error e) :
    VisibleAt cs e.span.start ∨ ∃ before c after, cs = before ++ c :: after ∧
      e.problem = .unrecognisedCharacter c ∧
      e.span = ⟨byteLength before, byteLength before + c.utf8Size⟩ := by
  have start (before : List Char) : (Position.first.after before).offset = byteLength before := by
    rw [Position.offset_after]
    exact Nat.zero_add _
  cases left : (lexemes cs).2.2 with
  | cons c rest =>
      obtain ⟨before, whole, place⟩ := (lexemes_stand cs).2
      rw [left] at whole
      rw [tokenizeChars_of_left left, place, start] at failed
      cases failed
      by_cases quote : c = '"'
      · subst quote
        exact .inl ⟨before, '"', rest, whole, rfl, by decide⟩
      · right
        refine ⟨before, c, rest, whole, ?_, rfl⟩
        rw [if_neg quote]
  | nil =>
      obtain ⟨l, before, after, text, whole, place, stands, rfl⟩ := exists_blame_of_covered left failed
      left
      change VisibleAt cs l.start.offset
      rw [place, start, whole]
      exact stands.visibleAt

namespace SyntaxError

theorem Trailing.le (trailing : e.Trailing cs) :
    byteLength (Text.dropEnd Text.isBlank cs) ≤ e.span.start := by
  rcases trailing with span | ⟨before, c, after, rfl, _, span, blank⟩
  · rw [span]
    have whole := (Text.byteLength_dropEnd_le (p := Text.isBlank) cs []).mpr nofun
    rwa [List.append_nil] at whole
  · rw [span]
    exact (Text.byteLength_dropEnd_le before (c :: after)).mpr blank

/-- Any other error starts before the trailing white space. -/
theorem trailing_or_lt {source : String} (failed : parse source = .error e) :
    e.Trailing source.toList ∨
      e.span.start < byteLength (Text.dropEnd Text.isBlank source.toList) := by
  rcases parse_eq_error failed with failed | ⟨ts, stop, lexed, failed⟩
  · rcases starts_of_lexing failed with visible | ⟨before, c, after, whole, problem, span⟩
    · exact .inr visible.lt
    · by_cases blank : ∀ d ∈ c :: after, Text.isBlank d = true
      · exact .inl (.inr ⟨before, c, after, whole, problem, span, blank⟩)
      · right
        rw [span, whole]
        exact Nat.lt_of_not_le fun le => blank ((Text.byteLength_dropEnd_le before (c :: after)).mp le)
  · rcases (blamed_of_ofTokens rfl failed).starts lexed with span | visible
    · exact .inl (.inl span)
    · exact .inr visible.lt

end SyntaxError

namespace Command

theorem isIncomplete_of_error {source : String} (failed : parse source = .error e) :
    isIncomplete source = true ↔ e.Trailing source.toList := by
  simp only [isIncomplete, failed, Text.trimEnd, String.toList_ofList, decide_eq_true_eq]
  constructor
  · intro le
    rcases SyntaxError.trailing_or_lt failed with trailing | lt
    · exact trailing
    · omega
  · exact SyntaxError.Trailing.le

/-! ### Conversations -/

/-- What is shown before a line is taken that goes on with the text so far. -/
def prompt (buffer : String) : List Deed :=
  [.out (if buffer.isEmpty then "pseudo> " else "...> "), .ask]

/-- The line is more than white space, and at the start of a text it does not end the
session. -/
structure Entered (buffer line : String) : Prop where
  visible : (Text.trim line).isEmpty = false
  stays : buffer.isEmpty = true → Text.trim line ≠ "exit" ∧ Text.trim line ≠ "quit"

theorem Entered.goes_on {buffer line : String} (entered : Entered buffer line) :
    (buffer.isEmpty && (Text.trim line == "exit" || Text.trim line == "quit")) = false := by
  cases first : buffer.isEmpty with
  | false => rfl
  | true =>
      obtain ⟨exit, quit⟩ := entered.stays first
      simp [exit, quit]

section Converse

variable {s : Settings} {rounds : Nat} {session next : Session} {buffer line : String}
  (taken : takeLine session = some (line, next)) (entered : Entered buffer line)

include taken entered

theorem converse_of_incomplete (incomplete : isIncomplete (buffer ++ line) = true) :
    converse s (rounds + 1) session buffer =
      (prompt buffer ++ (converse s rounds next (buffer ++ line)).1,
        (converse s rounds next (buffer ++ line)).2) := by
  rw [converse, taken]
  simp only [entered.goes_on, entered.visible, incomplete, Bool.and_false, Bool.false_eq_true,
    if_false, Bool.not_false, Bool.true_and, if_true]
  rfl

/-- A text that does not wait is run, and the conversation goes on unless it crashes. -/
theorem converse_of_complete (complete : isIncomplete (buffer ++ line) = false)
    (calm : (submit s next (buffer ++ line)).1.any Deed.isCrash = false) :
    converse s (rounds + 1) session buffer =
      (prompt buffer ++ (submit s next (buffer ++ line)).1
          ++ (converse s rounds (submit s next (buffer ++ line)).2 "").1,
        (converse s rounds (submit s next (buffer ++ line)).2 "").2) := by
  rw [converse, taken]
  simp only [entered.goes_on, entered.visible, complete, calm, Bool.and_false,
    Bool.false_eq_true, if_false]
  rfl

end Converse

theorem submit_of_error {s : Settings} {session : Session} {source : String}
    (failed : parse source = .error e) :
    submit s session source =
      (s.note "Parsing program" ++ s.report source "<repl>" (.notAProgram e), session) := by
  simp only [submit, runProgram, failed]

/-- A text that is no program is no reason to crash. -/
theorem submit_calm {s : Settings} {session : Session} {source : String}
    (failed : parse source = .error e) : (submit s session source).1.any Deed.isCrash = false := by
  have notes (message : String) : (s.note message).any Deed.isCrash = false := by
    unfold Settings.note
    split <;> rfl
  rw [submit_of_error failed, List.any_append, notes, Settings.report, List.any_append, notes]
  rfl

/-- A text waits for more lines when it is refused at its end, or for a character from which
on it is all white space. In a conversation such a text is kept for the next line, and any
other text that is no program is reported at once. -/
theorem waits_iff (source : String) :
    (isIncomplete source = true ↔
      ∃ e, parse source = .error e ∧ e.Trailing source.toList) ∧
    ∀ e, parse source = .error e →
      ∀ (s : Settings) (rounds : Nat) (session next : Session) (buffer line : String),
        takeLine session = some (line, next) → buffer ++ line = source → Entered buffer line →
        (e.Trailing source.toList → converse s (rounds + 1) session buffer =
          (prompt buffer ++ (converse s rounds next source).1, (converse s rounds next source).2)) ∧
        (¬ e.Trailing source.toList → converse s (rounds + 1) session buffer =
          (prompt buffer ++ (s.note "Parsing program" ++ s.report source "<repl>" (.notAProgram e))
              ++ (converse s rounds next "").1,
            (converse s rounds next "").2)) := by
  constructor
  · constructor
    · intro incomplete
      cases failed : parse source with
      | ok p =>
          simp only [isIncomplete, failed] at incomplete
          cases incomplete
      | error e => exact ⟨e, rfl, (isIncomplete_of_error failed).mp incomplete⟩
    · rintro ⟨e, failed, trailing⟩
      exact (isIncomplete_of_error failed).mpr trailing
  · rintro e failed s rounds session next buffer line taken rfl entered
    constructor
    · intro trailing
      exact converse_of_incomplete taken entered ((isIncomplete_of_error failed).mpr trailing)
    · intro other
      have complete : isIncomplete (buffer ++ line) = false :=
        Bool.eq_false_iff.mpr fun incomplete => other ((isIncomplete_of_error failed).mp incomplete)
      rw [converse_of_complete taken entered complete (submit_calm failed), submit_of_error failed]

/-- A session that is about to take some lines. -/
def withLines (lines : List String) : Session :=
  Session.start {} { input := { style := .stream, answers := lines } }

def plainSettings : Settings := ⟨false, false, false, ".", {}, none⟩

/-- A conditional that is not closed waits for its end; a number that is assigned to does
not. -/
theorem waits_iff_conditional_and_target :
    (converse plainSettings 2 (withLines ["if true then\n"]) "" =
      (prompt "" ++ (converse plainSettings 1 (withLines []) "if true then\n").1,
        (converse plainSettings 1 (withLines []) "if true then\n").2)) ∧
    ∃ e, parse "1 = 2\n" = .error e ∧ converse plainSettings 2 (withLines ["1 = 2\n"]) "" =
      (prompt "" ++ ([] ++ plainSettings.report "1 = 2\n" "<repl>" (.notAProgram e))
          ++ (converse plainSettings 1 (withLines []) "").1,
        (converse plainSettings 1 (withLines []) "").2) := by
  have conditional : (parse "if true then\n").map (fun _ => ()) = .error
      { SyntaxError.at_ (.unclosedBlock [.elseIf, .else_, .endIf] (.endOfInput ⟨13, 2, 1⟩))
          (.endOfInput ⟨13, 2, 1⟩) with
        secondary := some (⟨0, 2⟩, .blockStart (.keyword .if_)) } := by
    decide +kernel
  have target : (parse "1 = 2\n").map (fun _ => ()) =
      .error ⟨.invalidTarget, ⟨0, 1⟩, 1, 3, none⟩ := by
    decide +kernel
  constructor
  · cases failed : parse "if true then\n" with
    | ok p =>
        rw [failed] at conditional
        cases conditional
    | error e =>
        rw [failed] at conditional
        cases conditional
        refine (((waits_iff "if true then\n").2 _ failed plainSettings 1 _ _ "" _ rfl rfl ?_).1 ?_)
        · exact ⟨by decide +kernel, fun _ => by decide +kernel⟩
        · exact .inl (by decide +kernel)
  · cases failed : parse "1 = 2\n" with
    | ok p =>
        rw [failed] at target
        cases target
    | error e =>
        rw [failed] at target
        cases target
        refine ⟨_, rfl, ((waits_iff "1 = 2\n").2 _ failed plainSettings 1 _ _ "" _ rfl rfl ?_).2 ?_⟩
        · exact ⟨by decide +kernel, fun _ => by decide +kernel⟩
        · rintro (span | ⟨_, _, _, _, problem, _⟩)
          · exact absurd span (by decide +kernel)
          · cases problem

/-- A no-break space at the end of a line is refused, wherever the text goes on. The text is
not refused at its end, but waits. -/
theorem waits_at_noBreakSpace :
    ∃ e, parse "x = 1 \u00a0\n" = .error e ∧ e.problem = .unrecognisedCharacter '\u00a0' ∧
      e.span = ⟨6, 8⟩ ∧ byteLength "x = 1 \u00a0\n".toList = 9 ∧
      isIncomplete "x = 1 \u00a0\n" = true := by
  have run : (parse "x = 1 \u00a0\n").map (fun _ => ()) =
      .error ⟨.unrecognisedCharacter '\u00a0', ⟨6, 8⟩, 1, 7, none⟩ := by
    decide +kernel
  cases failed : parse "x = 1 \u00a0\n" with
  | ok p =>
      rw [failed] at run
      cases run
  | error e =>
      rw [failed] at run
      cases run
      exact ⟨_, rfl, rfl, rfl, by decide +kernel, by decide +kernel⟩

end Command

end Pseudocode

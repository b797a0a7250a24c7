import Pseudocode.Proofs.Derivation.Parsing
import Pseudocode.Proofs.Spans.Location
import Pseudocode.Proofs.Spans.Places

/-!
The line and column of a syntax error.

An error has a span, and a line and column beside it. Those of a token are the line and
column at which its span starts, and so are those of every error, with one exception:
what cannot be assigned to is blamed by its span, but its line and column are those of
the equals sign (`syntax_error_place_iff`).
-/

namespace Pseudocode

variable {source : String} {ts : List Token} {stop : Position} {t : Token}

theorem inOrder_of_tokenizeChars {cs : List Char} (lexed : tokenizeChars cs = .ok (ts, stop)) :
    InOrder ts := by
  obtain ⟨_, each, apart⟩ := tokens_ordered lexed
  exact ⟨apart, fun t mem => (each t mem).1⟩

/-! ### Errors of the lexer -/

theorem place_of_lexing {e : SyntaxError} (failed : tokenizeChars source.toList = .error e) :
    (e.line, e.column) = lineColumn source e.span.start ∧ e.problem ≠ .invalidTarget := by
  have start (before : List Char) : (Position.first.after before).offset = byteLength before := by
    rw [Position.offset_after]
    exact Nat.zero_add _
  cases left : (lexemes source.toList).2.2 with
  | cons c rest =>
      obtain ⟨before, whole, place⟩ := (lexemes_stand source.toList).2
      rw [tokenizeChars_of_left left] at failed
      cases failed
      constructor
      · dsimp only
        rw [place, start, lineColumn_eq whole]
        rfl
      · dsimp only
        split <;> nofun
  | nil =>
      obtain ⟨l, before, after, text, whole, place, _, rfl⟩ := exists_blame_of_covered left failed
      have placed : (l.start.line, l.start.column) = lineColumn source l.span.start := by
        rw [PlacedLexeme.span, place, start, lineColumn_eq whole]
        rfl
      exact ⟨placed, nofun⟩

/-! ### Errors of the parser -/

/-- A part of a row starts where its first token does. -/
theorem Spans.start {us : List Token} {s : Span} (spans : Spans us s) :
    ∃ t ∈ us, us.head? = some t ∧ s.start = t.span.start := by
  obtain ⟨t, _, head, _, rfl⟩ := spans
  exact ⟨t, List.mem_of_mem_head? head, head, rfl⟩

theorem place_of_blamed {e : SyntaxError} (lexed : tokenizeChars source.toList = .ok (ts, stop))
    (blamed : Blamed ts (.endOfInput stop) e) :
    (e.line, e.column) = lineColumn source e.span.start ↔ e.problem ≠ .invalidTarget := by
  have ordered := inOrder_of_tokenizeChars lexed
  cases blamed with
  | token mem span place fits =>
      have other : e.problem ≠ .invalidTarget := by
        intro invalid
        rw [invalid] at fits
        exact fits
      rw [place, span]
      exact iff_of_true (Token.place_eq lexed mem) other
  | @member earlier us later modifier m whole written span place twice =>
      have other : e.problem ≠ .invalidTarget := by
        obtain ⟨className, twice⟩ := twice
        rw [twice]
        nofun
      have row : InOrder (modifier :: us) := ordered.sublist (by simp [whole])
      obtain ⟨t, _, head, start⟩ := (written.spans_member row).start
      obtain rfl := Option.some.inj head
      rw [place, span, start]
      exact iff_of_true (Token.place_eq lexed (by simp [whole])) other
  | @target earlier us later equals target whole written span place invalid =>
      have row : InOrder (us ++ equals :: later) := ordered.sublist (by simp [whole])
      have spans : Spans us target.span := written.spanned (row.sublist (by simp))
      obtain ⟨t, mem, _, start⟩ := spans.start
      have later := Spans.before row mem List.mem_cons_self
      rw [place, span, start]
      refine iff_of_false ?_ (not_not.mpr invalid)
      exact Token.place_ne lexed (by simp [whole, mem]) (by simp [whole]) (by omega)

theorem parse_eq_error {e : SyntaxError} (failed : parse source = .error e) :
    tokenizeChars source.toList = .error e ∨ ∃ ts stop, tokenizeChars source.toList = .ok (ts, stop) ∧
      Program.ofTokens ts (.endOfInput stop) = .error e := by
  unfold parse at failed
  cases lexed : tokenizeChars source.toList with
  | error e' =>
      rw [lexed] at failed
      cases failed
      exact .inl rfl
  | ok read =>
      rw [lexed] at failed
      exact .inr ⟨read.1, read.2, rfl, failed⟩

/-! ### Diagnostics -/

/-- The line that names a place. -/
def Page.arrow (page : Page) (width line column : Nat) : String :=
  spaces width ++ Paint.gutter.apply page.color "-->" ++ " " ++ page.file ++ ":"
    ++ Decimal.numeral line ++ ":" ++ Decimal.numeral column ++ "\n"

/-- A text that points at a span names the line and column at which it starts. -/
theorem Page.PointsAt.arrow {page : Page} {text : String} {s : Span} (points : page.PointsAt text s) :
    ∃ width before after, text = before ++ "\n"
      ++ page.arrow width (lineColumn page.source s.start).1 (lineColumn page.source s.start).2
      ++ after := by
  obtain ⟨width, before, between, content, length, remark, after, _, _, rfl⟩ := points
  refine ⟨width, before, between ++ "\n"
    ++ page.sourceLine width (lineColumn page.source s.start).1 content
    ++ page.underline width ((lineColumn page.source s.start).2 - 1) length remark ++ after, ?_⟩
  simp only [Page.placeLine, Page.arrow, String.append_assoc]

/-- The diagnostic of an error points at its span. -/
theorem pointsAt_of_parse_error {e : SyntaxError} (failed : parse source = .error e) (page : Page) :
    page.PointsAt (page.render e.diagnostic) e.span := by
  have within := parse_sited source
  rw [failed] at within
  have placed : (Failure.notAProgram e).span ≠ .unplaced := Span.Within.placed within
  obtain ⟨l, more, labels, primary, same⟩ := Failure.labels_diagnostic placed
  have points := page.render_pointsAt labels primary
  rwa [same] at points

/-- The line and column of an error are those at which its span starts, and its diagnostic
names them too, unless it is about a target of an assignment: then they never are. -/
theorem syntax_error_place_iff (source : String) (e : SyntaxError) (failed : parse source = .error e) :
    ((e.line, e.column) = lineColumn source e.span.start ↔ e.problem ≠ .invalidTarget) ∧
      ∀ page : Page, page.source = source → e.problem ≠ .invalidTarget →
        ∃ width before after, page.render e.diagnostic =
          before ++ "\n" ++ page.arrow width e.line e.column ++ after := by
  have placed : (e.line, e.column) = lineColumn source e.span.start ↔ e.problem ≠ .invalidTarget := by
    rcases parse_eq_error failed with failed | ⟨ts, stop, lexed, failed⟩
    · obtain ⟨place, other⟩ := place_of_lexing failed
      exact iff_of_true place other
    · exact place_of_blamed lexed (blamed_of_ofTokens rfl failed)
  refine ⟨placed, ?_⟩
  rintro page rfl other
  have arrow := (pointsAt_of_parse_error failed page).arrow
  rwa [← placed.mpr other] at arrow

/-- A parameter that is there twice, in the second line. -/
def sameParameters : String := "let a = 1\nfunction f(x, x)\nendfunction"

theorem syntax_error_place_iff_sameParameters :
    ∃ e, parse sameParameters = .error e ∧ e.problem = .duplicateParameter "x" "f" ∧
      ((e.line, e.column) = lineColumn sameParameters e.span.start ↔ e.problem ≠ .invalidTarget) ∧
      ∀ page : Page, page.source = sameParameters → e.problem ≠ .invalidTarget →
        ∃ width before after, page.render e.diagnostic =
          before ++ "\n" ++ page.arrow width e.line e.column ++ after := by
  have run : ((parse sameParameters).map fun _ => ()).mapError SyntaxError.problem =
      .error (.duplicateParameter "x" "f") := by
    decide +kernel
  cases failed : parse sameParameters with
  | ok p =>
      rw [failed] at run
      cases run
  | error e =>
      rw [failed] at run
      exact ⟨e, rfl, Except.error.inj run, syntax_error_place_iff _ e failed⟩

/-- A number cannot be assigned to. The error has the span of the number and the line and
column of the equals sign. -/
theorem target_error_misplaced :
    ∃ e, parse "1 = 2" = .error e ∧ e.span = ⟨0, 1⟩ ∧ (e.line, e.column) = (1, 3) ∧
      (e.line, e.column) ≠ lineColumn "1 = 2" e.span.start := by
  have run : (parse "1 = 2").map (fun _ => ()) =
      .error ⟨.invalidTarget, ⟨0, 1⟩, 1, 3, none⟩ := by
    decide +kernel
  cases failed : parse "1 = 2" with
  | ok p =>
      rw [failed] at run
      cases run
  | error e =>
      rw [failed] at run
      cases run
      exact ⟨_, rfl, rfl, rfl, by decide +kernel⟩

end Pseudocode

import Pseudocode.Proofs.Lexing.Number
import Pseudocode.Proofs.Spans.ErrorPlace

/-!
Errors that no text has.

The lexeme grammar has only symbols of the vocabulary, and a float is a row of digits with
one point in it, which can be read. So two problems that the lexer and the parser are
prepared for do not arise (`arises_of_parse`).
-/

namespace Pseudocode

/-! ### Floats can be read -/

namespace Decimal

/-- At most one point. -/
theorem isSome_parseNumeral? {d : Char} {parts : List Char} (digit : isDigit d = true)
    (each : ∀ c ∈ parts, isDigit c = true ∨ c = '.') (few : parts.count '.' ≤ 1) :
    (parseNumeral? (d :: parts)).isSome = true := by
  unfold parseNumeral?
  rw [List.takeWhile_cons_of_pos digit, List.dropWhile_cons_of_pos digit]
  cases rest : parts.dropWhile isDigit with
  | nil => rfl
  | cons c after =>
      obtain ⟨front, whole⟩ : ∃ front, parts = front ++ c :: after := by
        rw [← rest]
        exact ⟨_, List.takeWhile_append_dropWhile.symm⟩
      have other : isDigit c = false := Lexeme.head_dropWhile (by rw [rest]; rfl)
      obtain rfl : c = '.' := (each c (by simp [whole])).resolve_left (by simp [other])
      have digits : ∀ c ∈ after, isDigit c = true := by
        intro c mem
        apply (each c (by simp [whole, mem])).resolve_right
        rintro rfl
        rw [whole, List.count_append, List.count_cons_self] at few
        have again := List.one_le_count_iff.mpr mem
        omega
      simp only
      rw [List.dropWhile_eq_nil_iff.mpr digits]
      rfl

/-- What starts with a digit has no sign. -/
theorem splitSign_of_isDigit {d : Char} (digit : isDigit d = true) (ds : List Char) :
    splitSign (d :: ds) = (false, d :: ds) := by
  unfold splitSign
  split
  · rename_i same
    cases same
    cases digit
  · rename_i same
    cases same
    cases digit
  · rfl

theorem isSome_parseDouble? {d : Char} {parts : List Char} (digit : isDigit d = true)
    (each : ∀ c ∈ parts, isDigit c = true ∨ c = '.') (few : parts.count '.' ≤ 1) :
    (parseDouble? (d :: parts)).isSome = true := by
  obtain ⟨n, read⟩ := Option.isSome_iff_exists.mp (isSome_parseNumeral? digit each few)
  unfold parseDouble?
  rw [splitSign_of_isDigit digit]
  simp only [read, Option.isSome_some]

end Decimal

variable {source : String} {ts : List Token} {stop : Position} {t : Token} {e : SyntaxError}

/-- The text of a float: digits with at most one point in them, the first of them a digit. -/
theorem Token.exists_float {cs : List Char} (lexed : tokenizeChars cs = .ok (ts, stop)) (mem : t ∈ ts)
    (float : t.kind = .float) : ∃ d ds, t.value.toList = d :: ds ∧ Decimal.isDigit d = true ∧
      (∀ c ∈ ds, Decimal.isDigit c = true ∨ c = '.') ∧ ds.count '.' ≤ 1 := by
  obtain ⟨d, parts, value, digit, each, few, _⟩ := Token.exists_number lexed mem (.inr float)
  have kept : d ≠ '_' := by
    rintro rfl
    cases digit
  refine ⟨d, parts.filter (· != '_'), ?_, digit, ?_, ?_⟩
  · rw [value, String.toList_ofList, List.filter_cons_of_pos (by simpa using kept)]
  · intro c mem
    obtain ⟨mem, other⟩ := List.mem_filter.mp mem
    have part := each c mem
    simp only [Lexeme.isNumberPart, Bool.or_eq_true, beq_iff_eq] at part
    rcases part with (digit | point) | mark
    · exact .inl digit
    · exact .inr point
    · rw [mark] at other
      cases other
  · have fewer := (List.filter_sublist (p := (· != '_')) (l := parts)).count_le '.'
    have all := List.count_le_count_cons (a := '.') (b := d) (l := parts)
    omega

theorem isSome_of_float {cs : List Char} (lexed : tokenizeChars cs = .ok (ts, stop)) (mem : t ∈ ts)
    (float : t.kind = .float) : (Decimal.parseDouble? t.value.toList).isSome = true := by
  obtain ⟨d, ds, value, digit, each, few⟩ := Token.exists_float lexed mem float
  rw [value]
  exact Decimal.isSome_parseDouble? digit each few

/-! ### Problems -/

/-- The problem is not that a symbol is not in the vocabulary or that a float cannot be
read. -/
def SyntaxProblem.Arises (problem : SyntaxProblem) : Prop :=
  (∀ text, problem ≠ .unrecognisedSymbol text) ∧ ∀ text, problem ≠ .invalidFloat text

theorem arises_of_tokenizeChars {cs : List Char} (failed : tokenizeChars cs = .error e) :
    e.problem.Arises := by
  cases left : (lexemes cs).2.2 with
  | cons c rest =>
      rw [tokenizeChars_of_left left] at failed
      cases failed
      unfold SyntaxProblem.Arises
      dsimp only
      split <;> exact ⟨nofun, nofun⟩
  | nil =>
      obtain ⟨_, _, _, _, _, _, _, rfl⟩ := exists_blame_of_covered left failed
      exact ⟨nofun, nofun⟩

theorem arises_of_fits {cs : List Char} (lexed : tokenizeChars cs = .ok (ts, stop))
    (mem : t ∈ ts ++ [.endOfInput stop]) {problem : SyntaxProblem} (fits : problem.Fits t) :
    problem.Arises := by
  constructor
  · rintro text rfl
    exact fits
  · rintro text rfl
    obtain ⟨float, _, unread⟩ := fits
    rcases List.mem_append.mp mem with mem | mem
    · have read := isSome_of_float lexed mem float
      rw [unread] at read
      cases read
    · obtain rfl := List.mem_singleton.mp mem
      cases float

theorem arises_of_parse (failed : parse source = .error e) : e.problem.Arises := by
  rcases parse_eq_error failed with failed | ⟨ts, stop, lexed, failed⟩
  · exact arises_of_tokenizeChars failed
  · cases blamed_of_ofTokens rfl failed with
    | token mem _ _ fits => exact arises_of_fits lexed mem fits
    | member _ _ _ _ twice =>
        obtain ⟨className, twice⟩ := twice
        rw [twice]
        exact ⟨nofun, nofun⟩
    | target _ _ _ _ invalid =>
        rw [invalid]
        exact ⟨nofun, nofun⟩

end Pseudocode

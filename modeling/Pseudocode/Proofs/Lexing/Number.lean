import Pseudocode.Proofs.Lexing.Token

/-!
Numbers among the tokens of a text.

The value of an integer is a row of digits; that of a float is two rows of digits with
a point between them, the first of which is not empty.
-/

namespace Pseudocode

theorem Decimal.isDigits_iff {ds : List Char} :
    isDigits ds = true ↔ ds ≠ [] ∧ ∀ c ∈ ds, isDigit c = true := by
  simp [isDigits]

/-! ### The tokens of a numeral -/

section Numeral

variable {d : Char} {parts : List Char} (digit : Decimal.isDigit d = true)
  (each : ∀ c ∈ parts, Decimal.isDigit c = true ∨ c = '_')

include digit each

/-- The separators are left out. -/
theorem isDigits_filter : Decimal.isDigits ((d :: parts).filter (· != '_')) = true := by
  apply Decimal.isDigits_iff.mpr
  constructor
  · intro none
    have gone := List.filter_eq_nil_iff.mp none d List.mem_cons_self
    simp only [bne_iff_ne, not_not] at gone
    subst gone
    cases digit
  · intro c mem
    obtain ⟨mem, kept⟩ := List.mem_filter.mp mem
    rcases List.mem_cons.mp mem with rfl | mem
    · exact digit
    · rcases each c mem with digit | rfl
      · exact digit
      · cases kept

theorem Lexeme.Stands.numeral : Lexeme.Stands (.number (d :: parts)) [] := by
  apply Lexeme.Stands.number digit
  · intro c mem
    rcases each c mem with digit | rfl
    · simp [isNumberPart, digit]
    · rfl
  · intro c found
    cases found

/-- A numeral without a point is an integer. -/
theorem PlacedLexeme.token_numeral (p : Position) (b : Bool) :
    ∃ t, (⟨.number (d :: parts), p⟩ : PlacedLexeme).token b = .ok t ∧ t.kind = .integer ∧
      t.value = String.ofList ((d :: parts).filter (· != '_')) := by
  have none : '.' ∉ d :: parts := by
    intro mem
    rcases List.mem_cons.mp mem with rfl | mem
    · cases digit
    · rcases each '.' mem with digit | same
      · cases digit
      · cases same
  have made : (⟨.number (d :: parts), p⟩ : PlacedLexeme).token b =
      .ok ⟨.integer, String.ofList ((d :: parts).filter (· != '_')),
        PlacedLexeme.span ⟨.number (d :: parts), p⟩, p.line, p.column⟩ := by
    unfold token
    dsimp only
    rw [List.count_eq_zero_of_not_mem none, if_neg (by decide), List.contains_eq_mem,
      decide_eq_false none]
    rfl
  exact ⟨_, made, rfl, rfl⟩

theorem Scan.numeral (p : Position) :
    Scan p (d :: parts) [⟨.number (d :: parts), p⟩] (p.after (d :: parts)) [] := by
  have scan : Scan p ([] ++ ((Lexeme.number (d :: parts)).spelling ++ []))
      [⟨.number (d :: parts), p.after []⟩] ((p.after []).after (d :: parts)) [] :=
    .next .nil (Lexeme.Stands.numeral digit each) (.done _ _)
  rwa [List.nil_append, List.append_nil] at scan

/-- A numeral alone in a text is one token. -/
theorem tokenizeChars_numeral :
    ∃ t stop, tokenizeChars (d :: parts) = .ok ([t], stop) ∧ t.kind = .integer ∧
      t.value = String.ofList ((d :: parts).filter (· != '_')) := by
  obtain ⟨t, made, kind, value⟩ := PlacedLexeme.token_numeral digit each .first false
  have row : tokensOf false [⟨.number (d :: parts), .first⟩] = .ok [t] :=
    tokensOf_cons_eq_ok.mpr ⟨t, [], rfl, made, rfl⟩
  exact ⟨t, _, tokenizeChars_eq_ok.mpr ⟨_, _, _, .numeral digit each .first, .nil, row, rfl⟩, kind, value⟩

/-- A numeral after a minus sign is the sign and one more token. -/
theorem tokenizeChars_minus :
    ∃ sign t stop, tokenizeChars ('-' :: d :: parts) = .ok ([sign, t], stop) ∧
      sign.kind = .symbol .minus ∧ t.kind = .integer ∧
      t.value = String.ofList ((d :: parts).filter (· != '_')) := by
  have single : Lexeme.Stands (.symbol ['-']) (d :: parts) := by
    refine .single rfl (fun _ _ _ => rfl) ?_
    rintro _ _ _ ⟨⟩
  have scan : Scan .first ([] ++ (['-'] ++ (d :: parts)))
      [⟨.symbol ['-'], .first⟩, ⟨.number (d :: parts), Position.first.after ['-']⟩]
      ((Position.first.after ['-']).after (d :: parts)) [] :=
    .next (l := .symbol ['-']) .nil single (.numeral digit each _)
  obtain ⟨t, made, kind, value⟩ :=
    PlacedLexeme.token_numeral digit each (Position.first.after ['-']) false
  have row : tokensOf false [⟨.symbol ['-'], .first⟩,
      ⟨.number (d :: parts), Position.first.after ['-']⟩] =
        .ok [⟨.symbol .minus, "-", ⟨0, 1⟩, 1, 1⟩, t] :=
    tokensOf_cons_eq_ok.mpr
      ⟨_, [t], rfl, rfl, tokensOf_cons_eq_ok.mpr ⟨t, [], rfl, made, rfl⟩⟩
  exact ⟨_, t, _, tokenizeChars_eq_ok.mpr ⟨_, _, _, scan, .nil, row, rfl⟩, rfl, kind, value⟩

end Numeral

/-! ### Numbers in any text -/

namespace PlacedLexeme

variable {afterDot : Bool} {l : PlacedLexeme} {t : Token}

/-- A point makes a number a float, and there is at most one. -/
theorem token_point {text : List Char} (number : l.lexeme = .number text)
    (made : l.token afterDot = .ok t) :
    text.count '.' ≤ 1 ∧ (t.kind = .integer ↔ '.' ∉ text) := by
  unfold token at made
  rw [number] at made
  dsimp only at made
  split at made
  · cases made
  · rename_i few
    cases made
    refine ⟨Nat.le_of_not_lt few, ?_⟩
    by_cases point : '.' ∈ text <;> simp [point]

/-- Only a number is an integer or a float. -/
theorem token_of_number (made : l.token afterDot = .ok t) (kind : t.kind = .integer ∨ t.kind = .float) :
    ∃ text, l.lexeme = .number text ∧ t.value = String.ofList (text.filter (· != '_')) := by
  cases lexeme : l.lexeme with
  | number text => exact ⟨text, rfl, (token_number lexeme made).2⟩
  | word text =>
      rcases wordKind_cases afterDot text with word | ⟨k, word, _⟩ <;>
        rcases kind with kind | kind <;> rw [(token_word lexeme made).1, word] at kind <;> cases kind
  | quoted content =>
      rcases kind with kind | kind <;> rw [(token_quoted lexeme made).1] at kind <;> cases kind
  | symbol text =>
      obtain ⟨s, symbol, _⟩ := token_symbol lexeme made
      rcases kind with kind | kind <;> rw [symbol] at kind <;> cases kind

end PlacedLexeme

variable {cs : List Char} {ts : List Token} {stop : Position} {t : Token}

/-- The text of a number: it starts with a digit, and goes on with digits, separators and
points. -/
theorem Token.exists_number (lexed : tokenizeChars cs = .ok (ts, stop)) (mem : t ∈ ts)
    (kind : t.kind = .integer ∨ t.kind = .float) :
    ∃ d parts, t.value = String.ofList ((d :: parts).filter (· != '_')) ∧
      Decimal.isDigit d = true ∧ (∀ c ∈ parts, Lexeme.isNumberPart c = true) ∧
      (d :: parts).count '.' ≤ 1 ∧ (t.kind = .integer ↔ '.' ∉ d :: parts) := by
  obtain ⟨earlier, later, rfl⟩ := List.append_of_mem mem
  obtain ⟨site⟩ := Token.exists_site lexed
  obtain ⟨p, made⟩ := site.made
  obtain ⟨text, number, value⟩ := PlacedLexeme.token_of_number made kind
  have points := PlacedLexeme.token_point number made
  have stands := site.stands
  change site.lexeme = .number text at number
  rw [number] at stands
  cases stands with
  | number digit each _ => exact ⟨_, _, value, digit, each, points⟩

theorem isDigits_of_integer (lexed : tokenizeChars cs = .ok (ts, stop)) (mem : t ∈ ts)
    (kind : t.kind = .integer) : Decimal.isDigits t.value.toList = true := by
  obtain ⟨d, parts, value, digit, each, _, integer⟩ := Token.exists_number lexed mem (.inl kind)
  have none := integer.mp kind
  rw [value, String.toList_ofList]
  apply isDigits_filter digit
  intro c mem
  have part := each c mem
  simp only [Lexeme.isNumberPart, Bool.or_eq_true, beq_iff_eq] at part
  rcases part with (digit | rfl) | mark
  · exact .inl digit
  · exact absurd (List.mem_cons_of_mem d mem) none
  · exact .inr mark

end Pseudocode

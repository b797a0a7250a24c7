import Pseudocode.Proofs.Lexing.Scan
import Pseudocode.Proofs.Lexing.Slice

/-!
Tokens and the lexemes that they stand for.

A text has tokens when it is scanned to its end, up to a last gap, and each lexeme
can be classified (`tokenizeChars_eq_ok`). Tokens correspond to lexemes one by one, so
a part of the tokens comes from a part of the lexemes (`tokensOf_append`).
-/

namespace Pseudocode

/-! ### One token -/

/-- How the text of a token gives its value. -/
def Token.SpelledBy (t : Token) (text : List Char) : Prop :=
  match t.kind with
  | .integer | .float => t.value.toList = text.filter (· != '_')
  | .text => text = '"' :: (t.value.toList ++ ['"']) ∧ '"' ∉ t.value.toList
  | .endOfInput => text = []
  | _ => text = t.value.toList

/-- The kind of a word: reserved words are names after a dot. -/
def wordKind (afterDot : Bool) (word : List Char) : TokenKind :=
  match Keyword.ofText? (String.ofList word) with
  | some k => if afterDot then .identifier else .keyword k
  | none => .identifier

namespace PlacedLexeme

variable {afterDot : Bool} {l : PlacedLexeme} {t : Token}

/-- A token stands where its lexeme does. -/
theorem token_place (made : l.token afterDot = .ok t) :
    t.span = l.span ∧ (t.line, t.column) = l.start.place := by
  unfold token at made
  split at made
  · split at made <;> cases made <;> exact ⟨rfl, rfl⟩
  · split at made <;> cases made
    exact ⟨rfl, rfl⟩
  · cases made
    exact ⟨rfl, rfl⟩
  · split at made <;> cases made
    exact ⟨rfl, rfl⟩

theorem token_word {text : List Char} (word : l.lexeme = .word text)
    (made : l.token afterDot = .ok t) :
    t.kind = wordKind afterDot text ∧ t.value = String.ofList text := by
  unfold token at made
  rw [word] at made
  dsimp only at made
  unfold wordKind
  generalize Keyword.ofText? (String.ofList text) = found at made ⊢
  cases found <;> cases made <;> exact ⟨rfl, rfl⟩

theorem token_number {text : List Char} (number : l.lexeme = .number text)
    (made : l.token afterDot = .ok t) :
    (t.kind = .integer ∨ t.kind = .float) ∧ t.value = String.ofList (text.filter (· != '_')) := by
  unfold token at made
  rw [number] at made
  dsimp only at made
  split at made
  · cases made
  · cases made
    refine ⟨?_, rfl⟩
    dsimp only
    split
    · exact .inr rfl
    · exact .inl rfl

theorem token_quoted {content : List Char} (quoted : l.lexeme = .quoted content)
    (made : l.token afterDot = .ok t) : t.kind = .text ∧ t.value = String.ofList content := by
  unfold token at made
  rw [quoted] at made
  cases made
  exact ⟨rfl, rfl⟩

theorem token_symbol {text : List Char} (symbol : l.lexeme = .symbol text)
    (made : l.token afterDot = .ok t) :
    ∃ s : Symbol, t.kind = .symbol s ∧ t.value = s.text ∧ s.text = String.ofList text := by
  unfold token at made
  rw [symbol] at made
  dsimp only at made
  split at made
  · rename_i s found
    cases made
    exact ⟨s, rfl, (Symbol.text_of_ofText? found).symm, Symbol.text_of_ofText? found⟩
  · cases made

/-- No lexeme ends the text. -/
theorem token_kind (made : l.token afterDot = .ok t) : t.kind ≠ .endOfInput := by
  unfold token at made
  split at made
  · split at made <;> cases made
    · dsimp only
      split <;> exact TokenKind.noConfusion
    · exact TokenKind.noConfusion
  · split at made <;> cases made
    dsimp only
    split <;> exact TokenKind.noConfusion
  · cases made
    exact TokenKind.noConfusion
  · split at made <;> cases made
    exact TokenKind.noConfusion

/-- A lexeme that is no token is a number with more than one point. -/
theorem token_error {e : SyntaxError} {after : List Char} (stands : l.lexeme.Stands after)
    (failed : l.token afterDot = .error e) : ∃ text, e = l.blame (.repeatedPoint text) := by
  unfold token at failed
  split at failed
  · split at failed <;> cases failed
  · split at failed <;> cases failed
    exact ⟨_, rfl⟩
  · cases failed
  · rename_i text lexeme
    rw [lexeme] at stands
    obtain ⟨s, symbol⟩ := stands.exists_symbol
    rw [symbol] at failed
    cases failed

end PlacedLexeme

theorem wordKind_cases (afterDot : Bool) (text : List Char) :
    wordKind afterDot text = .identifier ∨
      ∃ k, wordKind afterDot text = .keyword k ∧ k.text = String.ofList text := by
  unfold wordKind
  split
  · rename_i k found
    split
    · exact .inl rfl
    · exact .inr ⟨k, rfl, Keyword.text_of_ofText? found⟩
  · exact .inl rfl

/-! ### Rows of tokens -/

/-- Whether the last token is a dot; with no token, whether one stands before. -/
def endsInDot (before : Bool) (ts : List Token) : Bool :=
  ts.foldl (fun _ t => t.kind == .symbol .dot) before

@[simp] theorem endsInDot_nil (before : Bool) : endsInDot before [] = before := rfl

@[simp] theorem endsInDot_cons (before : Bool) (t : Token) (ts : List Token) :
    endsInDot before (t :: ts) = endsInDot (decide (t.kind = .symbol .dot)) ts := rfl

@[simp] theorem endsInDot_append (before : Bool) (us vs : List Token) :
    endsInDot before (us ++ vs) = endsInDot (endsInDot before us) vs := List.foldl_append

section Rows

variable {b : Bool} {l : PlacedLexeme} {ls : List PlacedLexeme} {t : Token} {ts us vs : List Token}

theorem tokensOf_cons_eq_ok : tokensOf b (l :: ls) = .ok ts ↔
    ∃ t rest, ts = t :: rest ∧ l.token b = .ok t ∧
      tokensOf (t.kind == .symbol .dot) ls = .ok rest := by
  rw [tokensOf]
  cases l.token b with
  | error e => exact ⟨nofun, nofun⟩
  | ok t =>
      change (tokensOf (t.kind == .symbol .dot) ls >>= fun rest => .ok (t :: rest)) = .ok ts ↔ _
      cases read : tokensOf (t.kind == .symbol .dot) ls with
      | error e =>
          refine ⟨nofun, ?_⟩
          rintro ⟨_, _, _, ⟨⟩, found⟩
          rw [read] at found
          cases found
      | ok rest =>
          constructor
          · rintro ⟨⟩
            exact ⟨t, rest, rfl, rfl, read⟩
          · rintro ⟨_, _, rfl, ⟨⟩, found⟩
            rw [read] at found
            cases found
            rfl

/-- The first tokens are those of the first lexemes. -/
theorem tokensOf_append (made : tokensOf b ls = .ok (us ++ vs)) :
    ∃ ks ms, ls = ks ++ ms ∧ tokensOf b ks = .ok us ∧ tokensOf (endsInDot b us) ms = .ok vs := by
  induction us generalizing b ls with
  | nil => exact ⟨[], ls, rfl, rfl, made⟩
  | cons u us ih =>
      cases ls with
      | nil => cases made
      | cons l ls =>
          obtain ⟨t, rest, eq, first, more⟩ := tokensOf_cons_eq_ok.mp made
          obtain ⟨rfl, rfl⟩ := List.cons.inj eq
          obtain ⟨ks, ms, rfl, front, back⟩ := ih more
          exact ⟨l :: ks, ms, rfl, tokensOf_cons_eq_ok.mpr ⟨u, us, rfl, first, front⟩, back⟩

theorem tokensOf_spans (made : tokensOf b ls = .ok ts) :
    ts.map Token.span = ls.map PlacedLexeme.span := by
  induction ls generalizing b ts with
  | nil =>
      cases made
      rfl
  | cons l ls ih =>
      obtain ⟨t, rest, rfl, first, more⟩ := tokensOf_cons_eq_ok.mp made
      rw [List.map_cons, List.map_cons, ih more, (PlacedLexeme.token_place first).1]

theorem tokensOf_mem (made : tokensOf b ls = .ok ts) (mem : t ∈ ts) :
    ∃ l ∈ ls, ∃ afterDot, l.token afterDot = .ok t := by
  induction ls generalizing b ts with
  | nil =>
      cases made
      cases mem
  | cons l ls ih =>
      obtain ⟨u, rest, rfl, first, more⟩ := tokensOf_cons_eq_ok.mp made
      rcases List.mem_cons.mp mem with rfl | mem
      · exact ⟨l, List.mem_cons_self, b, first⟩
      · obtain ⟨l', mem', found⟩ := ih more mem
        exact ⟨l', List.mem_cons_of_mem l mem', found⟩

theorem tokensOf_error {e : SyntaxError} (failed : tokensOf b ls = .error e) :
    ∃ l ∈ ls, ∃ afterDot, l.token afterDot = .error e := by
  induction ls generalizing b with
  | nil => cases failed
  | cons l ls ih =>
      rw [tokensOf] at failed
      cases first : l.token b with
      | error e' =>
          rw [first] at failed
          cases failed
          exact ⟨l, List.mem_cons_self, b, first⟩
      | ok t =>
          rw [first] at failed
          change (tokensOf (t.kind == .symbol .dot) ls >>= fun rest => .ok (t :: rest)) = .error e
            at failed
          cases rest : tokensOf (t.kind == .symbol .dot) ls with
          | error e' =>
              rw [rest] at failed
              cases failed
              obtain ⟨l', mem, blamed⟩ := ih rest
              exact ⟨l', List.mem_cons_of_mem l mem, blamed⟩
          | ok ts =>
              rw [rest] at failed
              cases failed

end Rows

/-! ### Whole texts -/

/-- A text has tokens when nothing but a gap is left after its lexemes, and they all
are tokens. -/
theorem tokenizeChars_eq_ok {cs : List Char} {ts : List Token} {stop : Position} :
    tokenizeChars cs = .ok (ts, stop) ↔
      ∃ ls q gap, Scan .first cs ls q gap ∧ Blanks [] gap ∧ tokensOf false ls = .ok ts ∧
        stop = Position.first.after cs := by
  constructor
  · intro lexed
    obtain ⟨q, gap, scan, blanks, ended, _⟩ :=
      lexemesFrom_scan (p := .first) (Nat.lt_succ_self cs.length)
    unfold tokenizeChars lexemes at lexed
    generalize lexemesFrom (cs.length + 1) .first cs = parts at scan blanks ended lexed
    obtain ⟨ls, place, left⟩ := parts
    dsimp only at scan blanks ended lexed
    cases left with
    | cons c left => cases lexed
    | nil =>
        rw [List.append_nil] at scan
        obtain ⟨read, rfl, rfl, _⟩ := scan.of_prefix
        rw [List.isEmpty_nil, if_pos rfl] at lexed
        cases made : tokensOf false ls with
        | error e =>
            rw [made] at lexed
            cases lexed
        | ok us =>
            rw [made] at lexed
            cases lexed
            exact ⟨ls, _, gap, scan, blanks, made, by rw [ended, Position.after_append]⟩
  · rintro ⟨ls, q, gap, scan, blanks, made, rfl⟩
    have whole : Scan .first cs ls q (gap ++ []) := by rwa [List.append_nil]
    have found := whole.lexemesFrom_eq blanks stuck_nil (Nat.lt_succ_self cs.length)
    obtain ⟨read, rfl, rfl, _⟩ := scan.of_prefix
    unfold tokenizeChars lexemes
    rw [found, Position.after_append]
    simp only [List.isEmpty_nil, if_true, made]
    rfl

/-- A text that is left at some character has no tokens, and that character is blamed. -/
theorem tokenizeChars_of_left {cs rest : List Char} {c : Char} (left : (lexemes cs).2.2 = c :: rest) :
    tokenizeChars cs = .error ⟨if c = '"' then .unterminatedText else .unrecognisedCharacter c,
      ⟨(lexemes cs).2.1.offset, (lexemes cs).2.1.offset + c.utf8Size⟩,
      (lexemes cs).2.1.line, (lexemes cs).2.1.column, none⟩ := by
  have found : firstUnlexable .nothing .first cs = some ((lexemes cs).2.1, c) := by
    have walk := firstUnlexable_eq (p := .first) (cs.length + 1) (Nat.lt_succ_self cs.length)
    rw [← lexemes, left] at walk
    exact walk
  unfold tokenizeChars
  generalize lexemes cs = parts at left found ⊢
  obtain ⟨ls, stop, _⟩ := parts
  dsimp only at left found ⊢
  rw [left, List.isEmpty_cons, if_neg Bool.false_ne_true, lexError, found]

theorem tokenizeChars_of_covered {cs : List Char} (covered : (lexemes cs).2.2 = []) :
    tokenizeChars cs = (tokensOf false (lexemes cs).1).map fun ts => (ts, (lexemes cs).2.1) := by
  unfold tokenizeChars
  generalize lexemes cs = parts at covered ⊢
  obtain ⟨ls, stop, _⟩ := parts
  dsimp only at covered ⊢
  rw [covered, List.isEmpty_nil, if_pos rfl]

/-- A text that is covered by lexemes and has no tokens has a number with more than one
point, which is blamed. -/
theorem exists_blame_of_covered {cs : List Char} {e : SyntaxError} (covered : (lexemes cs).2.2 = [])
    (failed : tokenizeChars cs = .error e) :
    ∃ (l : PlacedLexeme) (before after : List Char) (text : String),
      cs = before ++ (l.lexeme.spelling ++ after) ∧
      l.start = Position.first.after before ∧ l.lexeme.Stands after ∧
      e = l.blame (.repeatedPoint text) := by
  rw [tokenizeChars_of_covered covered] at failed
  cases made : tokensOf false (lexemes cs).1 with
  | ok ts =>
      rw [made] at failed
      cases failed
  | error e' =>
      rw [made] at failed
      cases failed
      obtain ⟨l, mem, afterDot, refused⟩ := tokensOf_error made
      obtain ⟨_, _, scan, _, _, _⟩ := lexemesFrom_scan (p := .first) (Nat.lt_succ_self cs.length)
      obtain ⟨before, after, whole, start, stands⟩ := scan.stands_of_mem mem
      obtain ⟨text, blamed⟩ := PlacedLexeme.token_error stands refused
      exact ⟨l, before, after, text, whole, start, stands, blamed⟩

theorem kind_ne_of_tokenizeChars {cs : List Char} {ts : List Token} {stop : Position} {t : Token}
    (lexed : tokenizeChars cs = .ok (ts, stop)) (mem : t ∈ ts) : t.kind ≠ .endOfInput := by
  obtain ⟨ls, _, _, _, _, made, _⟩ := tokenizeChars_eq_ok.mp lexed
  obtain ⟨l, _, _, found⟩ := tokensOf_mem made mem
  exact PlacedLexeme.token_kind found

theorem tokenize_eq_ok {source : String} {ts : List Token} :
    tokenize source = .ok ts ↔ ∃ init stop, ts = init ++ [.endOfInput stop] ∧
      tokenizeChars source.toList = .ok (init, stop) := by
  unfold tokenize
  cases tokenizeChars source.toList with
  | error e => exact ⟨nofun, nofun⟩
  | ok read =>
      constructor
      · rintro ⟨⟩
        exact ⟨read.1, read.2, rfl, rfl⟩
      · rintro ⟨init, stop, rfl, ⟨⟩⟩
        rfl

/-! ### A token in its text -/

/-- Where the last token ends; without tokens, the start of the text. -/
def endOf (ts : List Token) : Nat := ts.foldl (fun _ t => t.span.stop) 0

theorem endOf_eq {ts : List Token} {t : Token} (last : ts.getLast? = some t) :
    endOf ts = t.span.stop := by
  obtain ⟨init, rfl⟩ := List.getLast?_eq_some_iff.mp last
  rw [endOf, List.foldl_append]
  rfl

theorem Scan.offset_eq {p q : Position} {cs rest : List Char} {ls : List PlacedLexeme}
    (scan : Scan p cs ls q rest) : q.offset = ls.foldl (fun _ l => l.span.stop) p.offset := by
  induction scan with
  | done _ _ => rfl
  | next _ _ _ ih =>
      rw [ih, Position.offset_after]
      rfl

theorem endOf_tokensOf {b : Bool} {ls : List PlacedLexeme} {ts : List Token}
    (made : tokensOf b ls = .ok ts) : endOf ts = ls.foldl (fun _ l => l.span.stop) 0 := by
  have spans := congrArg (List.foldl (fun _ s => s.stop) 0) (tokensOf_spans made)
  rw [List.foldl_map, List.foldl_map] at spans
  exact spans

/-- What stands around a token: the text up to the end of the token before it, a gap,
the text of the token and what follows. -/
structure Token.Site (cs : List Char) (earlier : List Token) (t : Token) where
  read : List Char
  gap : List Char
  lexeme : Lexeme
  after : List Char
  whole : cs = read ++ (gap ++ (lexeme.spelling ++ after))
  ended : byteLength read = endOf earlier
  blanks : Blanks (lexeme.spelling ++ after) gap
  stands : lexeme.Stands after
  start : t.span.start = byteLength (read ++ gap)
  stop : t.span.stop = byteLength (read ++ gap) + byteLength lexeme.spelling
  place : (t.line, t.column) = (Position.first.after (read ++ gap)).place
  made : ∃ p, (⟨lexeme, p⟩ : PlacedLexeme).token (endsInDot false earlier) = .ok t

theorem Token.exists_site {cs : List Char} {earlier later : List Token} {t : Token} {stop : Position}
    (lexed : tokenizeChars cs = .ok (earlier ++ t :: later, stop)) :
    Nonempty (t.Site cs earlier) := by
  obtain ⟨ls, q, last, scan, _, made, _⟩ := tokenizeChars_eq_ok.mp lexed
  obtain ⟨ks, ms, rfl, front, back⟩ := tokensOf_append made
  cases ms with
  | nil => cases back
  | cons l ms =>
      obtain ⟨_, _, eq, found, _⟩ := tokensOf_cons_eq_ok.mp back
      obtain ⟨rfl, rfl⟩ := List.cons.inj eq
      obtain ⟨r, mid, first, second⟩ := Scan.append_iff.mp scan
      have offset := first.offset_eq
      obtain ⟨read, rfl, rfl, _⟩ := first.of_prefix
      cases second with
      | @next _ _ gap tail _ lexeme _ blanks stands more =>
          obtain ⟨span, place⟩ := PlacedLexeme.token_place found
          have start : ((Position.first.after read).after gap).offset = byteLength (read ++ gap) := by
            rw [← Position.after_append, Position.offset_after]
            exact Nat.zero_add _
          have ended : byteLength read = endOf earlier := by
            rw [Position.offset_after] at offset
            rw [endOf_tokensOf front]
            exact (Nat.zero_add _).symm.trans offset
          exact ⟨{
            read := read
            gap := gap
            lexeme := lexeme
            after := tail
            whole := rfl
            ended := ended
            blanks := blanks
            stands := stands
            start := by rw [span, ← start]; rfl
            stop := by rw [span, ← start]; rfl
            place := by rw [place, Position.after_append]
            made := ⟨_, found⟩ }⟩

end Pseudocode

import Pseudocode.Proofs.Lexing.Token

/-!
The lexer loses nothing.

The tokens of a text are in order and the last one ends it. Cut out of the text at its
span, every token shows its value, words and numbers are as long as they can be, and
between the tokens there is nothing but gaps (`tokens_cover_source`).
-/

namespace Pseudocode

/-! ### Order -/

/-- The lexemes that are read off a text stand in it one after the other. -/
theorem Scan.ordered {p q : Position} {cs rest : List Char} {ls : List PlacedLexeme}
    (scan : Scan p cs ls q rest) :
    p.offset ≤ q.offset ∧
      (∀ l ∈ ls, p.offset ≤ l.span.start ∧ l.span.start < l.span.stop ∧ l.span.stop ≤ q.offset) ∧
      ls.Pairwise fun l m => l.span.stop ≤ m.span.start := by
  induction scan with
  | done _ _ => exact ⟨Nat.le_refl _, List.forall_mem_nil _, .nil⟩
  | @next p q gap tail rest l ls blanks stands _ ih =>
      obtain ⟨le, each, ordered⟩ := ih
      have size := byteLength_pos stands.ne_nil
      have start : (PlacedLexeme.mk l (p.after gap)).span.start = p.offset + byteLength gap :=
        Position.offset_after ..
      have stop : (PlacedLexeme.mk l (p.after gap)).span.stop =
          ((p.after gap).after l.spelling).offset :=
        (Position.offset_after ..).symm
      have step : ((p.after gap).after l.spelling).offset =
          p.offset + byteLength gap + byteLength l.spelling := by
        rw [Position.offset_after, Position.offset_after]
      refine ⟨by omega, ?_, .cons ?_ ordered⟩
      · intro m mem
        rcases List.mem_cons.mp mem with rfl | mem
        · omega
        · have := each m mem
          omega
      · intro m mem
        rw [stop]
        exact (each m mem).1

/-- The tokens of a text before the one that ends it. -/
theorem tokens_ordered {cs : List Char} {ts : List Token} {stop : Position}
    (lexed : tokenizeChars cs = .ok (ts, stop)) :
    stop.offset = byteLength cs ∧
      (∀ t ∈ ts, t.span.start < t.span.stop ∧ t.span.stop ≤ byteLength cs) ∧
      ts.Pairwise fun t u => t.span.stop ≤ u.span.start := by
  obtain ⟨ls, q, gap, scan, _, made, rfl⟩ := tokenizeChars_eq_ok.mp lexed
  obtain ⟨_, each, ordered⟩ := scan.ordered
  obtain ⟨read, rfl, rfl, _⟩ := scan.of_prefix
  have spans := tokensOf_spans made
  have whole : (Position.first.after (read ++ gap)).offset = byteLength (read ++ gap) := by
    rw [Position.offset_after]
    exact Nat.zero_add _
  have part : (Position.first.after read).offset = byteLength read := by
    rw [Position.offset_after]
    exact Nat.zero_add _
  refine ⟨whole, ?_, ?_⟩
  · intro t mem
    obtain ⟨l, mem', same⟩ := List.mem_map.mp (spans ▸ List.mem_map_of_mem (f := Token.span) mem)
    rw [← same, byteLength_append]
    have := each l mem'
    omega
  · have pairs : (ls.map PlacedLexeme.span).Pairwise fun s s' => s.stop ≤ s'.start :=
      List.pairwise_map.mpr ordered
    rw [← spans] at pairs
    exact List.pairwise_map.mp pairs

/-! ### Cover -/

/-- A text that starts with a character of one class and goes on with another. -/
def IsRun (first more : Char → Bool) (text : List Char) : Prop :=
  ∃ c cs, text = c :: cs ∧ first c = true ∧ ∀ d ∈ cs, more d = true

/-- A word or a number that what follows does not make longer. -/
def Token.Longest (t : Token) (text after : List Char) : Prop :=
  match t.kind with
  | .identifier | .keyword _ => IsRun Lexeme.isWordStart Lexeme.isWordPart text ∧
      ∀ c ∈ after.head?, Lexeme.isWordPart c = false
  | .integer | .float => IsRun Decimal.isDigit Lexeme.isNumberPart text ∧
      ∀ c ∈ after.head?, Lexeme.isNumberPart c = false
  | _ => True

/-- How a token fits into the text after the tokens before it. -/
structure Token.Fits (cs : List Char) (earlier : List Token) (t : Token)
    (gap text after : List Char) : Prop where
  before : (⟨endOf earlier, t.span.start⟩ : Span).slice? cs = some gap
  here : t.span.slice? cs = some text
  behind : (⟨t.span.stop, byteLength cs⟩ : Span).slice? cs = some after
  blanks : Blanks (text ++ after) gap
  spelled : t.SpelledBy text
  longest : t.Longest text after
  /-- A word has the kind of the reserved word that it is, unless a dot stands before
  it; else it is a name. -/
  reserved : IsRun Lexeme.isWordStart Lexeme.isWordPart text →
    (∀ k, t.kind = .keyword k ↔ k.text.toList = text ∧ endsInDot false earlier = false) ∧
      ((∀ k, t.kind ≠ .keyword k) → t.kind = .identifier)

theorem wordKind_eq_keyword_iff {afterDot : Bool} {text : List Char} {k : Keyword} :
    wordKind afterDot text = .keyword k ↔ k.text.toList = text ∧ afterDot = false := by
  unfold wordKind
  constructor
  · intro kind
    split at kind
    · rename_i k' found
      split at kind
      · cases kind
      · rename_i dot
        obtain rfl := TokenKind.keyword.inj kind
        exact ⟨by rw [Keyword.text_of_ofText? found, String.toList_ofList], by simpa using dot⟩
    · cases kind
  · rintro ⟨rfl, rfl⟩
    rw [String.ofList_toList, Keyword.ofText?_text]
    rfl

/-- Symbols and quoted texts are no words. -/
theorem Lexeme.Stands.word_of_run {l : Lexeme} {after : List Char} (stands : l.Stands after)
    (run : IsRun isWordStart isWordPart l.spelling) : ∃ text, l = .word text := by
  obtain ⟨c, cs, eq, start, _⟩ := run
  cases stands with
  | number digit _ _ =>
      obtain ⟨rfl, _⟩ := List.cons.inj eq
      rw [not_isDigit_of_isWordStart start] at digit
      cases digit
  | quoted _ =>
      obtain ⟨rfl, _⟩ := List.cons.inj eq
      cases start
  | word _ _ _ => exact ⟨_, rfl⟩
  | pair takes =>
      obtain ⟨rfl, _⟩ := List.cons.inj eq
      simp only [takesEquals, List.contains_iff_mem, List.mem_cons, List.not_mem_nil, or_false] at takes
      rcases takes with rfl | rfl | rfl | rfl <;> cases start
  | single symbol _ _ =>
      obtain ⟨rfl, _⟩ := List.cons.inj eq
      have other := of_isSymbol (p := fun c => !isWordStart c) (by decide) symbol
      rw [start] at other
      cases other

/-- The lexeme of a token spells its value, as long as it can be. -/
theorem PlacedLexeme.token_spelled {l : PlacedLexeme} {b : Bool} {t : Token} {after : List Char}
    (made : l.token b = .ok t) (stands : l.lexeme.Stands after) :
    t.SpelledBy l.lexeme.spelling ∧ t.Longest l.lexeme.spelling after := by
  obtain ⟨lexeme, start⟩ := l
  unfold Token.SpelledBy Token.Longest
  dsimp only at stands ⊢
  cases stands with
  | number digit each ended =>
      obtain ⟨kind, value⟩ := token_number rfl made
      rcases kind with kind | kind <;> rw [kind, value] <;>
        exact ⟨String.toList_ofList, ⟨_, _, rfl, digit, each⟩, ended⟩
  | quoted inside =>
      obtain ⟨kind, value⟩ := token_quoted rfl made
      rw [kind, value, String.toList_ofList]
      exact ⟨⟨rfl, inside⟩, trivial⟩
  | word first each ended =>
      obtain ⟨kind, value⟩ := token_word rfl made
      rw [kind, value, String.toList_ofList]
      rcases wordKind_cases b _ with word | ⟨k, word, _⟩ <;> rw [word] <;>
        exact ⟨rfl, ⟨_, _, rfl, first, each⟩, ended⟩
  | pair _ =>
      obtain ⟨s, kind, value, text⟩ := token_symbol rfl made
      rw [kind, value, text, String.toList_ofList]
      exact ⟨rfl, trivial⟩
  | single _ _ _ =>
      obtain ⟨s, kind, value, text⟩ := token_symbol rfl made
      rw [kind, value, text, String.toList_ofList]
      exact ⟨rfl, trivial⟩

theorem Token.Site.fits {cs : List Char} {earlier : List Token} {t : Token}
    (site : t.Site cs earlier) :
    t.Fits cs earlier site.gap site.lexeme.spelling site.after := by
  obtain ⟨read, gap, lexeme, after, rfl, ended, blanks, stands, start, stop, _, p, made⟩ := site
  obtain ⟨spelled, longest⟩ := PlacedLexeme.token_spelled made stands
  constructor
  case before =>
    rw [Span.slice?_eq_some]
    exact ⟨read, _, rfl, ended.symm, start.trans (byteLength_append ..)⟩
  case here =>
    rw [Span.slice?_eq_some]
    exact ⟨read ++ gap, after, by simp, start, stop⟩
  case behind =>
    rw [Span.slice?_eq_some]
    refine ⟨read ++ (gap ++ lexeme.spelling), [], by simp, ?_, by simp [byteLength_append, Nat.add_assoc]⟩
    dsimp only
    rw [stop, ← List.append_assoc, byteLength_append (read ++ gap)]
  case blanks => exact blanks
  case spelled => exact spelled
  case longest => exact longest
  case reserved =>
    intro run
    obtain ⟨text, rfl⟩ := stands.word_of_run run
    obtain ⟨kind, _⟩ := PlacedLexeme.token_word rfl made
    rw [kind]
    refine ⟨fun k => wordKind_eq_keyword_iff, ?_⟩
    intro none
    rcases wordKind_cases (endsInDot false earlier) text with word | ⟨k, word, _⟩
    · exact word
    · exact absurd word (none k)

/-- The end of input stands at the end of the text, after a last gap. -/
theorem Token.fits_endOfInput {cs : List Char} {ts : List Token} {stop : Position}
    (lexed : tokenizeChars cs = .ok (ts, stop)) :
    ∃ gap, (Token.endOfInput stop).Fits cs ts gap [] [] := by
  obtain ⟨ls, q, gap, scan, blanks, made, rfl⟩ := tokenizeChars_eq_ok.mp lexed
  have offset := scan.offset_eq
  obtain ⟨read, rfl, rfl, _⟩ := scan.of_prefix
  have ended : endOf ts = byteLength read := by
    rw [Position.offset_after] at offset
    rw [endOf_tokensOf made]
    exact offset.symm.trans (Nat.zero_add _)
  have place : (Position.first.after (read ++ gap)).offset = byteLength (read ++ gap) := by
    rw [Position.offset_after]
    exact Nat.zero_add _
  refine ⟨gap, ?_, ?_, ?_, blanks, rfl, trivial, ?_⟩
  · rw [Span.slice?_eq_some]
    exact ⟨read, [], by simp, ended, place.trans (byteLength_append ..)⟩
  · rw [Span.slice?_eq_some]
    exact ⟨read ++ gap, [], by simp, place, place⟩
  · rw [Span.slice?_eq_some]
    exact ⟨read ++ gap, [], by simp, place, rfl⟩
  · rintro ⟨_, _, ⟨⟩, _⟩

/-- How tokens cover a text: they are in order, only the one that ends the text is
empty, and each fits into the text after those before it. -/
structure TokensCover (cs : List Char) (ts : List Token) : Prop where
  ordered : ts.Pairwise fun t u => t.span.stop ≤ u.span.start
  ended : ∃ init last, ts = init ++ [last] ∧ last.kind = .endOfInput ∧
    last.span = ⟨byteLength cs, byteLength cs⟩ ∧
    ∀ t ∈ init, t.kind ≠ .endOfInput ∧ t.span.start < t.span.stop
  fits : ∀ earlier t later, ts = earlier ++ t :: later →
    ∃ gap text after, t.Fits cs earlier gap text after

/-- The lexer loses nothing of a text. -/
theorem tokens_cover_source (source : String) (ts : List Token) (lexed : tokenize source = .ok ts) :
    TokensCover source.toList ts := by
  obtain ⟨init, stop, rfl, chars⟩ := tokenize_eq_ok.mp lexed
  obtain ⟨offset, each, ordered⟩ := tokens_ordered chars
  constructor
  case ordered =>
    refine List.pairwise_append.mpr ⟨ordered, List.pairwise_singleton .., ?_⟩
    intro t mem u last
    rw [List.mem_singleton.mp last]
    exact (each t mem).2.trans (Nat.le_of_eq offset.symm)
  case ended =>
    refine ⟨init, _, rfl, rfl, by rw [Token.endOfInput, offset], ?_⟩
    exact fun t mem => ⟨kind_ne_of_tokenizeChars chars mem, (each t mem).1⟩
  case fits =>
    intro earlier t later split
    -- The token is the last one, or it stands before the end of input.
    rcases List.eq_nil_or_concat later with rfl | ⟨later, last, rfl⟩
    · obtain ⟨rfl, same⟩ := List.append_inj' split rfl
      cases same
      obtain ⟨gap, fits⟩ := Token.fits_endOfInput chars
      exact ⟨gap, [], [], fits⟩
    · have split : init ++ [.endOfInput stop] = (earlier ++ t :: later) ++ [last] := by
        simpa using split
      obtain ⟨rfl, _⟩ := List.append_inj' split rfl
      obtain ⟨site⟩ := Token.exists_site chars
      exact ⟨_, _, _, site.fits⟩

/-- A reserved word after a dot, a comment with a quote in it, a text with slashes and
with a character of two bytes, and a number with a separator. -/
theorem tokens_cover_source_mixed :
    ∃ ts, tokenize "a.if // \"\n\"//é\" 1_0" = .ok ts ∧
      ts.map (fun t => (t.kind, t.value, t.span)) =
        [(.identifier, "a", ⟨0, 1⟩), (.symbol .dot, ".", ⟨1, 2⟩), (.identifier, "if", ⟨2, 4⟩),
          (.text, "//é", ⟨10, 16⟩), (.integer, "10", ⟨17, 20⟩),
          (.endOfInput, "EndOfFile", ⟨20, 20⟩)] ∧
      TokensCover "a.if // \"\n\"//é\" 1_0".toList ts := by
  have run : (tokenize "a.if // \"\n\"//é\" 1_0").toOption.map
      (fun ts => ts.map fun t => (t.kind, t.value, t.span)) =
        some [(.identifier, "a", ⟨0, 1⟩), (.symbol .dot, ".", ⟨1, 2⟩), (.identifier, "if", ⟨2, 4⟩),
          (.text, "//é", ⟨10, 16⟩), (.integer, "10", ⟨17, 20⟩),
          (.endOfInput, "EndOfFile", ⟨20, 20⟩)] := by
    decide +kernel
  cases lexed : tokenize "a.if // \"\n\"//é\" 1_0" with
  | error problem =>
      rw [lexed] at run
      cases run
  | ok ts =>
      rw [lexed] at run
      exact ⟨ts, rfl, Option.some.inj run, tokens_cover_source _ ts lexed⟩

end Pseudocode

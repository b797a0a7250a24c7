import Pseudocode.Proofs.Lexing.Token

/-!
The lexeme grammar and the walk over characters.

A grammar is read with ordered choice and greedy repetition, so what it leaves of a
text is decided (`Grammar.Reads.unique`). The grammar of lexemes leaves what the lexer
leaves (`Grammar.lexemes_reads`), and the walk over characters, which knows nothing of
lexemes, stops at the same place. So the walk is never at a loss when the grammar is
(`lexers_agree`).
-/

namespace Pseudocode

/-! ### Grammars -/

/-- A grammar of texts. -/
inductive Grammar where
  /-- One character of a class. -/
  | char (class_ : Char → Bool)
  | text (word : List Char)
  | seq (first second : Grammar)
  /-- The second one is tried where the first does not match. -/
  | choice (first second : Grammar)
  /-- As often as it matches. -/
  | many (each : Grammar)

namespace Grammar

/-- What a grammar leaves of a text, or nothing when the text does not start with it. -/
inductive Reads : Grammar → List Char → Option (List Char) → Prop where
  | char {p : Char → Bool} {c : Char} {cs : List Char} (holds : p c = true) :
      Reads (.char p) (c :: cs) (some cs)
  | charOther {p : Char → Bool} {c : Char} {cs : List Char} (other : p c = false) :
      Reads (.char p) (c :: cs) none
  | charEnd {p : Char → Bool} : Reads (.char p) [] none
  | text {word cs : List Char} : Reads (.text word) (word ++ cs) (some cs)
  | textOther {word cs : List Char} (other : ¬ word <+: cs) : Reads (.text word) cs none
  | seq {g h : Grammar} {cs mid : List Char} {out : Option (List Char)}
      (first : Reads g cs (some mid)) (second : Reads h mid out) : Reads (.seq g h) cs out
  | seqOther {g h : Grammar} {cs : List Char} (first : Reads g cs none) : Reads (.seq g h) cs none
  | left {g h : Grammar} {cs rest : List Char} (first : Reads g cs (some rest)) :
      Reads (.choice g h) cs (some rest)
  | right {g h : Grammar} {cs : List Char} {out : Option (List Char)} (first : Reads g cs none)
      (second : Reads h cs out) : Reads (.choice g h) cs out
  | manyEnd {g : Grammar} {cs : List Char} (first : Reads g cs none) : Reads (.many g) cs (some cs)
  | manyNext {g : Grammar} {cs mid : List Char} {out : Option (List Char)}
      (first : Reads g cs (some mid)) (more : Reads (.many g) mid out) : Reads (.many g) cs out

/-- A grammar leaves one thing of a text. -/
theorem Reads.unique {g : Grammar} {cs : List Char} {out out' : Option (List Char)}
    (reads : g.Reads cs out) (reads' : g.Reads cs out') : out = out' := by
  induction reads generalizing out' with
  | char holds =>
      cases reads' with
      | char _ => rfl
      | charOther other => exact absurd (holds.symm.trans other) (by decide)
  | charOther other =>
      cases reads' with
      | char holds => exact absurd (holds.symm.trans other) (by decide)
      | charOther _ => rfl
  | charEnd =>
      cases reads'
      rfl
  | @text word cs =>
      generalize eq : word ++ cs = whole at reads'
      cases reads' with
      | text => rw [List.append_cancel_left eq]
      | textOther other => exact absurd ⟨cs, eq⟩ other
  | textOther other =>
      cases reads' with
      | text => exact absurd (List.prefix_append ..) other
      | textOther _ => rfl
  | seq _ _ ih ih' =>
      cases reads' with
      | seq first second =>
          cases ih first
          exact ih' second
      | seqOther first => cases ih first
  | seqOther _ ih =>
      cases reads' with
      | seq first _ => cases ih first
      | seqOther _ => rfl
  | left _ ih =>
      cases reads' with
      | left first => exact ih first
      | right first _ => cases ih first
  | right _ _ ih ih' =>
      cases reads' with
      | left first => cases ih first
      | right _ second => exact ih' second
  | manyEnd _ ih =>
      cases reads' with
      | manyEnd _ => rfl
      | manyNext first _ => cases ih first
  | manyNext _ _ ih ih' =>
      cases reads' with
      | manyEnd first => cases ih first
      | manyNext first more =>
          cases ih first
          exact ih' more

/-- The first of some grammars that matches. -/
def anyOf (gs : List Grammar) : Grammar := gs.foldr .choice (.char fun _ => false)

/-! ### The lexeme grammar -/

/-- The symbols in the order in which they are tried: the longer ones first. -/
def symbolOrder : List Symbol :=
  [.equalEqual, .notEqual, .greaterEqual, .lessEqual,
   .openParen, .closeParen, .openSquare, .closeSquare, .comma, .dot, .colon, .equals,
   .plus, .minus, .star, .slash, .caret, .greater, .less, .bang]

def number : Grammar := .seq (.char Decimal.isDigit) (.many (.char Lexeme.isNumberPart))

def quoted : Grammar := .seq (.text ['"']) (.seq (.many (.char (· != '"'))) (.text ['"']))

def word : Grammar := .seq (.char Lexeme.isWordStart) (.many (.char Lexeme.isWordPart))

def symbol : Grammar := anyOf (symbolOrder.map fun s => .text s.text.toList)

def token : Grammar := anyOf [number, quoted, word, symbol]

def comment : Grammar := .seq (.text ['/', '/']) (.many (.char (· != '\n')))

def blank : Grammar := .char Lexeme.isSpace

def skip : Grammar := .many (.choice comment blank)

/-- Lexemes with blanks and comments before, between and after them. -/
def lexemes : Grammar := .seq skip (.many (.seq token skip))

/-! ### What they leave -/

theorem many_char_reads (p : Char → Bool) (cs : List Char) :
    (many (.char p)).Reads cs (some (cs.dropWhile p)) := by
  induction cs with
  | nil => exact .manyEnd .charEnd
  | cons c cs ih =>
      by_cases holds : p c = true
      · rw [List.dropWhile_cons_of_pos holds]
        exact .manyNext (.char holds) ih
      · rw [List.dropWhile_cons_of_neg holds]
        exact .manyEnd (.charOther (Bool.eq_false_iff.mpr holds))

/-- The first of some words that a text starts with. -/
theorem anyOf_text_reads (words : List (List Char)) (cs : List Char) :
    (anyOf (words.map .text)).Reads cs
      ((words.find? fun w => w.isPrefixOf cs).map fun w => cs.drop w.length) := by
  induction words with
  | nil =>
      cases cs with
      | nil => exact .charEnd
      | cons c cs => exact .charOther rfl
  | cons w words ih =>
      rw [List.find?_cons]
      split
      · rename_i starts
        obtain ⟨rest, rfl⟩ := List.isPrefixOf_iff_prefix.mp starts
        rw [Option.map_some, List.drop_left]
        exact .left .text
      · rename_i other
        refine .right (.textOther ?_) ih
        rw [← List.isPrefixOf_iff_prefix, other]
        exact Bool.false_ne_true

theorem symbolOrder_texts : (symbolOrder.map fun s => s.text.toList) =
    [['=', '='], ['!', '='], ['>', '='], ['<', '='], ['('], [')'], ['['], [']'], [','], ['.'], [':'],
      ['='], ['+'], ['-'], ['*'], ['/'], ['^'], ['>'], ['<'], ['!']] := by
  decide

/-- The text after the first symbol that it starts with. -/
theorem find?_symbolOrder (c : Char) (cs : List Char) :
    ((symbolOrder.map fun s => s.text.toList).find? fun w => w.isPrefixOf (c :: cs)).map
      (fun w => (c :: cs).drop w.length) = (Lexeme.symbol? c cs).map Prod.snd := by
  rw [symbolOrder_texts]
  by_cases known : Lexeme.isSymbol c = true
  · simp only [Lexeme.isSymbol, List.contains_iff_mem, List.mem_cons, List.not_mem_nil, or_false] at known
    cases cs with
    | nil =>
        rcases known with rfl | rfl | rfl | rfl | rfl | rfl | rfl | rfl | rfl | rfl | rfl | rfl | rfl |
          rfl | rfl | rfl <;> rfl
    | cons d cs =>
        by_cases equals : d = '='
        · subst equals
          rcases known with rfl | rfl | rfl | rfl | rfl | rfl | rfl | rfl | rfl | rfl | rfl | rfl | rfl |
            rfl | rfl | rfl <;> rfl
        · -- The symbols of two characters are out, and the other one is found by its only character.
          have other : ('=' == d) = false := beq_eq_false_iff_ne.mpr (Ne.symm equals)
          have single (known : Lexeme.isSymbol c = true) :
              (Lexeme.symbol? c (d :: cs)).map Prod.snd = some (d :: cs) := by
            unfold Lexeme.symbol?
            split
            · rename_i eq
              exact absurd (List.cons.inj eq).1 equals
            · rw [if_pos known]
              rfl
          simp only [List.find?_cons, List.isPrefixOf, other, Bool.false_and, Bool.and_false]
          rcases known with rfl | rfl | rfl | rfl | rfl | rfl | rfl | rfl | rfl | rfl | rfl | rfl | rfl |
            rfl | rfl | rfl <;> exact (single rfl).symm
  · have none : Lexeme.symbol? c cs = none := by
      unfold Lexeme.symbol?
      split
      · rw [if_neg, if_neg known]
        intro takes
        simp only [Lexeme.takesEquals, List.contains_iff_mem, List.mem_cons, List.not_mem_nil,
          or_false] at takes
        rcases takes with rfl | rfl | rfl | rfl <;> exact known rfl
      · rw [if_neg known]
    simp only [Lexeme.isSymbol, List.contains_iff_mem, List.mem_cons, List.not_mem_nil, or_false,
      not_or] at known
    rw [none]
    simp [List.isPrefixOf, Ne.symm, known]

theorem symbol_reads (c : Char) (cs : List Char) :
    symbol.Reads (c :: cs) ((Lexeme.symbol? c cs).map Prod.snd) := by
  have reads := anyOf_text_reads (symbolOrder.map fun s => s.text.toList) (c :: cs)
  rw [List.map_map, find?_symbolOrder] at reads
  exact reads

/-- The last one of some grammars. -/
theorem Reads.single {g : Grammar} {cs : List Char} {out : Option (List Char)} (reads : g.Reads cs out) :
    (anyOf [g]).Reads cs out := by
  cases out with
  | some rest => exact .left reads
  | none =>
      refine .right reads ?_
      cases cs with
      | nil => exact .charEnd
      | cons c cs => exact .charOther rfl

/-- The grammar of one lexeme leaves what follows the lexeme. -/
theorem token_reads (cs : List Char) : token.Reads cs ((Lexeme.first? cs).map Prod.snd) := by
  cases cs with
  | nil =>
      have symbols := anyOf_text_reads (symbolOrder.map fun s => s.text.toList) []
      rw [List.map_map, symbolOrder_texts] at symbols
      exact .right (.seqOther .charEnd) (.right (.seqOther (.textOther (by decide)))
        (.right (.seqOther .charEnd) (.single symbols)))
  | cons c cs =>
      have symbols := (symbol_reads c cs).single
      rw [Lexeme.first?]
      by_cases digit : Decimal.isDigit c = true
      · rw [if_pos digit]
        exact .left (.seq (.char digit) (many_char_reads ..))
      rw [if_neg digit]
      refine .right (.seqOther (.charOther (Bool.eq_false_iff.mpr digit))) ?_
      by_cases quote : c = '"'
      · subst quote
        rw [if_pos rfl]
        have content := many_char_reads (· != '"') cs
        have quote {cs : List Char} : Reads (.text ['"']) ('"' :: cs) (some cs) := .text
        split
        · rename_i unclosed
          rw [unclosed] at content
          have open_ : quoted.Reads ('"' :: cs) none := .seq quote (.seq content (.textOther (by decide)))
          have none : Lexeme.symbol? '"' cs = none := by
            unfold Lexeme.symbol?
            split <;> rfl
          rw [none] at symbols
          exact .right open_ (.right (.seqOther (.charOther rfl)) symbols)
        · rename_i close rest left
          have closing : close = '"' := by
            have head := List.head?_dropWhile_not (· != '"') cs
            simpa [left] using head
          rw [left, closing] at content
          exact .left (.seq quote (.seq content quote))
      rw [if_neg quote]
      refine .right (.seqOther (.textOther ?_)) ?_
      · rintro ⟨rest, eq⟩
        exact quote (List.cons.inj eq).1.symm
      by_cases start : Lexeme.isWordStart c = true
      · rw [if_pos start]
        exact .left (.seq (.char start) (many_char_reads ..))
      · rw [if_neg start]
        exact .right (.seqOther (.charOther (Bool.eq_false_iff.mpr start))) symbols

/-- Blanks and comments are skipped up to what is neither. -/
theorem skip_reads (cs : List Char) : skip.Reads cs (some (Lexeme.splitGap false cs).2) := by
  have blanks := (Lexeme.blanks_of_splitGap cs).1
  have solid := Lexeme.solid_splitGap false cs
  have whole := gap_append cs
  generalize Lexeme.splitGap false cs = parts at blanks solid whole ⊢
  obtain ⟨gap, rest⟩ := parts
  dsimp only at blanks solid whole ⊢
  subst whole
  induction blanks with
  | nil =>
      have slashes : comment.Reads rest none := by
        refine .seqOther (.textOther ?_)
        rintro ⟨more, rfl⟩
        cases (solid '/' ('/' :: more) rfl).2
      refine .manyEnd (.right slashes ?_)
      cases rest with
      | nil => exact .charEnd
      | cons c rest => exact .charOther (solid c rest rfl).1
  | @space c gap space _ ih =>
      have slashes : comment.Reads (c :: (gap ++ rest)) none := by
        refine .seqOther (.textOther ?_)
        rintro ⟨more, eq⟩
        obtain rfl := (List.cons.inj eq).1
        cases space
      exact .manyNext (.right slashes (.char space)) ih
  | @comment line gap inside ended _ ih =>
      have feeds : ∀ c ∈ line, (c != '\n') = true := by
        intro c mem
        rw [bne_iff_ne]
        rintro rfl
        exact inside mem
      have stop : ∀ c ∈ (gap ++ rest).head?, (c != '\n') = false := by
        intro c mem
        rw [ended c mem]
        rfl
      have content := many_char_reads (· != '\n') (line ++ (gap ++ rest))
      rw [(Lexeme.takeWhile_run feeds stop).2] at content
      have whole : ['/', '/'] ++ (line ++ (gap ++ rest)) = '/' :: '/' :: (line ++ gap) ++ rest := by simp
      rw [← whole]
      exact .manyNext (.left (.seq .text content)) ih

/-- The grammar leaves what the lexer leaves. -/
theorem many_reads {fuel : Nat} {p : Position} {cs : List Char} (enough : cs.length < fuel) :
    (many (.seq token skip)).Reads (Lexeme.splitGap false cs).2 (some (lexemesFrom fuel p cs).2.2) := by
  induction fuel generalizing p cs with
  | zero => cases enough
  | succ fuel ih =>
      have whole := congrArg List.length (gap_append cs)
      have reads := token_reads (Lexeme.splitGap false cs).2
      unfold lexemesFrom
      dsimp only
      generalize Lexeme.splitGap false cs = parts at whole reads ⊢
      obtain ⟨gap, rest⟩ := parts
      dsimp only at reads ⊢
      split
      · rename_i none
        rw [none] at reads
        exact .manyEnd (.seqOther reads)
      · rename_i l tail found
        rw [found] at reads
        obtain ⟨rfl, passable⟩ := Lexeme.spelled_of_first? found
        have some := List.length_pos_iff.mpr passable.ne_nil
        have shorter : tail.length < fuel := by
          rw [List.length_append, List.length_append] at whole
          omega
        exact .manyNext (.seq reads (skip_reads tail)) (ih shorter)

theorem lexemes_reads (cs : List Char) : lexemes.Reads cs (some (Pseudocode.lexemes cs).2.2) :=
  .seq (skip_reads cs) (many_reads (Nat.lt_succ_self cs.length))

end Grammar

/-! ### Where the lexer stops -/

theorem lexemes_stuck (cs : List Char) : Stuck (lexemes cs).2.2 := by
  obtain ⟨_, _, _, _, _, stuck⟩ := lexemesFrom_scan (p := .first) (Nat.lt_succ_self cs.length)
  exact stuck

/-- Where the lexer stops, the grammar has nothing to read. -/
theorem Stuck.reads {left : List Char} (stuck : Stuck left) :
    Grammar.token.Reads left none ∧ Grammar.comment.Reads left none ∧ Grammar.blank.Reads left none := by
  have token := Grammar.token_reads left
  rw [stuck.noLexeme] at token
  refine ⟨token, .seqOther (.textOther ?_), ?_⟩
  · rintro ⟨more, rfl⟩
    cases (stuck.solid '/' ('/' :: more) rfl).2
  · cases left with
    | nil => exact .charEnd
    | cons c rest => exact .charOther (stuck.solid c rest rfl).1

/-- A quote at which the lexer stops is the last one. -/
theorem Stuck.not_mem {rest : List Char} (stuck : Stuck ('"' :: rest)) : '"' ∉ rest := by
  intro mem
  obtain ⟨content, after, rfl, inside⟩ := List.eq_append_cons_of_mem mem
  have stands : (Lexeme.quoted content).Stands after := .quoted inside
  have found := Lexeme.first?_of_stands stands
  have whole : (Lexeme.quoted content).spelling ++ after = '"' :: (content ++ '"' :: after) := by
    simp [Lexeme.spelling]
  rw [whole, stuck.noLexeme] at found
  cases found

/-! ### What is said of a text without tokens -/

theorem tokenize_of_left {source : String} {c : Char} {rest : List Char}
    (left : (lexemes source.toList).2.2 = c :: rest) :
    ∃ e, tokenize source = .error e ∧
      e.problem = if c = '"' then .unterminatedText else .unrecognisedCharacter c := by
  unfold tokenize
  rw [tokenizeChars_of_left left]
  exact ⟨_, rfl, rfl⟩

theorem tokenize_of_covered {source : String} (covered : (lexemes source.toList).2.2 = [])
    {e : SyntaxError} (failed : tokenize source = .error e) :
    ∃ text, e.problem = .repeatedPoint text := by
  unfold tokenize at failed
  cases lexed : tokenizeChars source.toList with
  | ok read =>
      rw [lexed] at failed
      cases failed
  | error e' =>
      rw [lexed] at failed
      cases failed
      obtain ⟨l, _, _, text, _, _, _, rfl⟩ := exists_blame_of_covered covered lexed
      exact ⟨text, rfl⟩

/-- A text that begins with another one. -/
theorem append_ne {start text : String} (differ : ¬ start.toList <+: text.toList) (rest : String) :
    start ++ rest ≠ text := by
  rintro rfl
  rw [String.toList_append] at differ
  exact differ (List.prefix_append ..)

theorem message_unrecognisedCharacter (c : Char) {text : String}
    (differ : ¬ "unrecognised character (".toList <+: text.toList) :
    (SyntaxProblem.unrecognisedCharacter c).message ≠ text := by
  unfold SyntaxProblem.message
  dsimp only
  rw [String.append_assoc, String.append_assoc]
  exact append_ne differ _

theorem message_repeatedPoint (literal : String) {text : String}
    (differ : ¬ "multiple decimal points in number literal `".toList <+: text.toList) :
    (SyntaxProblem.repeatedPoint literal).message ≠ text := by
  unfold SyntaxProblem.message
  dsimp only
  rw [String.append_assoc]
  exact append_ne differ _

/-- The lexer always finds something to blame. -/
theorem message_ne_unexpected {source : String} {e : SyntaxError} (failed : tokenize source = .error e) :
    e.message ≠ "unexpected input" := by
  unfold SyntaxError.message
  cases left : (lexemes source.toList).2.2 with
  | nil =>
      obtain ⟨literal, blamed⟩ := tokenize_of_covered left failed
      rw [blamed]
      exact message_repeatedPoint literal (by decide)
  | cons c rest =>
      obtain ⟨_, failed', problem⟩ := tokenize_of_left left
      cases failed.symm.trans failed'
      rw [problem]
      split
      · decide
      · exact message_unrecognisedCharacter c (by decide)

theorem message_unterminated_iff {source : String} :
    (∃ e, tokenize source = .error e ∧ e.message = "unterminated string literal") ↔
      ∃ rest, (lexemes source.toList).2.2 = '"' :: rest ∧ '"' ∉ rest := by
  have stuck := lexemes_stuck source.toList
  constructor
  · rintro ⟨e, failed, message⟩
    unfold SyntaxError.message at message
    cases left : (lexemes source.toList).2.2 with
    | nil =>
        obtain ⟨literal, blamed⟩ := tokenize_of_covered left failed
        rw [blamed] at message
        exact absurd message (message_repeatedPoint literal (by decide))
    | cons c rest =>
        obtain ⟨_, failed', problem⟩ := tokenize_of_left left
        cases failed.symm.trans failed'
        rw [problem] at message
        split at message
        · rename_i quote
          subst quote
          rw [left] at stuck
          exact ⟨rest, rfl, stuck.not_mem⟩
        · exact absurd message (message_unrecognisedCharacter c (by decide))
  · rintro ⟨rest, left, _⟩
    obtain ⟨e, failed, problem⟩ := tokenize_of_left left
    refine ⟨e, failed, ?_⟩
    rw [SyntaxError.message, problem]
    rfl

/-- The walk over characters agrees with the lexeme grammar: it comes to the end of the
text when the grammar does, and else stops at the character where the grammar stops. So
the lexer always has a character to blame, and a quote is blamed when no other follows. -/
theorem lexers_agree (source : String) :
    ∃ read left, source.toList = read ++ left ∧
      (∀ out, Grammar.lexemes.Reads source.toList out ↔ out = some left) ∧
      (Grammar.token.Reads left none ∧ Grammar.comment.Reads left none ∧
        Grammar.blank.Reads left none) ∧
      (firstUnlexable .nothing .first source.toList = none ↔ left = []) ∧
      (∀ p c, firstUnlexable .nothing .first source.toList = some (p, c) ↔
        p = Position.first.after read ∧ left.head? = some c) ∧
      (Position.first.after read).offset = byteLength read ∧
      (¬ ∃ e, tokenize source = .error e ∧ e.message = "unexpected input") ∧
      ((∃ e, tokenize source = .error e ∧ e.message = "unterminated string literal") ↔
        ∃ rest, left = '"' :: rest ∧ '"' ∉ rest) := by
  have stuck := lexemes_stuck source.toList
  have walk : firstUnlexable .nothing .first source.toList =
      (lexemes source.toList).2.2.head?.map fun c => ((lexemes source.toList).2.1, c) :=
    firstUnlexable_eq _ (Nat.lt_succ_self _)
  have reads := Grammar.lexemes_reads source.toList
  obtain ⟨read, whole, place⟩ := (lexemes_stand source.toList).2
  refine ⟨read, _, whole, ?_, stuck.reads, ?_, ?_, ?_, ?_, message_unterminated_iff⟩
  · intro out
    refine ⟨fun other => other.unique reads, ?_⟩
    rintro rfl
    exact reads
  · rw [walk, Option.map_eq_none_iff, List.head?_eq_none_iff]
  · intro p c
    rw [walk, Option.map_eq_some_iff, place]
    constructor
    · rintro ⟨c, head, ⟨⟩⟩
      exact ⟨rfl, head⟩
    · rintro ⟨rfl, head⟩
      exact ⟨c, head, rfl⟩
  · rw [Position.offset_after]
    exact Nat.zero_add _
  · rintro ⟨e, failed, message⟩
    exact message_ne_unexpected failed message

end Pseudocode

import Pseudocode.Proofs.Lexing.Cover
import Pseudocode.Proofs.Lexing.Part

/-!
Tokens written out again.

The tokens of a text, each written by its value and one space after another, are the
tokens of the text that this gives (`tokenize_respelled`). Where the lexemes ended does
not matter: a space ends every lexeme, and none of them starts a gap.
-/

namespace Pseudocode

/-! ### The text of a token -/

/-- A token as it is written: its value, that of a text between quotes. -/
def Token.written (t : Token) : String :=
  if t.kind = .text then "\"" ++ t.value ++ "\"" else t.value

/-- The tokens before the end of input, with a space between each two. -/
def respelled (ts : List Token) : String :=
  " ".intercalate ((ts.filter fun t => t.kind != .endOfInput).map Token.written)

/-- A lexeme without what its token leaves out: the separators of a number. -/
def Lexeme.bare : Lexeme → Lexeme
  | number text => number (text.filter (· != '_'))
  | l => l

namespace PlacedLexeme

variable {b : Bool} {l : PlacedLexeme} {t : Token}

/-- What a token is written as spells its bare lexeme. -/
theorem spelling_bare (made : l.token b = .ok t) : l.lexeme.bare.spelling = t.written.toList := by
  unfold Token.written
  cases lexeme : l.lexeme with
  | number text =>
      obtain ⟨kind, value⟩ := token_number lexeme made
      have other : t.kind ≠ .text := by
        rcases kind with kind | kind <;> rw [kind] <;> exact TokenKind.noConfusion
      rw [if_neg other, value, String.toList_ofList]
      rfl
  | quoted content =>
      obtain ⟨kind, value⟩ := token_quoted lexeme made
      rw [if_pos kind, value]
      simp [Lexeme.bare, Lexeme.spelling]
  | word text =>
      obtain ⟨kind, value⟩ := token_word lexeme made
      have other : t.kind ≠ .text := by
        rcases wordKind_cases b text with word | ⟨_, word, _⟩ <;> rw [kind, word] <;>
          exact TokenKind.noConfusion
      rw [if_neg other, value, String.toList_ofList]
      rfl
  | symbol text =>
      obtain ⟨_, kind, value, same⟩ := token_symbol lexeme made
      have other : t.kind ≠ .text := by
        rw [kind]
        exact TokenKind.noConfusion
      rw [if_neg other, value, same, String.toList_ofList]
      rfl

/-- A bare lexeme has a token of the same kind and value, wherever it stands. -/
theorem token_bare (made : l.token b = .ok t) (p : Position) :
    ∃ t', (⟨l.lexeme.bare, p⟩ : PlacedLexeme).token b = .ok t' ∧ t'.content = t.content := by
  cases lexeme : l.lexeme with
  | number text =>
      unfold token at made ⊢
      rw [lexeme] at made
      have points : (text.filter (· != '_')).count '.' = text.count '.' :=
        List.count_filter (by decide)
      have point : (text.filter (· != '_')).contains '.' = text.contains '.' := by
        simp [List.contains_eq_mem, List.mem_filter]
      dsimp only [Lexeme.bare] at made ⊢
      rw [points, point, List.filter_filter]
      split at made
      · cases made
      · rename_i few
        cases made
        rw [if_neg few]
        refine ⟨_, rfl, ?_⟩
        simp [Token.content]
  | quoted _ => exact @token_content _ ⟨.quoted _, p⟩ _ _ lexeme.symm made
  | word _ => exact @token_content _ ⟨.word _, p⟩ _ _ lexeme.symm made
  | symbol _ => exact @token_content _ ⟨.symbol _, p⟩ _ _ lexeme.symm made

end PlacedLexeme

/-- A space after a bare lexeme ends it, as the end of the text does. -/
theorem Lexeme.Stands.bare {l : Lexeme} {after rest : List Char} (stands : l.Stands after)
    (spaced : ∀ c ∈ rest.head?, c = ' ') : l.bare.Stands rest := by
  cases stands with
  | @number c parts _ digit each _ =>
      have kept : (c != '_') = true := by
        rw [bne_iff_ne]
        rintro rfl
        cases digit
      have kind : (Lexeme.number (c :: parts)).bare = .number (c :: parts.filter (· != '_')) := by
        rw [Lexeme.bare, List.filter_cons_of_pos (p := (· != '_')) kept]
      rw [kind]
      apply Stands.number digit
      · intro d mem
        exact each d (List.mem_of_mem_filter mem)
      · intro d mem
        rw [spaced d mem]
        rfl
  | quoted inside => exact .quoted inside
  | word start each _ =>
      apply Stands.word start each
      intro d mem
      rw [spaced d mem]
      rfl
  | pair takes => exact .pair takes
  | single symbol _ _ =>
      apply Stands.single symbol
      · rintro d mem rfl
        cases spaced '=' mem
      · rintro d mem rfl
        cases spaced '/' mem

/-! ### The text of many -/

/-- The text has these tokens, up to their places, wherever it stands; `b` tells whether
a dot stands before it. -/
def Relexes (b : Bool) (cs : List Char) (ts : List Token) : Prop :=
  ∀ p, ∃ ls us q, Scan p cs ls q [] ∧ tokensOf b ls = .ok us ∧
    us.map Token.content = ts.map Token.content

theorem relexes_nil (b : Bool) : Relexes b [] [] := fun p => ⟨[], [], p, .done p [], rfl, rfl⟩

/-- One more token in front, behind a gap that does not depend on what follows. -/
theorem Relexes.cons (gap : List Char) {b : Bool} {rest : List Char} {l : PlacedLexeme} {t : Token} {ts : List Token}
    (blanks : ∀ rest, Blanks rest gap) (made : l.token b = .ok t)
    (stands : ∃ after, l.lexeme.Stands after) (spaced : ∀ c ∈ rest.head?, c = ' ')
    (more : Relexes (t.kind == .symbol .dot) rest ts) :
    Relexes b (gap ++ (t.written.toList ++ rest)) (t :: ts) := by
  intro p
  obtain ⟨after, stands⟩ := stands
  obtain ⟨u, first, content⟩ := PlacedLexeme.token_bare made (p.after gap)
  obtain ⟨ls, us, q, scan, back, contents⟩ := more ((p.after gap).after l.lexeme.bare.spelling)
  have kind : u.kind = t.kind := (Prod.mk.inj content).1
  have whole := Scan.next (blanks _) (stands.bare spaced) scan
  rw [PlacedLexeme.spelling_bare made] at whole
  rw [← kind] at back
  refine ⟨_, u :: us, q, whole, tokensOf_cons_eq_ok.mpr ⟨u, us, rfl, first, back⟩, ?_⟩
  rw [List.map_cons, List.map_cons, content, contents]

/-- The tokens, a space in front of each. -/
def spacedOut (ts : List Token) : List Char := ts.flatMap fun t => ' ' :: t.written.toList

theorem head_spacedOut (ts : List Token) : ∀ c ∈ (spacedOut ts).head?, c = ' ' := by
  cases ts with
  | nil => exact nofun
  | cons t ts =>
      intro c mem
      exact (Option.some.inj mem).symm

theorem relexes_spacedOut {b : Bool} {ls : List PlacedLexeme} {ts : List Token}
    (made : tokensOf b ls = .ok ts) (stands : ∀ l ∈ ls, ∃ after, l.lexeme.Stands after) :
    Relexes b (spacedOut ts) ts := by
  induction ls generalizing b ts with
  | nil =>
      cases made
      exact relexes_nil b
  | cons l ls ih =>
      obtain ⟨t, rest, rfl, first, more⟩ := tokensOf_cons_eq_ok.mp made
      have behind := ih more fun m mem => stands m (List.mem_cons_of_mem l mem)
      exact .cons [' '] (fun _ => .space rfl .nil) first (stands l List.mem_cons_self)
        (head_spacedOut rest) behind

theorem respelled_cons {t : Token} {ts : List Token} (inner : ∀ u ∈ t :: ts, u.kind ≠ .endOfInput) :
    (respelled (t :: ts)).toList = t.written.toList ++ spacedOut ts := by
  have all : (t :: ts).filter (fun u => u.kind != .endOfInput) = t :: ts :=
    List.filter_eq_self.mpr fun u mem => bne_iff_ne.mpr (inner u mem)
  rw [respelled, all, String.toList_intercalate]
  clear all inner
  induction ts generalizing t with
  | nil => simp [spacedOut]
  | cons u ts ih =>
      have back := ih (t := u)
      simp only [List.map_cons] at back ⊢
      rw [List.intercalate_cons_cons, back]
      simp [spacedOut]

/-- The end of input is not written. -/
theorem respelled_endOfInput (ts : List Token) (stop : Position) :
    respelled (ts ++ [.endOfInput stop]) = respelled ts := by
  unfold respelled
  rw [List.filter_append]
  simp [Token.endOfInput]

theorem relexes_respelled {ls : List PlacedLexeme} {ts : List Token}
    (made : tokensOf false ls = .ok ts) (stands : ∀ l ∈ ls, ∃ after, l.lexeme.Stands after)
    (inner : ∀ t ∈ ts, t.kind ≠ .endOfInput) : Relexes false (respelled ts).toList ts := by
  cases ls with
  | nil =>
      cases made
      exact relexes_nil false
  | cons l ls =>
      obtain ⟨t, rest, rfl, first, more⟩ := tokensOf_cons_eq_ok.mp made
      have behind := relexes_spacedOut more fun m mem => stands m (List.mem_cons_of_mem l mem)
      rw [respelled_cons inner]
      exact .cons [] (fun _ => .nil) first (stands l List.mem_cons_self)
        (head_spacedOut rest) behind

/-- The tokens of a text, written out with single spaces between them, are a text with
the same kinds and values of tokens. -/
theorem tokenize_respelled (source : String) (ts : List Token) (lexed : tokenize source = .ok ts) :
    ∃ us, tokenize (respelled ts) = .ok us ∧
      us.map (fun u => (u.kind, u.value)) = ts.map fun t => (t.kind, t.value) := by
  obtain ⟨init, stop, rfl, chars⟩ := tokenize_eq_ok.mp lexed
  obtain ⟨ls, _, _, scan, _, made, _⟩ := tokenizeChars_eq_ok.mp chars
  have stands : ∀ l ∈ ls, ∃ after, l.lexeme.Stands after := by
    intro l mem
    obtain ⟨_, after, _, _, stands⟩ := scan.stands_of_mem mem
    exact ⟨after, stands⟩
  have inner : ∀ t ∈ init, t.kind ≠ .endOfInput := fun _ mem => kind_ne_of_tokenizeChars chars mem
  obtain ⟨ls', us, q, scan', made', contents⟩ := relexes_respelled made stands inner .first
  rw [respelled_endOfInput]
  have again := tokenizeChars_eq_ok.mpr ⟨ls', q, [], scan', .nil, made', rfl⟩
  refine ⟨us ++ [.endOfInput _], tokenize_eq_ok.mpr ⟨us, _, rfl, again⟩, ?_⟩
  change (us ++ _).map Token.content = (init ++ _).map Token.content
  rw [List.map_append, List.map_append, contents]
  rfl

/-- Two slashes that are no comment, a name after a dot, a word with a dash, a number with
separators and a text with a comment in it. -/
theorem tokenize_respelled_slashes :
    ∃ ts, tokenize "a/ /b-c.if 1_0.5_//!\n\"//\"==" = .ok ts ∧
      respelled ts = "a / / b-c . if 10.5 \"//\" ==" ∧
      ∃ us, tokenize (respelled ts) = .ok us ∧
        us.map (fun u => (u.kind, u.value)) = ts.map fun t => (t.kind, t.value) := by
  have run : (tokenize "a/ /b-c.if 1_0.5_//!\n\"//\"==").toOption.map respelled =
      some "a / / b-c . if 10.5 \"//\" ==" := by
    decide +kernel
  cases lexed : tokenize "a/ /b-c.if 1_0.5_//!\n\"//\"==" with
  | error problem =>
      rw [lexed] at run
      cases run
  | ok ts =>
      rw [lexed] at run
      exact ⟨ts, rfl, Option.some.inj run, tokenize_respelled _ ts lexed⟩

end Pseudocode

import Mathlib.Data.List.TakeWhile
import Pseudocode.Proofs.Spans.Tokens

/-!
How a text is scanned, as a judgment.

`Blanks` are the gaps of a text, and `Lexeme.Stands` is the longest match of one
lexeme before what follows it. `Scan` puts them together: it reads lexemes off a text
and says what is left. The lexer is this judgment made into a function
(`lexemesFrom_scan`, `Scan.lexemesFrom_eq`), and the judgment can be cut and put
together at the end of every lexeme, which a function of the whole text cannot.
-/

namespace Pseudocode

/-! ### Gaps -/

/-- Blanks and comments in front of the rest of a text. A comment goes up to the end
of its line, so what follows it, if anything does, is a line feed. -/
inductive Blanks (rest : List Char) : List Char → Prop where
  | nil : Blanks rest []
  | space {c : Char} {gap : List Char} (space : Lexeme.isSpace c = true)
      (more : Blanks rest gap) : Blanks rest (c :: gap)
  | comment {line gap : List Char} (inside : '\n' ∉ line)
      (ended : ∀ c ∈ (gap ++ rest).head?, c = '\n') (more : Blanks rest gap) :
      Blanks rest ('/' :: '/' :: (line ++ gap))

/-- Of the rest of the text only its first character matters. -/
theorem Blanks.of_head {rest rest' gap : List Char} (blanks : Blanks rest gap)
    (same : rest'.head? = rest.head?) : Blanks rest' gap := by
  induction blanks with
  | nil => exact .nil
  | space space _ ih => exact .space space ih
  | comment inside ended _ ih =>
      refine .comment inside ?_ ih
      rwa [List.head?_append, same, ← List.head?_append]

namespace Lexeme

/-- A text that starts with nothing that belongs to a gap. -/
def Solid (cs : List Char) : Prop := ∀ c tail, cs = c :: tail → EndsGap c tail

/-- The rest of a comment, and the gap after it. -/
theorem splitGap_comment {line rest : List Char} (inside : '\n' ∉ line)
    (ended : ∀ c ∈ rest.head?, c = '\n') :
    splitGap true (line ++ rest) = (line ++ (splitGap false rest).1, (splitGap false rest).2) := by
  induction line with
  | nil =>
      cases rest with
      | nil => rfl
      | cons c rest =>
          obtain rfl := ended c rfl
          rfl
  | cons c line ih =>
      simp only [List.mem_cons, not_or] at inside
      have feed : (c != '\n') = true := bne_iff_ne.mpr (Ne.symm inside.1)
      rw [List.cons_append, splitGap, if_pos rfl, feed, ih inside.2]
      rfl

/-- What is split off in front is a gap; inside a comment, the rest of it comes first. -/
theorem blanks_of_splitGap (cs : List Char) :
    Blanks (splitGap false cs).2 (splitGap false cs).1 ∧
      ∃ line gap, (splitGap true cs).1 = line ++ gap ∧ '\n' ∉ line ∧
        (∀ c ∈ (gap ++ (splitGap true cs).2).head?, c = '\n') ∧ Blanks (splitGap true cs).2 gap := by
  induction cs with
  | nil => exact ⟨.nil, [], [], rfl, List.not_mem_nil, nofun, .nil⟩
  | cons c cs ih =>
      obtain ⟨blank, line, gap, eq, inside, ended, more⟩ := ih
      constructor
      · unfold splitGap
        rw [if_neg Bool.false_ne_true]
        split
        · rename_i space
          exact .space space blank
        · split
          · rename_i slashes
            simp only [Bool.and_eq_true, beq_iff_eq] at slashes
            obtain ⟨rfl, second⟩ := slashes
            cases cs with
            | nil => cases second
            | cons d cs =>
                obtain rfl := Option.some.inj second
                -- The second slash is the first character of the comment that was split off.
                have feed : ('/' != '\n') = true := rfl
                simp only [splitGap, if_true, feed] at eq ended more ⊢
                cases line with
                | nil =>
                    rw [List.nil_append] at eq
                    rw [← eq] at ended
                    cases ended '/' rfl
                | cons d line =>
                    rw [List.cons_append] at eq
                    obtain ⟨rfl, eq⟩ := List.cons.inj eq
                    simp only [List.mem_cons, not_or] at inside
                    rw [eq]
                    exact .comment inside.2 ended more
          · exact .nil
      · by_cases feed : c = '\n'
        · subst feed
          exact ⟨[], '\n' :: (splitGap false cs).1, rfl, List.not_mem_nil,
            fun _ mem => (Option.some.inj mem).symm, .space rfl blank⟩
        · have outside : (c != '\n') = true := bne_iff_ne.mpr feed
          refine ⟨c :: line, gap, ?_, ?_, ?_, ?_⟩
          · simp only [splitGap, if_true, outside, eq, List.cons_append]
          · simpa [Ne.symm feed] using inside
          · simpa only [splitGap, if_true, outside] using ended
          · simpa only [splitGap, if_true, outside] using more

/-- A gap is split off whole. -/
theorem splitGap_of_blanks {gap rest : List Char} (blanks : Blanks rest gap) (solid : Solid rest) :
    splitGap false (gap ++ rest) = (gap, rest) := by
  induction blanks with
  | nil =>
      cases rest with
      | nil => rfl
      | cons c rest =>
          obtain ⟨space, slashes⟩ := solid c rest rfl
          simp [splitGap, space, slashes]
  | space space _ ih => simp [splitGap, space, ih]
  | @comment line gap inside ended more ih =>
      have rest := splitGap_comment inside ended
      rw [ih] at rest
      have slash : isSpace '/' = false := rfl
      have feed : ('/' != '\n') = true := rfl
      simp [splitGap, slash, feed, rest]

theorem solid_splitGap (inComment : Bool) (cs : List Char) : Solid (splitGap inComment cs).2 :=
  fun _ _ left => endsGap_of_splitGap left

/-! ### One lexeme -/

/-- The lexeme is the longest that stands in front of the rest, and what starts there
is no comment. -/
inductive Stands : Lexeme → List Char → Prop where
  | number {c : Char} {parts rest : List Char} (digit : Decimal.isDigit c = true)
      (each : ∀ d ∈ parts, isNumberPart d = true)
      (ended : ∀ d ∈ rest.head?, isNumberPart d = false) : Stands (.number (c :: parts)) rest
  | quoted {content rest : List Char} (inside : '"' ∉ content) : Stands (.quoted content) rest
  | word {c : Char} {parts rest : List Char} (start : isWordStart c = true)
      (each : ∀ d ∈ parts, isWordPart d = true)
      (ended : ∀ d ∈ rest.head?, isWordPart d = false) : Stands (.word (c :: parts)) rest
  | pair {c : Char} {rest : List Char} (takes : takesEquals c = true) :
      Stands (.symbol [c, '=']) rest
  | single {c : Char} {rest : List Char} (symbol : isSymbol c = true)
      (alone : ∀ d ∈ rest.head?, d = '=' → takesEquals c = false)
      (slash : ∀ d ∈ rest.head?, d = '/' → c ≠ '/') : Stands (.symbol [c]) rest

/-- A class of characters that no gap starts with. -/
theorem endsGap_of_class {p : Char → Bool}
    (outside : [' ', '\t', '\r', '\n', '/'].any p = false) {c : Char} (holds : p c = true)
    (cs : List Char) : EndsGap c cs := by
  have other (d : Char) (mem : d ∈ [' ', '\t', '\r', '\n', '/']) : c ≠ d := by
    rintro rfl
    exact List.any_eq_false.mp outside c mem holds
  have space : isSpace c = false := by
    simp [isSpace, other ' ', other '\t', other '\r', other '\n']
  have slash : (c == '/') = false := beq_eq_false_iff_ne.mpr (other '/' (by simp))
  exact ⟨space, by rw [slash]; rfl⟩

theorem Stands.solid {l : Lexeme} {rest : List Char} (stands : l.Stands rest) :
    Solid (l.spelling ++ rest) := by
  intro c tail eq
  cases stands with
  | number digit _ _ =>
      cases eq
      exact endsGap_of_class (p := Decimal.isDigit) (by decide) digit _
  | quoted _ =>
      cases eq
      exact ⟨rfl, rfl⟩
  | word start _ _ =>
      cases eq
      exact endsGap_of_class (p := isWordStart) (by decide) start _
  | pair takes =>
      cases eq
      exact endsGap_of_class (p := takesEquals) (by decide) takes _
  | single symbol _ slash =>
      cases eq
      have space : isSpace c = false := by
        by_contra space
        simp only [Bool.not_eq_false, isSpace, Bool.or_eq_true, beq_iff_eq] at space
        rcases space with ((rfl | rfl) | rfl) | rfl <;> cases symbol
      refine ⟨space, ?_⟩
      by_contra slashes
      simp only [Bool.not_eq_false, Bool.and_eq_true, beq_iff_eq] at slashes
      exact slash '/' slashes.2 rfl slashes.1

theorem Stands.ne_nil {l : Lexeme} {rest : List Char} (stands : l.Stands rest) : l.spelling ≠ [] := by
  cases stands <;> exact List.cons_ne_nil _ _

/-- A part of what follows does not make the lexeme longer either. -/
theorem Stands.of_prefix {l : Lexeme} {rest less : List Char} (stands : l.Stands rest)
    (shorter : less <+: rest) : l.Stands less := by
  have head {d : Char} (mem : d ∈ less.head?) : d ∈ rest.head? := by
    obtain ⟨more, rfl⟩ := shorter
    cases less with
    | nil => cases mem
    | cons _ _ => exact mem
  cases stands with
  | number digit each ended => exact .number digit each fun d mem => ended d (head mem)
  | quoted inside => exact .quoted inside
  | word start each ended => exact .word start each fun d mem => ended d (head mem)
  | pair takes => exact .pair takes
  | single symbol alone slash =>
      exact .single symbol (fun d mem => alone d (head mem)) fun d mem => slash d (head mem)

/-- The characters of a class in front of a text, when the text goes on with another. -/
theorem takeWhile_run {p : Char → Bool} {run rest : List Char} (each : ∀ c ∈ run, p c = true)
    (ended : ∀ c ∈ rest.head?, p c = false) :
    (run ++ rest).takeWhile p = run ∧ (run ++ rest).dropWhile p = rest := by
  rw [List.takeWhile_append_of_pos each, List.dropWhile_append_of_pos each]
  cases rest with
  | nil => simp
  | cons c rest => simp [ended c rfl]

theorem not_isDigit_of_isLetter {c : Char} (letter : isLetter c = true) : Decimal.isDigit c = false := by
  by_contra digit
  simp only [isLetter, Decimal.isDigit, Bool.not_eq_false, Bool.or_eq_true, Bool.and_eq_true,
    decide_eq_true_eq] at letter digit
  rcases letter with ⟨low, _⟩ | ⟨low, _⟩ <;> exact absurd (Char.le_trans low digit.2) (by decide)

theorem not_isDigit_of_isWordStart {c : Char} (start : isWordStart c = true) :
    Decimal.isDigit c = false := by
  simp only [isWordStart, Bool.or_eq_true, beq_iff_eq] at start
  rcases start with letter | rfl
  · exact not_isDigit_of_isLetter letter
  · rfl

/-- What holds of every symbol of one character. -/
theorem of_isSymbol {p : Char → Bool}
    (each : ['(', ')', '[', ']', ',', '.', ':', '=', '+', '-', '*', '/', '^', '>', '<', '!'].all p = true)
    {c : Char} (symbol : isSymbol c = true) : p c = true :=
  List.all_eq_true.mp each c (List.contains_iff_mem.mp symbol)

/-- The grammar has no symbol that is not in the vocabulary. -/
theorem Stands.exists_symbol {text rest : List Char} (stands : (symbol text).Stands rest) :
    ∃ s, Symbol.ofText? (String.ofList text) = some s := by
  apply Option.isSome_iff_exists.mp
  cases stands with
  | @pair c _ takes =>
      have each : ['=', '!', '>', '<'].all fun c => (Symbol.ofText? (String.ofList [c, '='])).isSome := by
        decide
      exact List.all_eq_true.mp each c (List.contains_iff_mem.mp takes)
  | single symbol _ _ =>
      exact of_isSymbol (p := fun c => (Symbol.ofText? (String.ofList [c])).isSome) (by decide) symbol

theorem first?_of_stands {l : Lexeme} {rest : List Char} (stands : l.Stands rest) :
    first? (l.spelling ++ rest) = some (l, rest) := by
  cases stands with
  | @number c parts rest digit each ended =>
      obtain ⟨taken, left⟩ := takeWhile_run each ended
      simp only [spelling, List.cons_append, first?, digit, if_true, taken, left]
  | @quoted content rest inside =>
      have each : ∀ c ∈ content, (c != '"') = true := by
        intro c mem
        rw [bne_iff_ne]
        rintro rfl
        exact inside mem
      have ended : ∀ c ∈ ('"' :: rest).head?, (c != '"') = false := by simp
      obtain ⟨taken, left⟩ := takeWhile_run each ended
      have digit : Decimal.isDigit '"' = false := rfl
      simp [spelling, first?, digit, taken, left]
  | @word c parts rest start each ended =>
      obtain ⟨taken, left⟩ := takeWhile_run each ended
      have digit := not_isDigit_of_isWordStart start
      have quote : c ≠ '"' := by
        rintro rfl
        cases start
      simp only [spelling, List.cons_append, first?, digit, quote, start, if_true, if_false, taken,
        left, Bool.false_eq_true]
  | @pair c rest takes =>
      simp only [takesEquals, List.contains_iff_mem, List.mem_cons, List.not_mem_nil, or_false] at takes
      rcases takes with rfl | rfl | rfl | rfl <;> rfl
  | @single c rest symbol alone _ =>
      have found : symbol? c rest = some (.symbol [c], rest) := by
        unfold symbol?
        split
        · rw [if_neg (by simp [alone '=' rfl rfl]), if_pos symbol]
        · rw [if_pos symbol]
      have other := of_isSymbol (p := fun c => !Decimal.isDigit c && c != '"' && !isWordStart c)
        (by decide) symbol
      simp only [Bool.and_eq_true, Bool.not_eq_true', bne_iff_ne] at other
      simp only [spelling, List.singleton_append, first?, other, if_false, Bool.false_eq_true, found]

/-- What is left after the longest run of a class does not start with a character of it. -/
theorem head_dropWhile {p : Char → Bool} {cs : List Char} {c : Char}
    (mem : c ∈ (cs.dropWhile p).head?) : p c = false := by
  have none := List.head?_dropWhile_not p cs
  rw [Option.mem_def.mp mem] at none
  simpa using none

theorem stands_of_symbol? {c : Char} {cs rest : List Char} {l : Lexeme}
    (found : symbol? c cs = some (l, rest)) (solid : EndsGap c cs) : l.Stands rest := by
  have slash {d : Char} (mem : d ∈ cs.head?) (second : d = '/') : c ≠ '/' := by
    rintro rfl
    have slashes := solid.2
    rw [Option.mem_def.mp mem, second] at slashes
    cases slashes
  unfold symbol? at found
  split at found
  · split at found
    · rename_i takes
      cases found
      exact .pair takes
    · rename_i takes
      split at found
      · rename_i symbol
        cases found
        exact .single symbol (fun _ _ _ => by simpa using takes) fun d mem => slash mem
      · cases found
  · rename_i other
    split at found
    · rename_i symbol
      cases found
      refine .single symbol ?_ fun d mem => slash mem
      rintro _ mem rfl
      exact absurd (List.head?_eq_some_iff.mp mem) (by simpa using other)
    · cases found

/-- The lexer reads the longest lexeme. -/
theorem stands_of_first? {cs rest : List Char} {l : Lexeme} (found : first? cs = some (l, rest))
    (solid : Solid cs) : l.Stands rest := by
  cases cs with
  | nil => cases found
  | cons c cs =>
      rw [first?] at found
      split at found
      · rename_i digit
        cases found
        exact .number digit (fun _ => List.mem_takeWhile_imp) fun _ => head_dropWhile
      · split at found
        · split at found
          · cases found
          · cases found
            refine .quoted fun mem => ?_
            simpa using List.mem_takeWhile_imp mem
        · split at found
          · rename_i start
            cases found
            exact .word start (fun _ => List.mem_takeWhile_imp) fun _ => head_dropWhile
          · exact stands_of_symbol? found (solid c cs rfl)

end Lexeme

/-! ### Many lexemes -/

/-- Lexemes that are read off a text from a position on, with the position and the
text that are left after the last of them. -/
inductive Scan : Position → List Char → List PlacedLexeme → Position → List Char → Prop where
  | done (p : Position) (cs : List Char) : Scan p cs [] p cs
  | next {p q : Position} {gap tail rest : List Char} {l : Lexeme} {ls : List PlacedLexeme}
      (blanks : Blanks (l.spelling ++ tail) gap) (stands : l.Stands tail)
      (more : Scan ((p.after gap).after l.spelling) tail ls q rest) :
      Scan p (gap ++ (l.spelling ++ tail)) (⟨l, p.after gap⟩ :: ls) q rest

/-- What the lexer leaves: it starts with neither a gap nor a lexeme. -/
structure Stuck (left : List Char) : Prop where
  solid : Lexeme.Solid left
  noLexeme : Lexeme.first? left = none

theorem stuck_nil : Stuck [] := ⟨nofun, rfl⟩

namespace Scan

variable {p q : Position} {cs rest : List Char} {ls ms : List PlacedLexeme}

theorem append_iff : Scan p cs (ls ++ ms) q rest ↔
    ∃ r mid, Scan p cs ls r mid ∧ Scan r mid ms q rest := by
  constructor
  · intro scan
    induction ls generalizing p cs with
    | nil => exact ⟨p, cs, .done p cs, scan⟩
    | cons l ls ih =>
        rw [List.cons_append] at scan
        cases scan with
        | next blanks stands more =>
            obtain ⟨r, mid, first, second⟩ := ih more
            exact ⟨r, mid, .next blanks stands first, second⟩
  · rintro ⟨r, mid, first, second⟩
    induction first with
    | done _ _ => exact second
    | next blanks stands _ ih => exact .next blanks stands (ih second)

/-- What was read is the same when less of the text follows it. -/
theorem of_prefix (scan : Scan p cs ls q rest) :
    ∃ read, cs = read ++ rest ∧ q = p.after read ∧
      ∀ less, less <+: rest → Scan p (read ++ less) ls q less := by
  induction scan with
  | done p cs => exact ⟨[], rfl, rfl, fun less _ => .done p less⟩
  | @next p q gap tail rest l ls blanks stands _ ih =>
      obtain ⟨read, rfl, rfl, truncated⟩ := ih
      refine ⟨gap ++ (l.spelling ++ read), by simp, by simp [Position.after_append], ?_⟩
      intro less shorter
      have same : (l.spelling ++ (read ++ less)).head? = (l.spelling ++ (read ++ rest)).head? := by
        obtain ⟨c, spelling, eq⟩ := List.exists_cons_of_ne_nil stands.ne_nil
        rw [eq]
        rfl
      have part : read ++ less <+: read ++ rest := (List.prefix_append_right_inj read).mpr shorter
      have step := Scan.next (blanks.of_head same) (stands.of_prefix part) (truncated less shorter)
      simpa using step

/-- Where the lexemes stand. -/
theorem stands_of_mem (scan : Scan p cs ls q rest) {l : PlacedLexeme} (mem : l ∈ ls) :
    ∃ before after, cs = before ++ (l.lexeme.spelling ++ after) ∧ l.start = p.after before ∧
      l.lexeme.Stands after := by
  induction scan with
  | done _ _ => cases mem
  | @next p q gap tail rest m ls _ stands _ ih =>
      rcases List.mem_cons.mp mem with rfl | mem
      · exact ⟨gap, tail, rfl, rfl, stands⟩
      · obtain ⟨before, after, rfl, start, stands⟩ := ih mem
        refine ⟨gap ++ (m.spelling ++ before), after, by simp, ?_, stands⟩
        rw [start, Position.after_append, Position.after_append]

/-- The lexemes of a text do not depend on where it stands. -/
theorem rebase (scan : Scan p cs ls q rest) (p' : Position) :
    ∃ ls' q', Scan p' cs ls' q' rest ∧
      ls'.map PlacedLexeme.lexeme = ls.map PlacedLexeme.lexeme := by
  induction scan generalizing p' with
  | done p cs => exact ⟨[], p', .done p' cs, rfl⟩
  | @next p q gap tail rest l ls blanks stands _ ih =>
      obtain ⟨ls', q', more, same⟩ := ih ((p'.after gap).after l.spelling)
      exact ⟨⟨l, p'.after gap⟩ :: ls', q', .next blanks stands more, by simp [same]⟩

end Scan

/-! ### The lexer -/

/-- The lexer reads lexemes off the text until nothing starts with one. -/
theorem lexemesFrom_scan {fuel : Nat} {p : Position} {cs : List Char} (enough : cs.length < fuel) :
    ∃ q gap, Scan p cs (lexemesFrom fuel p cs).1 q (gap ++ (lexemesFrom fuel p cs).2.2) ∧
      Blanks (lexemesFrom fuel p cs).2.2 gap ∧ (lexemesFrom fuel p cs).2.1 = q.after gap ∧
      Stuck (lexemesFrom fuel p cs).2.2 := by
  induction fuel generalizing p cs with
  | zero => cases enough
  | succ fuel ih =>
      have whole := gap_append cs
      have blanks := (Lexeme.blanks_of_splitGap cs).1
      have solid := Lexeme.solid_splitGap false cs
      unfold lexemesFrom
      dsimp only
      generalize Lexeme.splitGap false cs = parts at whole blanks solid ⊢
      obtain ⟨gap, left⟩ := parts
      dsimp only at whole blanks solid ⊢
      subst whole
      split
      · rename_i none
        exact ⟨p, gap, .done p _, blanks, rfl, solid, none⟩
      · rename_i l tail found
        have stands := Lexeme.stands_of_first? found solid
        obtain ⟨rfl, _⟩ := Lexeme.spelled_of_first? found
        have some := List.length_pos_iff.mpr stands.ne_nil
        have shorter : tail.length < fuel := by
          rw [List.length_append, List.length_append] at enough
          omega
        obtain ⟨q, last, scan, rest⟩ := ih (p := (p.after gap).after l.spelling) shorter
        exact ⟨q, last, .next blanks stands scan, rest⟩

/-- Nothing else is read off the text. -/
theorem Scan.lexemesFrom_eq {p q : Position} {cs gap left : List Char} {ls : List PlacedLexeme}
    (scan : Scan p cs ls q (gap ++ left)) (blanks : Blanks left gap) (stuck : Stuck left)
    {fuel : Nat} (enough : cs.length < fuel) : lexemesFrom fuel p cs = (ls, q.after gap, left) := by
  generalize eq : gap ++ left = rest at scan
  induction scan generalizing fuel with
  | done p cs =>
      subst eq
      obtain ⟨fuel, rfl⟩ := Nat.exists_eq_add_one.mpr (Nat.zero_lt_of_lt enough)
      simp only [lexemesFrom, Lexeme.splitGap_of_blanks blanks stuck.solid, stuck.noLexeme]
  | @next p q before tail rest l ls spaces stands _ ih =>
      subst eq
      obtain ⟨fuel, rfl⟩ := Nat.exists_eq_add_one.mpr (Nat.zero_lt_of_lt enough)
      have some := List.length_pos_iff.mpr stands.ne_nil
      have shorter : tail.length < fuel := by
        rw [List.length_append, List.length_append] at enough
        omega
      simp only [lexemesFrom, Lexeme.splitGap_of_blanks spaces stands.solid,
        Lexeme.first?_of_stands stands, ih shorter rfl]

end Pseudocode

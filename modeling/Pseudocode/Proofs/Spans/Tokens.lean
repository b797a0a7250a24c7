import Mathlib.Data.List.TakeWhile
import Pseudocode.Token.Lexer

/-!
Tokens stand in the text they were read from.

The spans of tokens, and of the errors of texts that have none, lie between
characters of the text and are never the span that stands for no place. For errors
this takes that the walk over single characters finds the character at which the
grammar of lexemes stops (`firstUnlexable_eq`): it stays in step with the grammar,
gap by gap and lexeme by lexeme.
-/

namespace Pseudocode

/-! ### Places in a text -/

theorem byteLength_pos {cs : List Char} (some : cs ≠ []) : 0 < byteLength cs := by
  cases cs with
  | nil => exact absurd rfl some
  | cons c cs =>
      have size := c.utf8Size_pos
      rw [byteLength_cons]
      omega

/-- An offset between two characters of the text, or at one of its ends. -/
def Boundary (cs : List Char) (n : Nat) : Prop :=
  ∃ before after, cs = before ++ after ∧ n = byteLength before

theorem Boundary.le {cs : List Char} {n : Nat} (boundary : Boundary cs n) : n ≤ byteLength cs := by
  obtain ⟨before, after, rfl, rfl⟩ := boundary
  rw [byteLength_append]
  exact Nat.le_add_right _ _

/-- A span of characters of the text. It may be empty, but not at the start. -/
structure Span.Within (cs : List Char) (s : Span) : Prop where
  start : Boundary cs s.start
  stop : Boundary cs s.stop
  ordered : s.start ≤ s.stop
  positive : 0 < s.stop

namespace Span.Within

variable {cs : List Char} {s t : Span}

theorem placed (within : s.Within cs) : s ≠ .unplaced := by
  rintro rfl
  exact Nat.lt_irrefl 0 within.positive

theorem merge (left : s.Within cs) (right : t.Within cs) : (s.merge t).Within cs := by
  unfold Span.merge
  constructor
  · rcases Nat.le_total s.start t.start with le | le
    · simpa [Nat.min_eq_left le] using left.start
    · simpa [Nat.min_eq_right le] using right.start
  · rcases Nat.le_total s.stop t.stop with le | le
    · simpa [Nat.max_eq_right le] using right.stop
    · simpa [Nat.max_eq_left le] using left.stop
  · have := left.ordered
    have := right.ordered
    dsimp only
    omega
  · have := left.positive
    dsimp only
    omega

/-- The span of a part of the text. -/
theorem of_append {before part after : List Char} (some : part ≠ []) :
    Within (before ++ (part ++ after)) ⟨byteLength before, byteLength before + byteLength part⟩ := by
  have size := byteLength_pos some
  constructor
  · exact ⟨before, part ++ after, rfl, rfl⟩
  · exact ⟨before ++ part, after, by simp, (byteLength_append ..).symm⟩
  · exact Nat.le_add_right _ _
  · dsimp only
    omega

end Span.Within

/-- What is left of the text at a position that a walk from its start reaches. -/
def StandsAt (whole : List Char) (p : Position) (rest : List Char) : Prop :=
  ∃ before, whole = before ++ rest ∧ p = Position.first.after before

theorem StandsAt.after {whole cs ds : List Char} {p : Position} (stands : StandsAt whole p (cs ++ ds)) :
    StandsAt whole (p.after cs) ds := by
  obtain ⟨before, rfl, rfl⟩ := stands
  exact ⟨before ++ cs, by simp, (Position.after_append ..).symm⟩

theorem StandsAt.within {whole part after : List Char} {p : Position}
    (stands : StandsAt whole p (part ++ after)) (some : part ≠ []) :
    Span.Within whole ⟨p.offset, p.offset + byteLength part⟩ := by
  obtain ⟨before, rfl, rfl⟩ := stands
  have offset : (Position.first.after before).offset = byteLength before := by
    rw [Position.offset_after]
    exact Nat.zero_add _
  rw [offset]
  exact .of_append some

/-! ### Gaps and lexemes -/

namespace Lexeme

/-- Nothing in front of the rest belongs to the gap. -/
def EndsGap (c : Char) (cs : List Char) : Prop :=
  isSpace c = false ∧ (c == '/' && cs.head? == some '/') = false

theorem endsGap_of_splitGap {inComment : Bool} {cs rest : List Char} {c : Char}
    (left : (splitGap inComment cs).2 = c :: rest) : EndsGap c rest := by
  induction cs generalizing inComment with
  | nil => cases left
  | cons d cs ih =>
      unfold splitGap at left
      split at left
      · exact ih left
      · split at left
        · exact ih left
        · split at left
          · exact ih left
          · rename_i space slashes
            cases left
            exact ⟨by simpa using space, by simpa using slashes⟩

/-- A character that the walk passes wherever it stands outside quotes. -/
def isPlain (c : Char) : Bool := isLexable c && c != '/' && c != '"'

theorem isPlain_of_isNumberPart {c : Char} (part : isNumberPart c = true) : isPlain c = true := by
  simp only [isNumberPart, Bool.or_eq_true, beq_iff_eq] at part
  rcases part with (digit | rfl) | rfl
  · have slash : c ≠ '/' := by
      rintro rfl
      cases digit
    have quote : c ≠ '"' := by
      rintro rfl
      cases digit
    simp [isPlain, isLexable, digit, slash, quote]
  · rfl
  · rfl

theorem isPlain_of_isLetter {c : Char} (letter : isLetter c = true) : isPlain c = true := by
  have slash : c ≠ '/' := by
    rintro rfl
    cases letter
  have quote : c ≠ '"' := by
    rintro rfl
    cases letter
  simp [isPlain, isLexable, letter, slash, quote]

theorem isPlain_of_isWordPart {c : Char} (part : isWordPart c = true) : isPlain c = true := by
  simp only [isWordPart, Bool.or_eq_true, beq_iff_eq] at part
  rcases part with ((letter | digit) | rfl) | rfl
  · exact isPlain_of_isLetter letter
  · exact isPlain_of_isNumberPart (by simp [isNumberPart, digit])
  · rfl
  · rfl

theorem isPlain_of_isSpace {c : Char} (space : isSpace c = true) : isPlain c = true := by
  simp only [isSpace, Bool.or_eq_true, beq_iff_eq] at space
  rcases space with ((rfl | rfl) | rfl) | rfl <;> rfl

theorem isPlain_of_takesEquals {c : Char} (takes : takesEquals c = true) : isPlain c = true := by
  simp only [takesEquals, List.contains_iff_mem, List.mem_cons, List.not_mem_nil, or_false] at takes
  rcases takes with rfl | rfl | rfl | rfl <;> rfl

/-- The texts of lexemes, as far as the walk over characters tells them apart. -/
inductive Passable : List Char → Prop where
  | plain {run : List Char} (some : run ≠ []) (each : ∀ c ∈ run, isPlain c = true) : Passable run
  | quoted {content : List Char} (inside : '"' ∉ content) : Passable ('"' :: content ++ ['"'])
  | symbol {c : Char} (symbol : isSymbol c = true) : Passable [c]

theorem Passable.ne_nil {spelling : List Char} (passable : Passable spelling) : spelling ≠ [] := by
  cases passable with
  | plain some _ => exact some
  | quoted _ => exact List.cons_ne_nil _ _
  | symbol _ => exact List.cons_ne_nil _ _

/-- A plain character and all that follow it of one class. -/
theorem passable_run {p : Char → Bool} (plain : ∀ c, p c = true → isPlain c = true) {c : Char}
    (first : isPlain c = true) (cs : List Char) : Passable (c :: cs.takeWhile p) := by
  refine .plain (List.cons_ne_nil _ _) ?_
  intro d mem
  rcases List.mem_cons.mp mem with rfl | mem
  · exact first
  · exact plain d (List.mem_takeWhile_imp mem)

theorem spelled_of_symbol? {c : Char} {cs tail : List Char} {l : Lexeme}
    (found : symbol? c cs = some (l, tail)) : c :: cs = l.spelling ++ tail ∧ Passable l.spelling := by
  unfold symbol? at found
  split at found
  · split at found
    · rename_i takes
      cases found
      refine ⟨rfl, .plain (List.cons_ne_nil _ _) ?_⟩
      intro d mem
      rcases List.mem_cons.mp mem with rfl | mem
      · exact isPlain_of_takesEquals takes
      · obtain rfl := List.mem_singleton.mp mem
        rfl
    · split at found
      · rename_i symbol
        cases found
        exact ⟨rfl, .symbol symbol⟩
      · cases found
  · split at found
    · rename_i symbol
      cases found
      exact ⟨rfl, .symbol symbol⟩
    · cases found

/-- A lexeme is the start of the text, and what is left follows it. -/
theorem spelled_of_first? {cs tail : List Char} {l : Lexeme} (found : first? cs = some (l, tail)) :
    cs = l.spelling ++ tail ∧ Passable l.spelling := by
  cases cs with
  | nil => cases found
  | cons c cs =>
      rw [first?] at found
      split at found
      · rename_i digit
        cases found
        refine ⟨by simp [spelling], ?_⟩
        refine passable_run (fun _ => isPlain_of_isNumberPart) ?_ cs
        exact isPlain_of_isNumberPart (by simp [isNumberPart, digit])
      · split at found
        · rename_i quote
          subst quote
          split at found
          · cases found
          · rename_i close rest left
            cases found
            have split := List.takeWhile_append_dropWhile (p := (· != '"')) (l := cs)
            have closing : close = '"' := by
              have head := List.head?_dropWhile_not (· != '"') cs
              simpa [left] using head
            rw [left, closing] at split
            refine ⟨by simp [spelling, split], .quoted ?_⟩
            intro mem
            simpa using List.mem_takeWhile_imp mem
        · split at found
          · rename_i start
            cases found
            refine ⟨by simp [spelling], ?_⟩
            refine passable_run (fun _ => isPlain_of_isWordPart) ?_ cs
            simp only [isWordStart, Bool.or_eq_true] at start
            exact isPlain_of_isWordPart (by rcases start with start | start <;> simp [isWordPart, start])
          · exact spelled_of_symbol? found

end Lexeme

/-! ### The walk over characters -/

section Walk

variable {p : Position} {c : Char} {cs tail : List Char} {l : Lexeme}

theorem firstUnlexable_nil (inside : Inside) : firstUnlexable inside p [] = none := by
  cases inside <;> rfl

theorem firstUnlexable_plain (plain : Lexeme.isPlain c = true) :
    firstUnlexable .nothing p (c :: cs) = firstUnlexable .nothing (p.next c) cs := by
  simp only [Lexeme.isPlain, Bool.and_eq_true, bne_iff_ne] at plain
  obtain ⟨⟨lexable, slash⟩, quote⟩ := plain
  simp [firstUnlexable, lexable, slash, quote]

theorem firstUnlexable_run {run : List Char} (each : ∀ c ∈ run, Lexeme.isPlain c = true) :
    firstUnlexable .nothing p (run ++ tail) = firstUnlexable .nothing (p.after run) tail := by
  induction run generalizing p with
  | nil => rfl
  | cons c run ih =>
      rw [List.cons_append, firstUnlexable_plain (each c List.mem_cons_self), Position.after_cons]
      exact ih fun d mem => each d (List.mem_cons_of_mem c mem)

theorem firstUnlexable_quotes {content : List Char} (inside : '"' ∉ content) :
    firstUnlexable .quotes p (content ++ '"' :: tail) =
      firstUnlexable .nothing (p.after (content ++ ['"'])) tail := by
  induction content generalizing p with
  | nil => rfl
  | cons c content ih =>
      simp only [List.mem_cons, not_or] at inside
      rw [List.cons_append, List.cons_append, Position.after_cons, ← ih inside.2]
      simp [firstUnlexable, Ne.symm inside.1]

/-- The walk gets over a lexeme. -/
theorem firstUnlexable_passable {spelling : List Char} (passable : Lexeme.Passable spelling)
    (starts : ∀ c cs, spelling ++ tail = c :: cs → Lexeme.EndsGap c cs) :
    firstUnlexable .nothing p (spelling ++ tail) = firstUnlexable .nothing (p.after spelling) tail := by
  cases passable with
  | plain _ each => exact firstUnlexable_run each
  | @quoted content inside =>
      have opened : firstUnlexable .nothing p ('"' :: (content ++ '"' :: tail)) =
          firstUnlexable .quotes (p.next '"') (content ++ '"' :: tail) := by
        simp [firstUnlexable]
      rw [List.cons_append, List.cons_append, List.append_assoc, List.singleton_append, opened,
        firstUnlexable_quotes inside, Position.after_cons]
  | @symbol c symbol =>
      obtain ⟨_, slashes⟩ := starts c tail rfl
      have quote : c ≠ '"' := by
        rintro rfl
        cases symbol
      have lexable : isLexable c = true := by simp [isLexable, symbol]
      simp [firstUnlexable, slashes, quote, lexable]

/-- The walk gets over a gap. -/
theorem firstUnlexable_gap (inComment : Bool) (p : Position) (cs : List Char) :
    firstUnlexable (if inComment then .comment else .nothing) p cs =
      firstUnlexable .nothing (p.after (Lexeme.splitGap inComment cs).1)
        (Lexeme.splitGap inComment cs).2 := by
  induction cs generalizing inComment p with
  | nil => rw [firstUnlexable_nil, Lexeme.splitGap, firstUnlexable_nil]
  | cons c cs ih =>
      cases inComment with
      | true =>
          have step := ih (c != '\n') (p.next c)
          simp only [Lexeme.splitGap, if_true, Position.after_cons, ← step, firstUnlexable]
          by_cases feed : c = '\n' <;> simp [feed]
      | false =>
          unfold Lexeme.splitGap
          split
          · contradiction
          · split
            · rename_i space
              rw [firstUnlexable_plain (Lexeme.isPlain_of_isSpace space)]
              exact ih false (p.next c)
            · split
              · rename_i slashes
                rw [firstUnlexable, if_pos slashes]
                exact ih true (p.next c)
              · rfl

theorem not_isSymbol_of_first? (none : Lexeme.symbol? c cs = none) : Lexeme.isSymbol c = false := by
  unfold Lexeme.symbol? at none
  split at none
  · split at none
    · cases none
    · split at none
      · cases none
      · simp_all
  · split at none
    · cases none
    · simp_all

/-- The walk stops where no lexeme starts. -/
theorem firstUnlexable_stuck (none : Lexeme.first? (c :: cs) = none) (starts : Lexeme.EndsGap c cs) :
    firstUnlexable .nothing p (c :: cs) = some (p, c) := by
  obtain ⟨space, slashes⟩ := starts
  rw [Lexeme.first?] at none
  split at none
  · cases none
  · rename_i digit
    split at none
    · rename_i quote
      subst quote
      split at none
      · rename_i unclosed
        have absent : '"' ∉ cs := by
          intro mem
          simpa using List.dropWhile_eq_nil_iff.mp unclosed _ mem
        simp [firstUnlexable, absent]
      · cases none
    · rename_i quote
      split at none
      · cases none
      · rename_i word
        have symbol := not_isSymbol_of_first? none
        have lexable : isLexable c = false := by
          simp_all [isLexable, Lexeme.isWordStart]
        simp [firstUnlexable, slashes, quote, lexable]

end Walk

/-! ### Lexemes -/

section Lexemes

variable {whole cs rest : List Char} {p : Position}

/-- A gap and what follows it, which the grammar reads as a lexeme. -/
theorem gap_append (cs : List Char) :
    cs = (Lexeme.splitGap false cs).1 ++ (Lexeme.splitGap false cs).2 :=
  (Lexeme.splitGap_append false cs).symm

/-- Lexemes stand in the text, and so does what is left after them. -/
theorem lexemesFrom_stand (fuel : Nat) (stands : StandsAt whole p cs) :
    (∀ l ∈ (lexemesFrom fuel p cs).1, l.span.Within whole) ∧
      StandsAt whole (lexemesFrom fuel p cs).2.1 (lexemesFrom fuel p cs).2.2 := by
  induction fuel generalizing p cs with
  | zero => exact ⟨fun _ mem => (nomatch mem), stands⟩
  | succ fuel ih =>
      have start : StandsAt whole (p.after (Lexeme.splitGap false cs).1) (Lexeme.splitGap false cs).2 := by
        rw [gap_append cs] at stands
        exact stands.after
      unfold lexemesFrom
      dsimp only
      split
      · exact ⟨fun _ mem => (nomatch mem), start⟩
      · rename_i lexeme tail found
        obtain ⟨spelled, passable⟩ := Lexeme.spelled_of_first? found
        rw [spelled] at start
        obtain ⟨each, left⟩ := ih start.after
        refine ⟨?_, left⟩
        intro l mem
        rcases List.mem_cons.mp mem with rfl | mem
        · exact start.within passable.ne_nil
        · exact each l mem

/-- The walk over characters finds the character at which the grammar stops. -/
theorem firstUnlexable_eq (fuel : Nat) (enough : cs.length < fuel) :
    firstUnlexable .nothing p cs = (lexemesFrom fuel p cs).2.2.head?.map fun c =>
      ((lexemesFrom fuel p cs).2.1, c) := by
  -- Walk and grammar meet at the start of every lexeme, outside quotes and comments.
  induction fuel generalizing p cs with
  | zero => cases enough
  | succ fuel ih =>
      have gap := firstUnlexable_gap false p cs
      have whole := congrArg List.length (gap_append cs)
      unfold lexemesFrom
      rw [if_neg Bool.false_ne_true] at gap
      rw [gap]
      dsimp only
      have starts : ∀ c ds, (Lexeme.splitGap false cs).2 = c :: ds → Lexeme.EndsGap c ds :=
        fun _ _ left => Lexeme.endsGap_of_splitGap left
      generalize Lexeme.splitGap false cs = parts at whole starts ⊢
      obtain ⟨before, after⟩ := parts
      dsimp only at starts ⊢
      split
      · rename_i none
        cases after with
        | nil => exact firstUnlexable_nil _
        | cons c ds => exact firstUnlexable_stuck none (starts c ds rfl)
      · rename_i lexeme tail found
        obtain ⟨rfl, passable⟩ := Lexeme.spelled_of_first? found
        rw [firstUnlexable_passable passable starts]
        refine ih ?_
        have some := List.length_pos_iff.mpr passable.ne_nil
        rw [List.length_append, List.length_append] at whole
        omega

theorem lexemes_stand (cs : List Char) :
    (∀ l ∈ (lexemes cs).1, l.span.Within cs) ∧ StandsAt cs (lexemes cs).2.1 (lexemes cs).2.2 :=
  lexemesFrom_stand (cs.length + 1) ⟨[], rfl, rfl⟩

end Lexemes

/-! ### Tokens -/

/-- The result is good, or the error is placed in the text. -/
def Sited {α : Type} (cs : List Char) (good : α → Prop) : Except SyntaxError α → Prop
  | .ok a => good a
  | .error e => e.span.Within cs

theorem Sited.bind {α β : Type} {cs : List Char} {good : α → Prop} {fine : β → Prop}
    {x : Except SyntaxError α} {f : α → Except SyntaxError β} (first : Sited cs good x)
    (second : ∀ a, good a → Sited cs fine (f a)) : Sited cs fine (x >>= f) := by
  cases x with
  | ok a => exact second a first
  | error e => exact first

section Tokens

variable {cs : List Char}

theorem PlacedLexeme.token_sited {l : PlacedLexeme} (within : l.span.Within cs) (afterDot : Bool) :
    Sited cs (fun t => t.span.Within cs) (l.token afterDot) := by
  unfold PlacedLexeme.token
  dsimp only
  split
  · split <;> exact within
  · split <;> exact within
  · exact within
  · split <;> exact within

theorem tokensOf_sited {ls : List PlacedLexeme} (each : ∀ l ∈ ls, l.span.Within cs) (afterDot : Bool) :
    Sited cs (fun ts => ∀ t ∈ ts, t.span.Within cs) (tokensOf afterDot ls) := by
  induction ls generalizing afterDot with
  | nil => exact fun _ mem => nomatch mem
  | cons l ls ih =>
      refine Sited.bind (l.token_sited (each l List.mem_cons_self) afterDot) fun t first => ?_
      refine Sited.bind (ih (fun l mem => each l (List.mem_cons_of_mem _ mem)) _) fun ts rest => ?_
      intro u mem
      rcases List.mem_cons.mp mem with rfl | mem
      · exact first
      · exact rest u mem

/-- A text that the grammar does not cover is blamed on the first character that is
left. -/
theorem lexError_within {c : Char} {rest : List Char} (left : (lexemes cs).2.2 = c :: rest) :
    (lexError cs (lexemes cs).2.1).span.Within cs := by
  have stands := (lexemes_stand cs).2
  have found : firstUnlexable .nothing .first cs =
      (lexemes cs).2.2.head?.map fun c => ((lexemes cs).2.1, c) :=
    firstUnlexable_eq (cs.length + 1) (Nat.lt_succ_self cs.length)
  rw [left] at stands found
  unfold lexError
  rw [found]
  change StandsAt cs (lexemes cs).2.1 ([c] ++ rest) at stands
  exact stands.within (List.cons_ne_nil c [])

/-- Tokens are placed in their text, which ends where they do. -/
theorem tokenizeChars_sited (cs : List Char) :
    Sited cs (fun read => (∀ t ∈ read.1, t.span.Within cs) ∧ read.2.offset = byteLength cs)
      (tokenizeChars cs) := by
  obtain ⟨each, stands⟩ := lexemes_stand cs
  have failed : ∀ c rest, (lexemes cs).2.2 = c :: rest →
      (lexError cs (lexemes cs).2.1).span.Within cs := fun _ _ => lexError_within
  unfold tokenizeChars
  generalize lexemes cs = parts at each stands failed ⊢
  obtain ⟨placed, stop, rest⟩ := parts
  dsimp only at each stands failed ⊢
  cases rest with
  | cons c rest => exact failed c rest rfl
  | nil =>
      have ends : stop.offset = byteLength cs := by
        obtain ⟨before, rfl, rfl⟩ := stands
        rw [Position.offset_after, List.append_nil]
        exact Nat.zero_add _
      have tokens := tokensOf_sited each false
      simp only [List.isEmpty_nil, if_true]
      generalize tokensOf false placed = read at tokens ⊢
      cases read with
      | error e => exact tokens
      | ok ts => exact ⟨tokens, ends⟩

end Tokens

end Pseudocode

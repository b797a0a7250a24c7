import Pseudocode.Proofs.Lexing.Part
import Pseudocode.Proofs.Spans.Selection

/-!
Programs at other places of a text.

Blanks in front of a program move all its spans and change nothing else. So two copies of
a program behind different numbers of blanks agree, span by span, with the places at which
the program would have them if it stood alone (`parse_moved`).
-/

namespace Pseudocode

/-- The span that many bytes further on. -/
def Span.shift (k : Nat) (s : Span) : Span := ⟨s.start + k, s.stop + k⟩

theorem Span.shift_merge (k : Nat) (s t : Span) : (s.merge t).shift k = (s.shift k).merge (t.shift k) := by
  simp only [shift, merge, Span.mk.injEq]
  omega

/-! ### Lexemes and tokens -/

/-- A text further on has the same lexemes, that much further on. -/
theorem Scan.shift {p q p' : Position} {cs rest : List Char} {ls : List PlacedLexeme} {k : Nat}
    (scan : Scan p cs ls q rest) (moved : p'.offset = p.offset + k) :
    ∃ ls' q', Scan p' cs ls' q' rest ∧
      ls'.map PlacedLexeme.lexeme = ls.map PlacedLexeme.lexeme ∧
      ls'.map PlacedLexeme.span = (ls.map PlacedLexeme.span).map (Span.shift k) := by
  induction scan generalizing p' with
  | done p cs => exact ⟨[], p', .done p' cs, rfl, rfl⟩
  | @next p q gap tail rest l ls blanks stands _ ih =>
      have start : (p'.after gap).offset = (p.after gap).offset + k := by
        rw [Position.offset_after, Position.offset_after, moved]
        omega
      have after : ((p'.after gap).after l.spelling).offset = ((p.after gap).after l.spelling).offset + k := by
        rw [Position.offset_after, Position.offset_after _ l.spelling, start]
        omega
      obtain ⟨ls', q', more, lexemes, spans⟩ := ih after
      refine ⟨⟨l, p'.after gap⟩ :: ls', q', .next blanks stands more, by simp [lexemes], ?_⟩
      have span : PlacedLexeme.span ⟨l, p'.after gap⟩ = (PlacedLexeme.span ⟨l, p.after gap⟩).shift k := by
        simp only [PlacedLexeme.span, Span.shift, start, Span.mk.injEq, true_and]
        omega
      simp [span, spans]

theorem Blanks.spaces {rest gap : List Char} (blanks : Blanks rest gap) (k : Nat) :
    Blanks rest (List.replicate k ' ' ++ gap) := by
  induction k with
  | zero => exact blanks
  | succ k ih => exact .space rfl ih

/-- Spaces in front of a text lengthen its first gap. -/
theorem Scan.behind_spaces {p q : Position} {cs gap : List Char} {ls : List PlacedLexeme} (k : Nat)
    (scan : Scan (p.after (List.replicate k ' ')) cs ls q gap) (blanks : Blanks [] gap) :
    ∃ q' gap', Scan p (List.replicate k ' ' ++ cs) ls q' gap' ∧ Blanks [] gap' := by
  cases scan with
  | done _ _ => exact ⟨p, _, .done p _, blanks.spaces k⟩
  | @next _ _ first tail _ l ls before stands more =>
      rw [← Position.after_append p (List.replicate k ' ') first] at more ⊢
      have step := Scan.next (before.spaces k) stands more
      rw [List.append_assoc] at step
      exact ⟨q, gap, step, blanks⟩

theorem forall₂_of_maps {ts ts' : List Token} {f : Span → Span}
    (contents : ts'.map Token.content = ts.map Token.content)
    (spans : ts'.map Token.span = (ts.map Token.span).map f) :
    List.Forall₂ (Token.Agree fun s s' => s' = f s) ts ts' := by
  induction ts generalizing ts' with
  | nil =>
      rw [List.map_nil, List.map_eq_nil_iff] at contents
      rw [contents]
      exact .nil
  | cons t ts ih =>
      cases ts' with
      | nil => cases contents
      | cons t' ts' =>
          obtain ⟨content, contents⟩ := List.cons.inj contents
          obtain ⟨span, spans⟩ := List.cons.inj spans
          obtain ⟨kind, value⟩ := Prod.mk.inj content
          exact .cons ⟨kind, value, span⟩ (ih contents spans)

/-- Behind spaces a text has the same tokens, that much further on. -/
theorem tokenizeChars_spaces {cs : List Char} {ts : List Token} {stop : Position}
    (lexed : tokenizeChars cs = .ok (ts, stop)) (k : Nat) :
    ∃ ts' stop', tokenizeChars (List.replicate k ' ' ++ cs) = .ok (ts', stop') ∧
      List.Forall₂ (Token.Agree fun s s' => s' = s.shift k) ts ts' ∧
      stop'.offset = stop.offset + k := by
  obtain ⟨ls, q, gap, scan, blanks, made, rfl⟩ := tokenizeChars_eq_ok.mp lexed
  have width : byteLength (List.replicate k ' ') = k := by
    induction k with
    | zero => rfl
    | succ k ih =>
        rw [List.replicate_succ, byteLength_cons, ih]
        exact Nat.add_comm 1 k
  have moved : (Position.first.after (List.replicate k ' ')).offset = Position.first.offset + k := by
    rw [Position.offset_after, width]
  obtain ⟨ls', q', scan', lexemes, spans⟩ := scan.shift moved
  obtain ⟨q'', gap', whole, blanks'⟩ := scan'.behind_spaces k blanks
  obtain ⟨ts', made', contents⟩ := tokensOf_content lexemes made
  refine ⟨ts', _, tokenizeChars_eq_ok.mpr ⟨ls', q'', gap', whole, blanks', made', rfl⟩, ?_, ?_⟩
  · apply forall₂_of_maps contents
    rw [tokensOf_spans made', tokensOf_spans made, spans]
  · rw [Position.after_append, Position.offset_after, moved, Position.offset_after]
    omega

/-- Rows of tokens that come from one row agree where the places in that row say so. -/
theorem forall₂_through {ts us vs : List Token} {f g : Span → Span} {τ : Span → Span → Prop}
    (first : List.Forall₂ (Token.Agree fun s s' => s' = f s) ts us)
    (second : List.Forall₂ (Token.Agree fun s s' => s' = g s) ts vs)
    (related : ∀ t ∈ ts, τ (f t.span) (g t.span)) : List.Forall₂ (Token.Agree τ) us vs := by
  induction first generalizing vs with
  | nil =>
      cases second
      exact .nil
  | @cons t u ts us one _ ih =>
      cases second with
      | @cons _ v _ vs other rest =>
          refine .cons ⟨?_, ?_, ?_⟩ (ih rest fun t mem => related t (List.mem_cons_of_mem _ mem))
          · rw [other.kind, one.kind]
          · rw [other.value, one.value]
          · rw [one.placed, other.placed]
            exact related t List.mem_cons_self

/-! ### Programs -/

/-- The text behind spaces. A text that is no program is left where it is: all that it leads
to is a message, and this names its line and column. -/
def moved (k : Nat) (source : String) : String :=
  match parse source with
  | .ok _ => spaces k ++ source
  | .error _ => source

/-- Two copies of a span of the text, at different places. -/
def Copied (cs : List Char) (d d' : Nat) (s s' : Span) : Prop :=
  ∃ t : Span, t.Within cs ∧ s = t.shift d ∧ s' = t.shift d'

theorem copied_merges (cs : List Char) (d d' : Nat) : Merges (Copied cs d d') := by
  rintro _ _ _ _ ⟨s, within, rfl, rfl⟩ ⟨t, within', rfl, rfl⟩
  exact ⟨s.merge t, within.merge within', (Span.shift_merge d s t).symm, (Span.shift_merge d' s t).symm⟩

theorem moved_toList {source : String} {p : Program} (parsed : parse source = .ok p) (k : Nat) :
    (moved k source).toList = List.replicate k ' ' ++ source.toList := by
  simp [moved, parsed, spaces]

/-- The tokens of a program behind spaces. -/
theorem parse_spaces {source : String} {p : Program} {ts : List Token} {stop : Position}
    (parsed : parse source = .ok p) (lexed : tokenizeChars source.toList = .ok (ts, stop)) (k : Nat) :
    ∃ ts' stop', parse (moved k source) = Program.ofTokens ts' (.endOfInput stop') ∧
      List.Forall₂ (Token.Agree fun s s' => s' = s.shift k) ts ts' ∧
      (Token.endOfInput stop).Agree (fun s s' => s' = s.shift k) (.endOfInput stop') := by
  obtain ⟨ts', stop', lexed', tokens, offset⟩ := tokenizeChars_spaces lexed k
  rw [← moved_toList parsed] at lexed'
  refine ⟨ts', stop', parse_of_tokens lexed', tokens, rfl, rfl, ?_⟩
  simp only [Token.endOfInput, Span.shift, offset]

/-- Copies of a program agree. -/
theorem parse_moved {source : String} {p : Program} (parsed : parse source = .ok p) (d d' : Nat) :
    ∃ q q', parse (moved d source) = .ok q ∧ parse (moved d' source) = .ok q' ∧
      q.Agree (Copied source.toList d d') q' := by
  obtain ⟨ts, stop, lexed, read⟩ := parse_eq_ok parsed
  obtain ⟨us, last, readAt, tokens, ending⟩ := parse_spaces parsed lexed d
  obtain ⟨us', last', readAt', tokens', ending'⟩ := parse_spaces parsed lexed d'
  rw [readAt, readAt']
  by_cases empty : source.toList = []
  · rw [empty] at lexed
    cases lexed
    cases tokens
    cases tokens'
    exact ⟨⟨[]⟩, ⟨[]⟩, rfl, rfl, .nil⟩
  · have sited := tokenizeChars_sited source.toList
    rw [lexed] at sited
    obtain ⟨each, ends⟩ := sited
    have copies : List.Forall₂ (Token.Agree (Copied source.toList d d')) us us' :=
      forall₂_through tokens tokens' fun t mem => ⟨t.span, each t mem, rfl, rfl⟩
    have boundary : Boundary source.toList stop.offset := ⟨source.toList, [], by simp, ends⟩
    have within : Span.Within source.toList ⟨stop.offset, stop.offset⟩ :=
      ⟨boundary, boundary, Nat.le_refl _, Nat.lt_of_lt_of_eq (byteLength_pos empty) ends.symm⟩
    have last : (Token.endOfInput last).Agree (Copied source.toList d d') (.endOfInput last') :=
      ⟨rfl, rfl, _, within, ending.placed, ending'.placed⟩
    have whole := Program.ofTokens_agree
      (fun _ _ => trivial : Merges fun _ _ => True)
      (tokens.imp fun _ _ agree => ⟨agree.kind, agree.value, trivial⟩)
      ⟨ending.kind, ending.value, trivial⟩
    have reading := Program.ofTokens_agree (copied_merges source.toList d d') copies last
    rw [read] at whole
    generalize Program.ofTokens us _ = x at whole reading ⊢
    generalize Program.ofTokens us' _ = x' at reading ⊢
    cases whole
    cases reading with
    | ok agree => exact ⟨_, _, rfl, rfl, agree⟩

end Pseudocode

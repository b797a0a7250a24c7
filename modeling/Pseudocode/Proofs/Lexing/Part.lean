import Pseudocode.Proofs.Lexing.Token
import Pseudocode.Proofs.Spans.Layout

/-!
A part of a text, read alone.

What is cut out of a text from the start of one token to the end of a later one has
the tokens in between (`tokenizeChars_part`). The first of them must not follow a dot:
alone, it could be a reserved word.
-/

namespace Pseudocode

/-! ### Lexemes at other places -/

theorem PlacedLexeme.token_content {l l' : PlacedLexeme} {b : Bool} {t : Token}
    (same : l'.lexeme = l.lexeme) (made : l.token b = .ok t) :
    ∃ t', l'.token b = .ok t' ∧ t'.content = t.content := by
  unfold token at made ⊢
  rw [same]
  split at made
  · split at made <;> cases made <;> exact ⟨_, rfl, rfl⟩
  · split at made
    · cases made
    · rename_i once
      cases made
      rw [if_neg once]
      exact ⟨_, rfl, rfl⟩
  · cases made
    exact ⟨_, rfl, rfl⟩
  · split at made
    · cases made
      exact ⟨_, rfl, rfl⟩
    · cases made

/-- Where lexemes stand does not change what their tokens are. -/
theorem tokensOf_content {ls ls' : List PlacedLexeme} {b : Bool} {ts : List Token}
    (same : ls'.map PlacedLexeme.lexeme = ls.map PlacedLexeme.lexeme)
    (made : tokensOf b ls = .ok ts) :
    ∃ ts', tokensOf b ls' = .ok ts' ∧ ts'.map Token.content = ts.map Token.content := by
  induction ls generalizing ls' b ts with
  | nil =>
      rw [List.map_nil, List.map_eq_nil_iff] at same
      cases made
      exact ⟨[], by rw [same]; rfl, rfl⟩
  | cons l ls ih =>
      cases ls' with
      | nil => cases same
      | cons l' ls' =>
          obtain ⟨lexeme, rest⟩ := List.cons.inj same
          obtain ⟨t, more, rfl, first, back⟩ := tokensOf_cons_eq_ok.mp made
          obtain ⟨t', first', content⟩ := PlacedLexeme.token_content lexeme first
          obtain ⟨more', back', contents⟩ := ih rest back
          have kind : t'.kind = t.kind := (Prod.mk.inj content).1
          rw [← kind] at back'
          refine ⟨t' :: more', tokensOf_cons_eq_ok.mpr ⟨t', more', rfl, first', back'⟩, ?_⟩
          rw [List.map_cons, List.map_cons, content, contents]

/-! ### Parts of a text -/

/-- The gap in front of the first lexeme can be left out. -/
theorem Scan.from_first {p q : Position} {cs rest : List Char} {l : PlacedLexeme}
    {ls : List PlacedLexeme} (scan : Scan p cs (l :: ls) q rest) :
    ∃ gap tail, cs = gap ++ tail ∧ l.start = p.after gap ∧ Scan l.start tail (l :: ls) q rest := by
  cases scan with
  | @next _ _ gap tail _ lexeme _ _ stands more =>
      have start : Blanks (lexeme.spelling ++ tail) [] := .nil
      exact ⟨gap, lexeme.spelling ++ tail, rfl, rfl, .next start stands more⟩

/-- The tokens in a row, from the text between the start of the first and the end of
the last one. -/
theorem tokenizeChars_part {cs : List Char} {before us after : List Token} {t : Token}
    {stop : Position} (lexed : tokenizeChars cs = .ok (before ++ (us ++ after), stop))
    (noDot : endsInDot false before = false) (first : us.head? = some t) :
    ∃ text us' stop', (⟨t.span.start, endOf us⟩ : Span).slice? cs = some text ∧
      tokenizeChars text = .ok (us', stop') ∧ us'.map Token.content = us.map Token.content := by
  obtain ⟨_, _, _, scan, _, made, _⟩ := tokenizeChars_eq_ok.mp lexed
  obtain ⟨ks, ms, rfl, _, back⟩ := tokensOf_append made
  rw [noDot] at back
  obtain ⟨ls, _, rfl, here, _⟩ := tokensOf_append back
  obtain ⟨_, _, front, scan⟩ := Scan.append_iff.mp scan
  obtain ⟨_, _, scan, _⟩ := Scan.append_iff.mp scan
  cases ls with
  | nil =>
      cases here
      cases first
  | cons l ls =>
      have ended : endOf us = (l :: ls).foldl (fun _ l => l.span.stop) 0 := endOf_tokensOf here
      obtain ⟨_, _, rfl, found, _⟩ := tokensOf_cons_eq_ok.mp here
      obtain rfl := Option.some.inj first
      obtain ⟨read, rfl, rfl, _⟩ := front.of_prefix
      obtain ⟨gap, _, rfl, start, scan⟩ := scan.from_first
      have offset := scan.offset_eq
      obtain ⟨text, rfl, rfl, alone⟩ := scan.of_prefix
      have whole := alone [] List.nil_prefix
      rw [List.append_nil] at whole
      obtain ⟨ls', q, moved, same⟩ := whole.rebase .first
      obtain ⟨us', made', contents⟩ := tokensOf_content same here
      have starts : l.start.offset = byteLength (read ++ gap) := by
        rw [start, ← Position.after_append, Position.offset_after]
        exact Nat.zero_add _
      refine ⟨text, us', _, ?_, tokenizeChars_eq_ok.mpr ⟨ls', q, [], moved, .nil, made', rfl⟩, contents⟩
      rw [Span.slice?_eq_some]
      refine ⟨read ++ gap, _, (List.append_assoc ..).symm, ?_, ?_⟩
      · rw [(PlacedLexeme.token_place found).1]
        exact starts
      · rw [Position.offset_after, starts] at offset
        exact ended.trans offset.symm

end Pseudocode

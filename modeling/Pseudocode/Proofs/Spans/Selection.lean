import Pseudocode.Proofs.Lexing.Part
import Pseudocode.Proofs.Derivation.Parts
import Pseudocode.Proofs.Derivation.Reading
import Pseudocode.Proofs.Spans.ErrorPlace

/-!
The text at the span of an expression.

Cut out of its source and read alone, the text at the span of a node is this node: the
tokens there are those it was read from, they are lexed in the same way without what
stands around them, and they are parsed in the same way from the top of the ladder.
An index before a comma is the only node of which this fails (`spans_select_nodes`).
-/

namespace Pseudocode

/-- The text at the span of an expression is a program: the expression, up to spans, as
its only statement. -/
def Expr.Selected (source : String) (e : Expr) : Prop :=
  ∃ text e', e.span.slice? source.toList = some text ∧
    parse (String.ofList text) = .ok ⟨[.expression e']⟩ ∧ e'.bare = e.bare

/-! ### Tokens of a text -/

theorem PlacedLexeme.token_faithful {l : PlacedLexeme} {b : Bool} {t : Token}
    (made : l.token b = .ok t) : t.Faithful := by
  cases lexeme : l.lexeme with
  | word text =>
      obtain ⟨kind, value⟩ := token_word lexeme made
      rcases wordKind_cases b text with word | ⟨k, word, same⟩ <;> rw [word] at kind
      · constructor <;> intro _ found <;> rw [kind] at found <;> cases found
      · constructor <;> intro _ found <;> rw [kind] at found <;> cases found
        rw [value, same]
  | number text =>
      obtain ⟨kind | kind, _⟩ := token_number lexeme made <;>
        constructor <;> intro _ found <;> rw [kind] at found <;> cases found
  | quoted content =>
      obtain ⟨kind, _⟩ := token_quoted lexeme made
      constructor <;> intro _ found <;> rw [kind] at found <;> cases found
  | symbol text =>
      obtain ⟨s, kind, value, _⟩ := token_symbol lexeme made
      constructor <;> intro _ found <;> rw [kind] at found <;> cases found
      exact value

theorem faithful_of_tokenizeChars {cs : List Char} {ts : List Token} {stop : Position} {t : Token}
    (lexed : tokenizeChars cs = .ok (ts, stop)) (mem : t ∈ ts) : t.Faithful := by
  obtain ⟨_, _, _, _, _, made, _⟩ := tokenizeChars_eq_ok.mp lexed
  obtain ⟨_, _, _, found⟩ := tokensOf_mem made mem
  exact PlacedLexeme.token_faithful found

/-! ### Selections -/

variable {source : String} {ts : List Token} {stop : Position} {e : Expr}

/-- An expression that was read from tokens of its own is the text at its span. -/
theorem Traced.selected (traced : Traced ts e)
    (lexed : tokenizeChars source.toList = .ok (ts, stop)) : e.Selected source := by
  obtain ⟨L, us, ⟨before, after, rfl, noDot⟩, written⟩ := traced
  have part : us.Sublist (before ++ (us ++ after)) := by simp
  obtain ⟨t, u, head, last, span⟩ := written.spanned ((inOrder_of_tokenizeChars lexed).sublist part)
  obtain ⟨text, us', stop', slice, alone, same⟩ := tokenizeChars_part lexed noDot head
  have faithful (t : Token) (mem : t ∈ us) : t.Faithful :=
    faithful_of_tokenizeChars lexed (part.subset mem)
  have ends : (Token.endOfInput stop').kind = .endOfInput := rfl
  obtain ⟨e', read, bare⟩ := ofTokens_of_written written faithful same ends
  refine ⟨text, e', ?_, ?_, bare⟩
  · rw [span, ← endOf_eq last]
    exact slice
  · unfold parse
    rw [String.toList_ofList, alone]
    exact read

/-- One text is one expression. -/
theorem Expr.Selected.unique {e' : Expr} (selected : e.Selected source)
    (selected' : e'.Selected source) (span : e'.span = e.span) : e'.bare = e.bare := by
  obtain ⟨text, x, slice, parsed, bare⟩ := selected
  obtain ⟨text', x', slice', parsed', bare'⟩ := selected'
  rw [span, slice] at slice'
  cases slice'
  rw [parsed] at parsed'
  cases parsed'
  rw [← bare, ← bare']

/-- An index is larger than its object. -/
theorem Expr.sizeOf_indexed (e : Expr) (s : Span) (is : List Expr) :
    sizeOf e.bare + is.length ≤ sizeOf (e.indexed s is).bare := by
  induction is generalizing e with
  | nil => exact Nat.le_refl _
  | cons i is ih =>
      have step : sizeOf e.bare < sizeOf (Expr.index s e i).bare := by
        rw [Expr.bare, Expr.index.sizeOf_spec]
        omega
      calc sizeOf e.bare + (is.length + 1)
          ≤ sizeOf (Expr.index s e i).bare + is.length := by omega
        _ ≤ sizeOf ((Expr.index s e i).indexed s is).bare := ih (.index s e i)

theorem Sourced.selected_iff {outer : Option Expr} {n : Expr} (sourced : Sourced ts outer n)
    (lexed : tokenizeChars source.toList = .ok (ts, stop)) :
    n.Selected source ↔ ¬ Expr.BeforeComma outer n := by
  cases sourced with
  | own traced apart => exact iff_of_true (traced.selected lexed) apart
  | @shared s more chained before some whole =>
      -- The span is that of the index with all places, which is another expression.
      refine iff_of_false (fun selected => ?_) (not_not.mpr before)
      have span : (n.indexed s more).span = n.span := by
        rw [Expr.span_indexed some, chained.span_eq]
      have same := selected.unique (whole.selected lexed) span
      have larger := n.sizeOf_indexed s more
      have count := List.length_pos_iff.mpr some
      rw [same] at larger
      omega

theorem parse_eq_ok {p : Program} (parsed : parse source = .ok p) :
    ∃ ts stop, tokenizeChars source.toList = .ok (ts, stop) ∧
      Program.ofTokens ts (.endOfInput stop) = .ok p := by
  unfold parse at parsed
  cases lexed : tokenizeChars source.toList with
  | error e =>
      rw [lexed] at parsed
      cases parsed
  | ok read =>
      rw [lexed] at parsed
      exact ⟨read.1, read.2, rfl, parsed⟩

/-- The span of a node selects a text that is this node, unless the node is an index
before a comma: then it never does. -/
theorem spans_select_nodes (source : String) (p : Program) (parsed : parse source = .ok p) :
    ∀ e ∈ p.exprs, ∀ outer n, e.HasNode outer n →
      (n.Selected source ↔ ¬ Expr.BeforeComma outer n) := by
  intro e mem outer n node
  obtain ⟨ts, stop, lexed, read⟩ := parse_eq_ok parsed
  obtain ⟨us, vs, rfl, written⟩ := written_of_ofTokens rfl read
  have traced : Traced (us ++ vs) e := (written.traced e mem).within (.first us vs)
  exact (traced.node (inOrder_of_tokenizeChars lexed) node).selected_iff lexed

/-- A product of a sum in parentheses, of which a member has a reserved word as its
name, and of an index with two places. -/
def productOfParts : String := "print((a.if + 1) * b[0, 1])"

theorem spans_select_nodes_sum :
    ∃ p e outer n, parse productOfParts = .ok p ∧ e ∈ p.exprs ∧ e.HasNode outer n ∧
      n.span = ⟨6, 16⟩ ∧ ¬ Expr.BeforeComma outer n ∧ n.Selected productOfParts := by
  have run : ((parse productOfParts).toOption.bind fun p => p.exprs[0]?.bind fun e =>
      e.parts[1]?.bind fun outer => outer.parts[0]?.map fun n => (outer.kind, n.span)) =
        some (.binary, ⟨6, 16⟩) := by
    decide +kernel
  cases parsed : parse productOfParts with
  | error problem =>
      rw [parsed] at run
      cases run
  | ok p =>
      rw [parsed] at run
      simp only [Except.toOption, Option.bind_some, Option.bind_eq_some_iff, Option.map_eq_some_iff] at run
      obtain ⟨e, first, outer, second, n, third, same⟩ := run
      obtain ⟨kind, span⟩ := Prod.mk.inj same
      have mem : e ∈ p.exprs := List.mem_of_getElem? first
      have node : e.HasNode (some outer) n :=
        .part (.part .root (List.mem_of_getElem? second)) (List.mem_of_getElem? third)
      have apart : ¬ Expr.BeforeComma (some outer) n :=
        Expr.not_beforeComma_of_kind (by rw [kind]; nofun)
      refine ⟨p, e, some outer, n, rfl, mem, node, span, apart, ?_⟩
      exact (spans_select_nodes productOfParts p parsed e mem (some outer) n node).mpr apart

/-- An index with the same span as the index around it. -/
def Expr.SharesSpan (outer : Option Expr) (n : Expr) : Prop :=
  n.kind = .index ∧ ∃ m, outer = some m ∧ m.kind = .index ∧ m.span = n.span

/-- Parentheses widen the span of an index with two places, but not that of the index
with the first place, which still goes over both places. -/
theorem commaIndex_in_parens_not_selected :
    ∃ p e outer n, parse "(a[0, 1])" = .ok p ∧ e ∈ p.exprs ∧ e.HasNode outer n ∧
      n.kind = .index ∧ n.span = ⟨1, 8⟩ ∧ ¬ Expr.SharesSpan outer n ∧
      ¬ n.Selected "(a[0, 1])" := by
  have run : ((parse "(a[0, 1])").toOption.bind fun p => p.exprs[0]?.bind fun e =>
      e.parts[0]?.map fun n => (e.span, n.kind, n.span, n.bare.parts.map Expr.kind)) =
        some (⟨0, 9⟩, .index, ⟨1, 8⟩, [.identifier, .integer]) := by
    decide +kernel
  have cut : (⟨1, 8⟩ : Span).slice? "(a[0, 1])".toList = some "a[0, 1]".toList := by decide +kernel
  have alone : ((parse "a[0, 1]").toOption.bind fun p => p.exprs[0]?.map fun e =>
      e.bare.parts.map Expr.kind) = some [.index, .integer] := by
    decide +kernel
  cases parsed : parse "(a[0, 1])" with
  | error problem =>
      rw [parsed] at run
      cases run
  | ok p =>
      rw [parsed] at run
      simp only [Except.toOption, Option.bind_some, Option.bind_eq_some_iff, Option.map_eq_some_iff,
        Prod.mk.injEq] at run
      obtain ⟨e, first, n, second, wide, kind, span, parts⟩ := run
      have node : e.HasNode (some e) n := .part .root (List.mem_of_getElem? second)
      refine ⟨p, e, some e, n, rfl, List.mem_of_getElem? first, node, kind, span, ?_, ?_⟩
      · rintro ⟨_, _, outer, _, shared⟩
        cases outer
        rw [wide, span] at shared
        cases shared
      · rintro ⟨text, e', slice, read, bare⟩
        rw [span, cut] at slice
        cases slice
        rw [String.ofList_toList] at read
        rw [read] at alone
        have object : e'.bare.parts.map Expr.kind = [.index, .integer] := Option.some.inj alone
        rw [bare, parts] at object
        cases object

end Pseudocode

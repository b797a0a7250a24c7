import Pseudocode.Proofs.Ladder

/-!
The grammar of expressions, with spans.

`Phrase.Written` relates a phrase to the tokens that are read as it, by one rule for
each form of syntax. The spans of its nodes are the merged spans of tokens and parts
that the readers compute. Of tokens in order this is the span from the start of the
first token to the end of the last one (`Phrase.Written.spanned`).
-/

namespace Pseudocode

/-- What the tokens of an expression, or of a part of one, are read as. -/
inductive Phrase where
  /-- An expression of a level of the ladder, or of a tighter one. -/
  | expr (level : Nat) (e : Expr)
  /-- Expressions with commas between them; at least one. -/
  | items (es : List Expr)
  /-- Arguments in parentheses, and the span of the closing one. -/
  | arguments (es : List Expr) (close : Span)
  /-- The name of a class, which may be dotted. -/
  | name (e : Expr)

/-- Indices into an object one after the other, all with one span. -/
def Expr.indexed (s : Span) (object : Expr) (is : List Expr) : Expr :=
  is.foldl (fun object i => .index s object i) object

inductive Phrase.Written : Phrase → List Token → Prop where
  | atom {t : Token} {e : Expr} (found : Parser.atom? t = some (.ok e)) : Written (.expr 12 e) [t]
  | parens {opening close : Token} {us : List Token} {e : Expr}
      (opens : opening.kind = .symbol .openParen) (inner : Written (.expr 0 e) us)
      (closes : close.kind = .symbol .closeParen) :
      Written (.expr 12 (e.withSpan (opening.span.merge close.span))) (opening :: (us ++ [close]))
  | create {keyword : Token} {us vs : List Token} {classExpr : Expr} {args : List Expr} {close : Span}
      (new : keyword.kind = .keyword .new) (named : Written (.name classExpr) us)
      (given : Written (.arguments args close) vs) :
      Written (.expr 12 (.create (keyword.span.merge close) classExpr args)) (keyword :: (us ++ vs))
  | member {us : List Token} {object : Expr} {dot field : Token} (inner : Written (.expr 11 object) us)
      (dotted : dot.kind = .symbol .dot) (named : field.kind = .identifier) :
      Written (.expr 11 (.member (object.span.merge field.span) object field.value))
        (us ++ [dot, field])
  | index {us vs : List Token} {object : Expr} {is : List Expr} {opening close : Token}
      (inner : Written (.expr 11 object) us) (opens : opening.kind = .symbol .openSquare)
      (places : Written (.items is) vs) (closes : close.kind = .symbol .closeSquare) :
      Written (.expr 11 (object.indexed (object.span.merge close.span) is))
        (us ++ opening :: (vs ++ [close]))
  | call {us vs : List Token} {callee : Expr} {args : List Expr} {close : Span}
      (inner : Written (.expr 11 callee) us) (given : Written (.arguments args close) vs) :
      Written (.expr 11 (.call (callee.span.merge close) callee args)) (us ++ vs)
  | sign {operator : Token} {us : List Token} {op : UnaryOp} {operand : Expr}
      (sign : Parser.sign? operator.kind = some op) (inner : Written (.expr 9 operand) us) :
      Written (.expr 9 (.unary (operator.span.merge operand.span) op operand)) (operator :: us)
  | not {operator : Token} {us : List Token} {operand : Expr}
      (negates : operator.kind = .keyword .not ∨ operator.kind = .symbol .bang)
      (inner : Written (.expr 8 operand) us) :
      Written (.expr 8 (.unary (operator.span.merge operand.span) .not operand)) (operator :: us)
  | binary {us vs : List Token} {operator : Token} {op : BinaryOp} {left right : Expr}
      (first : Written (.expr op.level left) us) (operates : operator.kind = op.piece.kind)
      (second : Written (.expr (op.level + 1) right) vs) :
      Written (.expr op.level (.binary (left.span.merge right.span) op left right))
        (us ++ operator :: vs)
  | range {us vs : List Token} {keyword : Token} {start stop : Expr} (first : Written (.expr 2 start) us)
      (leads : keyword.kind = .keyword .to_) (second : Written (.expr 2 stop) vs) :
      Written (.expr 1 (.range (start.span.merge stop.span) start stop)) (us ++ keyword :: vs)
  | assign {us vs : List Token} {equals : Token} {target value : Expr}
      (left : Written (.expr 1 target) us) (assigns : equals.kind = .symbol .equals)
      (allowed : target.isTarget = true) (right : Written (.expr 0 value) vs) :
      Written (.expr 0 (.assign (target.span.merge value.span) target value)) (us ++ equals :: vs)
  /-- Where some level is asked for, tighter ones may stand. -/
  | loosen {L M : Nat} {us : List Token} {e : Expr} (tighter : L ≤ M)
      (inner : Written (.expr M e) us) : Written (.expr L e) us
  | item {us : List Token} {e : Expr} (only : Written (.expr 0 e) us) : Written (.items [e]) us
  | cons {us vs : List Token} {comma : Token} {e : Expr} {es : List Expr}
      (first : Written (.expr 0 e) us) (parts : comma.kind = .symbol .comma)
      (rest : Written (.items es) vs) : Written (.items (e :: es)) (us ++ comma :: vs)
  | noArguments {opening close : Token} (opens : opening.kind = .symbol .openParen)
      (closes : close.kind = .symbol .closeParen) : Written (.arguments [] close.span) [opening, close]
  | arguments {opening close : Token} {us : List Token} {es : List Expr}
      (opens : opening.kind = .symbol .openParen) (given : Written (.items es) us)
      (closes : close.kind = .symbol .closeParen) :
      Written (.arguments es close.span) (opening :: (us ++ [close]))
  | name {t : Token} (named : t.kind = .identifier) :
      Written (.name (.identifier t.span t.value)) [t]
  | dotted {us : List Token} {object : Expr} {dot field : Token} (inner : Written (.name object) us)
      (dotted : dot.kind = .symbol .dot) (named : field.kind = .identifier) :
      Written (.name (.member (object.span.merge field.span) object field.value)) (us ++ [dot, field])

/-- A literal or name, with the span of its token. -/
theorem Parser.form_of_atom? {t : Token} {e : Expr} (found : atom? t = some (.ok e)) :
    (∃ name, e = .identifier t.span name) ∨ (∃ value, e = .integer t.span value) ∨
      (∃ value, e = .float t.span value) ∨ (∃ value, e = .text t.span value) ∨ e = .null t.span := by
  unfold atom? at found
  split at found
  · cases found
    exact .inl ⟨_, rfl⟩
  · split at found <;> cases found
    exact .inr (.inl ⟨_, rfl⟩)
  · split at found <;> cases found
    exact .inr (.inr (.inl ⟨_, rfl⟩))
  · cases found
    exact .inr (.inr (.inr (.inl ⟨_, rfl⟩)))
  · cases found
    exact .inr (.inr (.inr (.inr rfl)))
  · cases found

theorem Parser.span_of_atom? {t : Token} {e : Expr} (found : atom? t = some (.ok e)) :
    e.span = t.span := by
  rcases form_of_atom? found with ⟨_, rfl⟩ | ⟨_, rfl⟩ | ⟨_, rfl⟩ | ⟨_, rfl⟩ | rfl <;> rfl

theorem Phrase.Written.items_ne_nil {es : List Expr} {us : List Token}
    (written : (Phrase.items es).Written us) : es ≠ [] := by
  cases written <;> exact List.cons_ne_nil _ _

/-! ### Rows of tokens -/

/-- Tokens that stand one after the other. -/
structure InOrder (ts : List Token) : Prop where
  apart : ts.Pairwise fun t u => t.span.stop ≤ u.span.start
  each : ∀ t ∈ ts, t.span.start < t.span.stop

theorem InOrder.sublist {us ts : List Token} (ordered : InOrder ts) (part : us.Sublist ts) :
    InOrder us :=
  ⟨ordered.apart.sublist part, fun t mem => ordered.each t (part.subset mem)⟩

/-- The span from the start of the first token to the end of the last one. -/
def Spans (ts : List Token) (s : Span) : Prop :=
  ∃ t u, ts.head? = some t ∧ ts.getLast? = some u ∧ s = ⟨t.span.start, u.span.stop⟩

namespace Spans

variable {us mid vs : List Token} {a b : Span}

theorem single (t : Token) : Spans [t] t.span := ⟨t, t, rfl, rfl, rfl⟩

/-- Of two tokens in order the first one starts and ends before the other. -/
theorem before {ts : List Token} (ordered : InOrder (us ++ ts)) {t u : Token} (mem : t ∈ us)
    (mem' : u ∈ ts) :
    t.span.start < t.span.stop ∧ t.span.stop ≤ u.span.start ∧ u.span.start < u.span.stop :=
  ⟨ordered.each t (List.mem_append_left _ mem), (List.pairwise_append.mp ordered.apart).2.2 t mem u mem',
    ordered.each u (List.mem_append_right _ mem')⟩

/-- The merged span of the first and the last part of a row is that of the row. -/
theorem merge (us mid vs : List Token) (ordered : InOrder (us ++ (mid ++ vs))) (first : Spans us a) (last : Spans vs b) :
    Spans (us ++ (mid ++ vs)) (a.merge b) := by
  obtain ⟨t, t', head, end_, rfl⟩ := first
  obtain ⟨u, u', head', end', rfl⟩ := last
  have starts := before ordered (List.mem_of_mem_head? head)
    (List.mem_append_right mid (List.mem_of_mem_head? head'))
  have stops := before ordered (List.mem_of_mem_getLast? end_)
    (List.mem_append_right mid (List.mem_of_mem_getLast? end'))
  refine ⟨t, u', ?_, ?_, ?_⟩
  · rw [List.head?_append, head, Option.some_or]
  · rw [List.getLast?_append, List.getLast?_append, end', Option.some_or, Option.some_or]
  · simp only [Span.merge, Span.mk.injEq]
    omega

end Spans

theorem Expr.span_indexed {s : Span} {object : Expr} {is : List Expr} (some : is ≠ []) :
    (object.indexed s is).span = s := by
  obtain ⟨init, last, rfl⟩ := List.eq_nil_or_concat is |>.resolve_left some
  simp [Expr.indexed, List.foldl_append, Expr.span]

/-! ### Spans -/

/-- The span that a phrase gives to its row of tokens. -/
def Phrase.Spanned : Phrase → List Token → Prop
  | .expr _ e, us => Spans us e.span
  | .items _, _ => True
  | .arguments _ close, us => ∃ mid last, us = mid ++ [last] ∧ last.span = close
  | .name e, us => Spans us e.span

/-- Merged spans are those of the whole row. -/
theorem Phrase.Written.spanned {p : Phrase} {us : List Token} (written : p.Written us)
    (ordered : InOrder us) : p.Spanned us := by
  induction written with
  | @atom t e found =>
      rw [Phrase.Spanned, Parser.span_of_atom? found]
      exact .single t
  | @parens opening close us e _ _ _ _ =>
      rw [Phrase.Spanned, Expr.span_withSpan]
      exact Spans.merge [opening] us [close] ordered (.single opening) (.single close)
  | @create keyword us vs _ _ _ _ named given ih ih' =>
      obtain ⟨mid, last, rfl, rfl⟩ := ih' (ordered.sublist (by simp))
      have whole : keyword :: (us ++ (mid ++ [last])) = [keyword] ++ ((us ++ mid) ++ [last]) := by simp
      rw [whole] at ordered ⊢
      exact Spans.merge [keyword] (us ++ mid) [last] ordered (.single keyword) (.single last)
  | @member us object dot field _ _ _ ih =>
      exact Spans.merge us [dot] [field] ordered (ih (ordered.sublist (by simp))) (.single field)
  | @index us vs object is opening close _ _ places _ ih _ =>
      rw [Phrase.Spanned, Expr.span_indexed places.items_ne_nil]
      exact Spans.merge us (opening :: vs) [close] ordered (ih (ordered.sublist (by simp))) (.single close)
  | @call us vs callee args close _ given ih ih' =>
      obtain ⟨mid, last, rfl, rfl⟩ := ih' (ordered.sublist (by simp))
      exact Spans.merge us mid [last] ordered (ih (ordered.sublist (by simp))) (.single last)
  | @sign operator us op operand _ _ ih =>
      exact Spans.merge [operator] [] us ordered (.single operator)
        (ih (ordered.sublist (by simp)))
  | @not operator us operand _ _ ih =>
      exact Spans.merge [operator] [] us ordered (.single operator)
        (ih (ordered.sublist (by simp)))
  | @binary us vs operator op left right _ _ _ ih ih' =>
      exact Spans.merge us [operator] vs ordered (ih (ordered.sublist (by simp)))
        (ih' (ordered.sublist (by simp)))
  | @range us vs keyword start stop _ _ _ ih ih' =>
      exact Spans.merge us [keyword] vs ordered (ih (ordered.sublist (by simp)))
        (ih' (ordered.sublist (by simp)))
  | @assign us vs equals target value _ _ _ _ ih ih' =>
      exact Spans.merge us [equals] vs ordered (ih (ordered.sublist (by simp)))
        (ih' (ordered.sublist (by simp)))
  | loosen _ _ ih => exact ih ordered
  | item _ _ => trivial
  | cons _ _ _ _ _ => trivial
  | @noArguments opening close _ _ => exact ⟨[opening], close, rfl, rfl⟩
  | @arguments opening close us _ _ _ _ _ => exact ⟨opening :: us, close, rfl, rfl⟩
  | @name t _ => exact .single t
  | @dotted us object dot field _ _ _ ih =>
      exact Spans.merge us [dot] [field] ordered (ih (ordered.sublist (by simp))) (.single field)

end Pseudocode

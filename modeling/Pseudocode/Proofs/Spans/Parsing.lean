import Pseudocode.Proofs.Parsed.Expression
import Pseudocode.Proofs.Spans.Syntax

/-!
Parsers look at the kinds and values of tokens only.

Two rows of tokens agree when they have the same kinds and values and their spans
are related. Read by one parser they lead to syntax that agrees, or to errors with
the same message at related places, if the relation is kept by merging spans. Every
parser has one lemma that says so, put together from those of its parts.
-/

namespace Pseudocode

variable {τ : Span → Span → Prop}

/-- The relation is kept when spans are merged. -/
def Merges (τ : Span → Span → Prop) : Prop :=
  ∀ {a b a' b' : Span}, τ a a' → τ b b' → τ (a.merge b) (a'.merge b')

structure Token.Agree (τ : Span → Span → Prop) (t t' : Token) : Prop where
  kind : t'.kind = t.kind
  value : t'.value = t.value
  placed : τ t.span t'.span

theorem Token.Agree.describe {t t' : Token} (agree : t.Agree τ t') : t'.describe = t.describe := by
  unfold Token.describe
  rw [agree.kind, agree.value]

structure Cursor.Agree (τ : Span → Span → Prop) (c c' : Cursor) : Prop where
  next : c.next.Agree τ c'.next
  rest : List.Forall₂ (Token.Agree τ) c.rest c'.rest

theorem Cursor.Agree.advance {c c' : Cursor} (agree : c.Agree τ c') :
    c.advance.Agree τ c'.advance := by
  obtain ⟨t, ts⟩ := c
  obtain ⟨t', ts'⟩ := c'
  obtain ⟨next, rest⟩ := agree
  cases rest with
  | nil => exact ⟨next, .nil⟩
  | cons first others => exact ⟨first, others⟩

structure SyntaxError.Agree (τ : Span → Span → Prop) (e e' : SyntaxError) : Prop where
  message : e'.message = e.message
  placed : τ e.span e'.span

namespace Parser

variable {α α' β β' : Type}

/-- The results are related, and what is left to be read agrees. -/
inductive Ends (τ : Span → Span → Prop) (R : α → α' → Prop) :
    Except SyntaxError (α × Cursor) → Except SyntaxError (α' × Cursor) → Prop where
  | ok {a : α} {a' : α'} {c c' : Cursor} (related : R a a') (left : c.Agree τ c') :
      Ends τ R (.ok (a, c)) (.ok (a', c'))
  | error {e e' : SyntaxError} (agree : e.Agree τ e') : Ends τ R (.error e) (.error e')

/-- On tokens that agree the parsers have related results. -/
def Agree (τ : Span → Span → Prop) (R : α → α' → Prop) (p : Parser α) (p' : Parser α') : Prop :=
  ∀ c c', c.Agree τ c' → Ends τ R (p c) (p' c')

/-- Atoms that agree, or the same problem. -/
inductive Atoms (τ : Span → Span → Prop) :
    Option (Except SyntaxProblem Expr) → Option (Except SyntaxProblem Expr) → Prop where
  | none : Atoms τ none none
  | ok {e e' : Expr} (same : e.Agree τ e') : Atoms τ (some (.ok e)) (some (.ok e'))
  | error (problem : SyntaxProblem) : Atoms τ (some (.error problem)) (some (.error problem))

namespace Agree

variable {R : α → α' → Prop} {S : β → β' → Prop}

/-! ### Single tokens -/

theorem pure {a : α} {a' : α'} (related : R a a') : Agree τ R (Pure.pure a) (Pure.pure a') :=
  fun _ _ agree => .ok related agree

theorem throw {e e' : SyntaxError} (agree : e.Agree τ e') :
    Agree τ R (throw e : Parser α) (throw e' : Parser α') :=
  fun _ _ _ => .error agree

theorem bind {p : Parser α} {p' : Parser α'} {f : α → Parser β} {f' : α' → Parser β'}
    (first : Agree τ R p p') (second : ∀ a a', R a a' → Agree τ S (f a) (f' a')) :
    Agree τ S (p >>= f) (p' >>= f') := by
  intro c c' agree
  have ends := first c c' agree
  rw [bind_apply, bind_apply]
  generalize p c = x at ends ⊢
  generalize p' c' = x' at ends ⊢
  cases ends with
  | ok related left => exact second _ _ related _ _ left
  | error problem => exact .error problem

theorem peek : Agree τ (Token.Agree τ) peek peek :=
  fun _ _ agree => .ok agree.next agree

theorem eat : Agree τ (Token.Agree τ) eat eat :=
  fun _ _ agree => .ok agree.next agree.advance

theorem nextIs (kind : TokenKind) : Agree τ Eq (nextIs kind) (nextIs kind) := by
  intro c c' agree
  exact .ok (by rw [agree.next.kind]) agree

/-- A problem whose wording depends on the kind and value of the token only. -/
theorem fail {problem : Token → SyntaxProblem}
    (wording : ∀ t t' : Token, t.Agree τ t' → (problem t').message = (problem t).message) :
    Agree τ R (fail problem : Parser α) (Parser.fail problem : Parser α') := by
  intro c c' agree
  exact .error ⟨wording _ _ agree.next, agree.next.placed⟩

theorem exhausted : Agree τ R (exhausted : Parser α) (Parser.exhausted : Parser α') :=
  fail fun _ _ _ => rfl

/-- What depends on whether the next token is of some kind. -/
theorem ifNextIs (kind : TokenKind) {yes no : Parser α} {yes' no' : Parser α'}
    (positive : Agree τ R yes yes') (negative : Agree τ R no no') :
    Agree τ R (Parser.nextIs kind >>= fun b => if b then yes else no)
      (Parser.nextIs kind >>= fun b => if b then yes' else no') := by
  refine bind (nextIs kind) ?_
  rintro b _ rfl
  cases b with
  | true => exact positive
  | false => exact negative

/-- A problem with a token that its message describes. -/
theorem describes {problem : Token → SyntaxProblem} (wording : TokenKind → String → String)
    (worded : ∀ t, (problem t).message = wording t.kind t.describe) :
    Agree τ R (Parser.fail problem : Parser α) (Parser.fail problem : Parser α') := by
  refine fail ?_
  intro t t' agree
  rw [worded, worded, agree.kind, agree.describe]

theorem expect (kind : TokenKind) : Agree τ (Token.Agree τ) (expect kind) (expect kind) := by
  have missing : Agree τ (Token.Agree τ) (Parser.fail (.expectedToken kind) : Parser Token)
      (Parser.fail (.expectedToken kind)) :=
    describes (fun _ d => "expected " ++ kind.describe ++ ", found " ++ d) fun _ => rfl
  exact ifNextIs kind eat missing

theorem commaSeparated {item : Parser α} {item' : Parser α'} (each : Agree τ R item item')
    (bound : Nat) :
    Agree τ (List.Forall₂ R) (commaSeparated item bound) (commaSeparated item' bound) := by
  induction bound with
  | zero => exact exhausted
  | succ bound ih =>
      refine bind each fun x x' same => ifNextIs _ ?_ (pure (.cons same .nil))
      refine bind eat fun _ _ _ => bind ih fun xs xs' rest => ?_
      exact pure (.cons same rest)

/-! ### Expressions -/

section Expressions

variable (merges : Merges τ) {sub : Parser Expr} (nested : Agree τ (Expr.Agree τ) sub sub)

include nested in
theorem arguments (bound : Nat) :
    Agree τ (fun x x' => List.Forall₂ (Expr.Agree τ) x.1 x'.1 ∧ τ x.2 x'.2)
      (arguments sub bound) (arguments sub bound) := by
  have close {args args' : List Expr} (same : List.Forall₂ (Expr.Agree τ) args args') :
      Agree τ (fun x x' => List.Forall₂ (Expr.Agree τ) x.1 x'.1 ∧ τ x.2 x'.2)
        (Parser.expect (.symbol .closeParen) >>= fun t => Pure.pure (args, t.span))
        (Parser.expect (.symbol .closeParen) >>= fun t => Pure.pure (args', t.span)) :=
    bind (expect _) fun t t' closing => pure ⟨same, closing.placed⟩
  refine bind (expect _) fun _ _ _ => ifNextIs _ ?_ ?_
  · exact bind (pure .nil) fun _ _ same => close same
  · exact bind (commaSeparated nested bound) fun _ _ same => close same

include merges in
theorem dotted (bound : Nat) {e e' : Expr} (same : e.Agree τ e') :
    Agree τ (Expr.Agree τ) (dotted bound e) (dotted bound e') := by
  induction bound generalizing e e' with
  | zero => exact exhausted
  | succ bound ih =>
      refine ifNextIs _ ?_ (pure same)
      refine bind eat fun _ _ _ => bind (expect _) fun field field' named => ?_
      rw [named.value]
      exact ih (.member (merges same.span named.placed) same field.value)

include merges nested

theorem creation (bound : Nat) :
    Agree τ (Expr.Agree τ) (creation sub bound) (creation sub bound) := by
  refine bind eat fun keyword keyword' opening => bind (expect _) fun name name' named => ?_
  rw [named.value]
  refine bind (dotted merges bound (.identifier named.placed _)) fun c c' created => ?_
  refine bind (arguments nested bound) fun args args' given => ?_
  exact pure (.create (merges opening.placed given.2) created given.1)

theorem parenthesised : Agree τ (Expr.Agree τ) (parenthesised sub) (parenthesised sub) := by
  refine bind eat fun _ _ opening => bind nested fun _ _ inner => bind (expect _) fun _ _ closing => ?_
  exact pure (inner.withSpan (merges opening.placed closing.placed))

omit merges nested in
theorem atom? {t t' : Token} (same : t.Agree τ t') : Atoms τ (atom? t) (atom? t') := by
  obtain ⟨kind, value, placed⟩ := same
  unfold Parser.atom?
  rw [kind, value]
  split
  · exact .ok (.identifier placed _)
  · cases Integer.parse? t.value.toList with
    | none => exact .error _
    | some n => exact .ok (.integer placed n)
  · cases Decimal.parseDouble? t.value.toList with
    | none => exact .error _
    | some x => exact .ok (.float placed x)
  · exact .ok (.text placed _)
  · exact .ok (.null placed)
  · exact .none

theorem primary (bound : Nat) : Agree τ (Expr.Agree τ) (primary sub bound) (primary sub bound) := by
  refine bind peek fun t t' same => ?_
  have atoms := atom? same
  generalize Parser.atom? t = x at atoms
  generalize Parser.atom? t' = x' at atoms
  cases atoms with
  | ok e => exact bind eat fun _ _ _ => pure e
  | error problem => exact fail fun _ _ _ => rfl
  | none =>
      dsimp only
      rw [same.kind]
      split
      · exact parenthesised merges nested
      · exact creation merges nested bound
      · exact describes (fun _ d => "expected an expression, found " ++ d) fun _ => rfl

omit merges nested in
theorem indices {s s' : Span} (placed : τ s s') {is is' : List Expr}
    (same : List.Forall₂ (Expr.Agree τ) is is') {e e' : Expr} (inner : e.Agree τ e') :
    (is.foldl (fun object i => .index s object i) e).Agree τ
      (is'.foldl (fun object i => .index s' object i) e') := by
  induction same generalizing e e' with
  | nil => exact inner
  | cons first _ ih => exact ih (.index placed inner first)

theorem suffixes (bound : Nat) {e e' : Expr} (same : e.Agree τ e') :
    Agree τ (Expr.Agree τ) (suffixes sub bound e) (suffixes sub bound e') := by
  induction bound generalizing e e' with
  | zero => exact exhausted
  | succ bound ih =>
      refine bind peek fun t t' next => ?_
      rw [next.kind]
      split
      · refine bind eat fun _ _ _ => bind (expect _) fun field field' named => ?_
        rw [named.value]
        exact ih (.member (merges same.span named.placed) same field.value)
      · refine bind eat fun _ _ _ => bind (commaSeparated nested bound) fun is is' given => ?_
        refine bind (expect _) fun close close' closing => ?_
        exact ih (indices (merges same.span closing.placed) given same)
      · refine bind (arguments nested bound) fun args args' given => ?_
        exact ih (.call (merges same.span given.2) same given.1)
      · exact pure same

theorem callOrMember (bound : Nat) :
    Agree τ (Expr.Agree τ) (callOrMember sub bound) (callOrMember sub bound) :=
  bind (primary merges nested bound) fun _ _ same => suffixes merges nested bound same

theorem signs (bound : Nat) : Agree τ (Expr.Agree τ) (signs sub bound) (signs sub bound) := by
  induction bound with
  | zero => exact exhausted
  | succ bound ih =>
      refine bind peek fun t t' next => ?_
      rw [next.kind]
      split
      · refine bind eat fun _ _ operator => bind ih fun _ _ operand => ?_
        exact pure (.unary _ (merges operator.placed operand.span) operand)
      · exact callOrMember merges nested bound

theorem negation (bound : Nat) :
    Agree τ (Expr.Agree τ) (negation sub bound) (negation sub bound) := by
  induction bound with
  | zero => exact exhausted
  | succ bound ih =>
      refine bind peek fun t t' next => ?_
      rw [next.kind]
      split
      · refine bind eat fun _ _ operator => bind ih fun _ _ operand => ?_
        exact pure (.unary .not (merges operator.placed operand.span) operand)
      · exact signs merges nested bound

omit nested in
theorem chain (level : Level) {operand : Parser Expr}
    (each : Agree τ (Expr.Agree τ) operand operand) (bound : Nat) {e e' : Expr} (same : e.Agree τ e') :
    Agree τ (Expr.Agree τ) (chain level operand bound e) (chain level operand bound e') := by
  induction bound generalizing e e' with
  | zero => exact exhausted
  | succ bound ih =>
      refine bind peek fun t t' next => ?_
      rw [next.kind]
      split
      · exact pure same
      · refine bind eat fun _ _ _ => bind each fun r r' right => ?_
        exact ih (.binary _ (merges same.span right.span) same right)

theorem operators (bound : Nat) (levels : List Level) :
    Agree τ (Expr.Agree τ) (operators sub bound levels) (operators sub bound levels) := by
  induction levels with
  | nil => exact negation merges nested bound
  | cons level tighter ih => exact bind ih fun _ _ left => chain merges level ih bound left

theorem range (bound : Nat) : Agree τ (Expr.Agree τ) (range sub bound) (range sub bound) := by
  refine bind (operators merges nested bound _) fun _ _ first => ifNextIs _ ?_ (pure first)
  refine bind eat fun _ _ _ => bind (operators merges nested bound _) fun _ _ last => ?_
  exact pure (.range (merges first.span last.span) first last)

theorem assignment (bound : Nat) :
    Agree τ (Expr.Agree τ) (assignment sub bound) (assignment sub bound) := by
  induction bound with
  | zero => exact exhausted
  | succ bound ih =>
      refine bind (range merges nested bound) fun _ _ left => ifNextIs _ ?_ (pure left)
      refine bind eat fun _ _ _ => ?_
      rw [left.isTarget]
      split
      · exact bind ih fun _ _ right => pure (.assign (merges left.span right.span) left right)
      · exact throw ⟨rfl, left.span⟩

end Expressions

variable (merges : Merges τ)
include merges

theorem expression (depth : Nat) :
    Agree τ (Expr.Agree τ) (expression depth) (expression depth) := by
  induction depth with
  | zero => exact exhausted
  | succ depth ih => exact assignment merges ih (depth + 1)

theorem loopBound (depth : Nat) : Agree τ (Expr.Agree τ) (bound depth) (bound depth) :=
  operators merges (expression merges depth) depth _

/-! ### Statements -/

omit merges in
theorem message_unclosed {t t' : Token} (same : t.Agree τ t') (closers : List Keyword) :
    (SyntaxProblem.unclosedBlock closers t').message =
      (SyntaxProblem.unclosedBlock closers t).message := by
  unfold SyntaxProblem.message
  dsimp only
  rw [same.kind, same.describe]

theorem declaration (depth : Nat) :
    Agree τ (Stmt.Agree τ) (declaration depth) (declaration depth) := by
  refine bind eat fun _ _ opening => bind (expect _) fun name name' named => ?_
  refine bind (expect _) fun _ _ _ => bind (expression merges depth) fun _ _ value => ?_
  rw [named.value]
  exact pure (.declare _ (merges opening.placed value.span) value)

theorem arrayDeclaration (depth : Nat) :
    Agree τ (Stmt.Agree τ) (arrayDeclaration depth) (arrayDeclaration depth) := by
  refine bind eat fun _ _ opening => bind (expect _) fun name name' named => ?_
  refine bind (expect _) fun _ _ _ => bind (commaSeparated (expression merges depth) depth) ?_
  refine fun _ _ sizes => bind (expect _) fun _ _ closing => ?_
  rw [named.value]
  exact pure (.array _ (merges opening.placed closing.placed) sizes)

theorem returnStatement (depth : Nat) :
    Agree τ (Stmt.Agree τ) (returnStatement depth) (returnStatement depth) := by
  refine bind eat fun _ _ opening => bind peek fun t t' next => ?_
  rw [next.kind]
  split
  · exact pure (.giveBack opening.placed .none)
  · refine bind (expression merges depth) fun _ _ value => ?_
    exact pure (.giveBack (merges opening.placed value.span) (.some value))

omit merges in
theorem parameters (name : String) (bound : Nat) (earlier : List String) :
    Agree τ Eq (parameters name bound earlier) (parameters name bound earlier) := by
  induction bound generalizing earlier with
  | zero => exact exhausted
  | succ bound ih =>
      refine bind (expect _) fun t t' named => ?_
      rw [named.value]
      split
      · exact throw ⟨rfl, named.placed⟩
      · refine ifNextIs _ ?_ (pure rfl)
        exact bind eat fun _ _ _ => ih _

omit merges in
theorem routineName : Agree τ Eq routineName routineName := by
  refine ifNextIs _ ?_ ?_
  · exact bind eat fun _ _ named => pure named.value.symm
  · exact bind (expect _) fun _ _ named => pure named.value.symm

section Blocks

/-- Blocks read after openers that agree. -/
def Blocks (τ : Span → Span → Prop) (block : BlockParser) : Prop :=
  ∀ closers t t', Token.Agree τ t t' →
    Agree τ (List.Forall₂ (Stmt.Agree τ)) (block closers t) (block closers t')

variable {block : BlockParser} (blocks : Blocks τ block) (depth : Nat)
include blocks

theorem routine : Agree τ (RoutineDecl.Agree τ) (routine block depth) (routine block depth) := by
  refine bind eat fun keyword keyword' opening => ?_
  rw [opening.kind]
  generalize (if keyword.kind = .keyword .function then (RoutineKind.function, Keyword.endFunction)
    else (.procedure, .endProcedure)) = form
  obtain ⟨kind, closer⟩ := form
  refine bind routineName ?_
  rintro name _ rfl
  have rest {params params' : List String} (same : params = params') :
      Agree τ (RoutineDecl.Agree τ)
        (do
          let _ ← Parser.expect (.symbol .closeParen)
          let body ← block [closer] keyword
          let close ← Parser.expect (.keyword closer)
          return ⟨kind, name, params, body, keyword.span.merge close.span⟩)
        (do
          let _ ← Parser.expect (.symbol .closeParen)
          let body ← block [closer] keyword'
          let close ← Parser.expect (.keyword closer)
          return ⟨kind, name, params', body, keyword'.span.merge close.span⟩) := by
    subst same
    refine bind (expect _) fun _ _ _ => bind (blocks _ _ _ opening) fun _ _ body => ?_
    refine bind (expect _) fun _ _ closing => ?_
    exact pure (.decl kind name params body (merges opening.placed closing.placed))
  refine bind (expect _) fun _ _ _ => ifNextIs _ ?_ ?_
  · exact bind (pure rfl) fun _ _ same => rest same
  · exact bind (parameters name depth []) fun _ _ same => rest same

theorem member (visibility : Visibility) {modifier modifier' : Token}
    (same : modifier.Agree τ modifier') :
    Agree τ (fun m m' => m.Agree τ m' ∧ τ m.span m'.span) (member block depth visibility modifier)
      (member block depth visibility modifier') := by
  have method : Agree τ (fun m m' : Member => m.Agree τ m' ∧ τ m.span m'.span)
      (Parser.routine block depth >>= fun decl =>
        Pure.pure (.method visibility (modifier.span.merge decl.span) decl))
      (Parser.routine block depth >>= fun decl =>
        Pure.pure (.method visibility (modifier'.span.merge decl.span) decl)) := by
    refine bind (routine merges blocks depth) fun _ _ decl => pure ?_
    have placed := decl
    cases decl with
    | decl _ _ _ _ at_ => exact ⟨.method visibility _ _ placed, merges same.placed at_⟩
  refine bind peek fun t t' next => ?_
  rw [next.kind]
  split
  · exact method
  · exact method
  · refine bind eat fun _ _ named => ?_
    rw [named.value]
    exact pure ⟨.field visibility _ _ _, merges same.placed named.placed⟩
  · exact describes
      (fun _ d => "expected an attribute name or a function/procedure, found " ++ d) fun _ => rfl

omit merges blocks in
theorem any_name {ms ms' : List Member} (same : List.Forall₂ (Member.Agree τ) ms ms') (name : String) :
    (ms'.any fun e => e.name == name) = ms.any fun e => e.name == name := by
  induction same with
  | nil => rfl
  | cons first _ ih => rw [List.any_cons, List.any_cons, first.name, ih]

theorem members {keyword keyword' : Token} (className : String) (bound : Nat)
    {earlier earlier' : List Member} (before : List.Forall₂ (Member.Agree τ) earlier earlier') :
    Agree τ (List.Forall₂ (Member.Agree τ)) (members block depth keyword className bound earlier)
      (members block depth keyword' className bound earlier') := by
  induction bound generalizing earlier earlier' with
  | zero => exact exhausted
  | succ bound ih =>
      refine bind peek fun modifier modifier' next => ?_
      rw [next.kind]
      split
      · refine bind eat fun _ _ _ => bind (member merges blocks depth _ next) fun m m' ⟨same, placed⟩ => ?_
        rw [same.name, any_name before]
        split
        · exact throw ⟨rfl, placed⟩
        · exact ih (List.rel_append before (.cons same .nil))
      · split
        · exact pure before
        · split
          · exact throw ⟨message_unclosed next _, next.placed⟩
          · exact describes
              (fun _ d => "expected `public` or `private` before a class member, found " ++ d) fun _ => rfl

theorem classDeclaration :
    Agree τ (Stmt.Agree τ) (classDeclaration block depth) (classDeclaration block depth) := by
  refine bind eat fun keyword keyword' opening => bind (expect _) fun name name' named => ?_
  rw [named.value]
  have rest {parent parent' : Option (String × Span)}
      (above : Option.Rel (fun p p' => p'.1 = p.1 ∧ τ p.2 p'.2) parent parent') :
      Agree τ (Stmt.Agree τ)
        (do
          let ms ← Parser.members block depth keyword name.value depth []
          let close ← Parser.expect (.keyword .endClass)
          return .classDecl ⟨name.value, parent, ms, keyword.span.merge close.span⟩)
        (do
          let ms ← Parser.members block depth keyword' name.value depth []
          let close ← Parser.expect (.keyword .endClass)
          return .classDecl ⟨name.value, parent', ms, keyword'.span.merge close.span⟩) := by
    refine bind (members merges blocks depth _ depth .nil) fun _ _ inside => ?_
    refine bind (expect _) fun _ _ closing => ?_
    exact pure (.classDecl (.decl _ above inside (merges opening.placed closing.placed)))
  refine ifNextIs _ ?_ ?_
  · refine bind eat fun _ _ _ => bind (expect _) fun _ _ parent => ?_
    exact bind (pure (.some ⟨parent.value, parent.placed⟩)) fun _ _ above => rest above
  · exact bind (pure .none) fun _ _ above => rest above

theorem conditional (bound : Nat) {keyword keyword' : Token} (opening : keyword.Agree τ keyword') :
    Agree τ (Stmt.Agree τ) (conditional block depth bound keyword)
      (conditional block depth bound keyword') := by
  induction bound generalizing keyword keyword' with
  | zero => exact exhausted
  | succ bound ih =>
      refine bind (expression merges depth) fun _ _ test => bind (expect _) fun _ _ _ => ?_
      refine bind (blocks _ _ _ opening) fun _ _ yes => bind peek fun _ _ next => ?_
      rw [next.kind]
      split
      · refine bind eat fun _ _ again => bind (ih again) fun _ _ inner => ?_
        exact pure (.either test yes (.cons inner .nil))
      · refine bind eat fun _ _ otherwise => bind (blocks _ _ _ otherwise) fun _ _ no => ?_
        exact bind (expect _) fun _ _ _ => pure (.either test yes no)
      · exact bind (expect _) fun _ _ _ => pure (.once test yes)

theorem arms {keyword keyword' : Token} (bound : Nat) {earlier earlier' : List Case}
    (before : List.Forall₂ (Case.Agree τ) earlier earlier') :
    Agree τ (List.Forall₂ (Case.Agree τ)) (arms block depth keyword bound earlier)
      (arms block depth keyword' bound earlier') := by
  induction bound generalizing earlier earlier' with
  | zero => exact exhausted
  | succ bound ih =>
      refine bind peek fun t t' next => ?_
      rw [next.kind]
      split
      · refine bind eat fun _ _ opener => bind (expression merges depth) fun _ _ test => ?_
        refine bind (expect _) fun _ _ _ => bind (blocks _ _ _ opener) fun _ _ body => ?_
        exact ih (List.rel_append before (.cons (.arm (.some test) body) .nil))
      · refine bind eat fun _ _ opener => bind (expect _) fun _ _ _ => ?_
        refine bind (blocks _ _ _ opener) fun _ _ body => ?_
        exact ih (List.rel_append before (.cons (.arm .none body) .nil))
      · exact bind eat fun _ _ _ => pure before
      · exact throw ⟨message_unclosed next _, next.placed⟩
      · exact describes (fun _ d => "expected `case`, `default` or `endswitch`, found " ++ d) fun _ => rfl

theorem switchStatement :
    Agree τ (Stmt.Agree τ) (switchStatement block depth) (switchStatement block depth) := by
  refine bind eat fun _ _ _ => bind (expression merges depth) fun _ _ subject => ?_
  refine bind (expect _) fun _ _ _ => bind (arms merges blocks depth depth .nil) fun _ _ cases => ?_
  exact pure (.switch subject cases)

theorem countingLoop :
    Agree τ (Stmt.Agree τ) (countingLoop block depth) (countingLoop block depth) := by
  refine bind eat fun _ _ opening => bind (expect _) fun name name' named => ?_
  refine bind (expect _) fun _ _ _ => bind (loopBound merges depth) fun _ _ first => ?_
  refine bind (expect _) fun _ _ _ => bind (loopBound merges depth) fun _ _ last => ?_
  refine bind (blocks _ _ _ opening) fun _ _ body => bind (expect _) fun _ _ _ => ?_
  refine bind (expect _) fun again again' closing => ?_
  rw [named.value, closing.value]
  split
  · exact pure (.count _ (merges opening.placed closing.placed) first last body)
  · exact throw ⟨rfl, closing.placed⟩

theorem whileLoop : Agree τ (Stmt.Agree τ) (whileLoop block depth) (whileLoop block depth) := by
  refine bind eat fun _ _ opening => bind (expression merges depth) fun _ _ test => ?_
  refine bind (blocks _ _ _ opening) fun _ _ body => bind (expect _) fun _ _ _ => ?_
  exact pure (.whileLoop (merges opening.placed test.span) test body)

theorem untilLoop : Agree τ (Stmt.Agree τ) (untilLoop block depth) (untilLoop block depth) := by
  refine bind eat fun _ _ opening => bind (blocks _ _ _ opening) fun _ _ body => ?_
  refine bind (expect _) fun _ _ _ => bind (expression merges depth) fun _ _ test => ?_
  exact pure (.untilLoop body test)

theorem statement : Agree τ (Stmt.Agree τ) (statement block depth) (statement block depth) := by
  have declared : Agree τ (Stmt.Agree τ)
      (Parser.routine block depth >>= fun decl => Pure.pure (.routine decl)) _ :=
    bind (routine merges blocks depth) fun _ _ decl => pure (.routine decl)
  refine bind peek fun t t' next => ?_
  rw [next.kind]
  split
  · exact declaration merges depth
  · exact arrayDeclaration merges depth
  · exact declared
  · exact declared
  · exact classDeclaration merges blocks depth
  · exact returnStatement merges depth
  · exact bind eat fun _ _ opening => conditional merges blocks depth depth opening
  · exact switchStatement merges blocks depth
  · exact countingLoop merges blocks depth
  · exact whileLoop merges blocks depth
  · exact untilLoop merges blocks depth
  · exact bind (expression merges depth) fun _ _ e => pure (.expression e)

end Blocks

theorem block (depth : Nat) : Blocks τ (block depth) := by
  induction depth with
  | zero => exact fun _ _ _ _ => exhausted
  | succ depth ih =>
      intro closers opener opener' opening
      refine bind peek fun t t' next => ?_
      rw [next.kind]
      split
      · exact pure .nil
      · split
        · exact throw ⟨message_unclosed next _, next.placed⟩
        · refine bind (statement merges ih depth) fun _ _ first => ?_
          exact bind (ih _ _ _ opening) fun _ _ rest => pure (.cons first rest)

theorem statements (depth bound : Nat) :
    Agree τ (List.Forall₂ (Stmt.Agree τ)) (statements depth bound) (statements depth bound) := by
  induction bound with
  | zero => exact exhausted
  | succ bound ih =>
      refine ifNextIs _ (pure .nil) ?_
      refine bind (statement merges (block merges depth) depth) fun _ _ first => ?_
      exact bind ih fun _ _ rest => pure (.cons first rest)

end Agree

end Parser

/-- Two programs that agree, or two errors that do. -/
inductive Program.Reading (τ : Span → Span → Prop) :
    Except SyntaxError Program → Except SyntaxError Program → Prop where
  | ok {p p' : Program} (agree : p.Agree τ p') : Reading τ (.ok p) (.ok p')
  | error {e e' : SyntaxError} (agree : e.Agree τ e') : Reading τ (.error e) (.error e')

/-- Tokens that agree are read alike. -/
theorem Program.ofTokens_agree (merges : Merges τ) {ts ts' : List Token} {stop stop' : Token}
    (tokens : List.Forall₂ (Token.Agree τ) ts ts') (ending : stop.Agree τ stop') :
    Program.Reading τ (Program.ofTokens ts stop) (Program.ofTokens ts' stop') := by
  have start : (Cursor.start ts stop).Agree τ (Cursor.start ts' stop') := by
    cases tokens with
    | nil => exact ⟨ending, .nil⟩
    | cons first rest => exact ⟨first, List.rel_append rest (.cons ending .nil)⟩
  have ends := Parser.Agree.statements merges (ts.length + 8) (ts.length + 8) _ _ start
  change Program.Reading τ
    (Parser.statements (ts.length + 8) (ts.length + 8) (.start ts stop) >>= fun r => .ok ⟨r.1⟩)
    (Parser.statements (ts'.length + 8) (ts'.length + 8) (.start ts' stop') >>= fun r => .ok ⟨r.1⟩)
  rw [← tokens.length_eq]
  generalize Parser.statements _ _ (Cursor.start ts stop) = x at ends ⊢
  generalize Parser.statements _ _ (Cursor.start ts' stop') = x' at ends ⊢
  cases ends with
  | ok same _ => exact .ok same
  | error problem => exact .error problem

end Pseudocode

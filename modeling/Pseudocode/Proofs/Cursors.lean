import Pseudocode.Proofs.Parsed.Expression

/-!
Where the reader of tokens stands.

`Parser.Made` says that a parser is put together from looking at the next token and
passing it, and every parser is (`Made.statements`). `Visits p c c'` says that the
parser `p`, started at the cursor `c`, comes to the cursor `c'`: it follows `p` from part
to part. All cursors of a run stand at a token (`Visits.standsAt`), so that the reader
never looks behind the last one.
-/

namespace Pseudocode

/-- The next token of the cursor is the one at an index, and the others come after it. -/
def Cursor.StandsAt (tokens : List Token) (current : Nat) (c : Cursor) : Prop :=
  tokens.drop current = c.next :: c.rest

namespace Cursor.StandsAt

variable {tokens : List Token} {current : Nat} {c : Cursor}

theorem getElem?_eq (stands : c.StandsAt tokens current) : tokens[current]? = some c.next := by
  rw [← List.head?_drop, stands, List.head?_cons]

theorem lt_length (stands : c.StandsAt tokens current) : current < tokens.length :=
  (List.getElem?_eq_some_iff.mp stands.getElem?_eq).1

/-- The last token is never passed. -/
theorem advance (stands : c.StandsAt tokens current) :
    ∃ next, current ≤ next ∧ c.advance.StandsAt tokens next := by
  obtain ⟨t, rest⟩ := c
  cases rest with
  | nil => exact ⟨current, Nat.le_refl current, stands⟩
  | cons u rest =>
      refine ⟨current + 1, Nat.le_succ current, ?_⟩
      change tokens.drop (current + 1) = u :: rest
      rw [← List.drop_drop, stands, List.drop_one, List.tail_cons]

/-- A token that is not the end of input is passed. -/
theorem advance_of_kind (stands : c.StandsAt tokens current)
    (ends : ∀ t ∈ tokens.getLast?, t.kind = .endOfInput) (other : c.next.kind ≠ .endOfInput) :
    c.advance.StandsAt tokens (current + 1) := by
  obtain ⟨t, rest⟩ := c
  unfold StandsAt at stands
  cases rest with
  | nil =>
      have last : tokens.getLast? = some t := by
        rw [← List.take_append_drop current tokens, stands, List.getLast?_concat]
      exact absurd (ends t last) other
  | cons u rest =>
      change tokens.drop (current + 1) = u :: rest
      rw [← List.drop_drop, stands, List.drop_one, List.tail_cons]

end Cursor.StandsAt

theorem Cursor.start_standsAt (ts : List Token) (stop : Token) :
    (Cursor.start ts stop).StandsAt (ts ++ [stop]) 0 := by
  cases ts <;> rfl

namespace Parser

inductive Made : {α : Type} → Parser α → Prop where
  | pure {α : Type} (a : α) : Made (pure a : Parser α)
  | throw {α : Type} (e : SyntaxError) : Made (throw e : Parser α)
  | peek : Made peek
  | eat : Made eat
  | bind {α β : Type} {p : Parser α} {f : α → Parser β} (first : Made p) (second : ∀ a, Made (f a)) :
      Made (p >>= f)

inductive Visits : {α : Type} → Parser α → Cursor → Cursor → Prop where
  | start {α : Type} (p : Parser α) (c : Cursor) : Visits p c c
  | finish {α : Type} {p : Parser α} {a : α} {c c' : Cursor} (made : Made p) (done : p c = .ok (a, c')) :
      Visits p c c'
  | first {α β : Type} {p : Parser α} {f : α → Parser β} {c c' : Cursor} (inside : Visits p c c') :
      Visits (p >>= f) c c'
  | next {α β : Type} {p : Parser α} {f : α → Parser β} {a : α} {c c₁ c' : Cursor} (made : Made p)
      (done : p c = .ok (a, c₁)) (inside : Visits (f a) c₁ c') : Visits (p >>= f) c c'

variable {α β : Type} {tokens : List Token} {current : Nat} {c c' : Cursor} {p : Parser α}

/-- Parsers only move forward. -/
theorem Made.standsAt (made : Made p) {a : α} (stands : c.StandsAt tokens current)
    (done : p c = .ok (a, c')) : ∃ next, current ≤ next ∧ c'.StandsAt tokens next := by
  induction made generalizing c c' current with
  | pure b =>
      cases done
      exact ⟨current, Nat.le_refl current, stands⟩
  | throw e => cases done
  | peek =>
      cases done
      exact ⟨current, Nat.le_refl current, stands⟩
  | eat =>
      cases done
      exact stands.advance
  | bind _ _ first second =>
      obtain ⟨b, c₁, before, after⟩ := bind_eq_ok.mp done
      obtain ⟨i, forward, inside⟩ := first stands before
      obtain ⟨j, forward', ended⟩ := second b inside after
      exact ⟨j, Nat.le_trans forward forward', ended⟩

/-- Every cursor that is come to stands at a token. -/
theorem Visits.standsAt (visits : Visits p c c') (stands : c.StandsAt tokens current) :
    ∃ next, current ≤ next ∧ c'.StandsAt tokens next := by
  induction visits generalizing current with
  | start p c => exact ⟨current, Nat.le_refl current, stands⟩
  | finish made done => exact made.standsAt stands done
  | first _ ih => exact ih stands
  | next made done _ ih =>
      obtain ⟨i, forward, inside⟩ := made.standsAt stands done
      obtain ⟨j, forward', ended⟩ := ih inside
      exact ⟨j, Nat.le_trans forward forward', ended⟩

namespace Made

/-! ### Single tokens -/

theorem nextIs (kind : TokenKind) : Made (nextIs kind) := bind peek fun _ => pure _

theorem fail (problem : Token → SyntaxProblem) : Made (fail problem : Parser α) :=
  bind peek fun _ => throw _

theorem exhausted : Made (exhausted : Parser α) := fail _

theorem ifNextIs (kind : TokenKind) {yes no : Parser α} (positive : Made yes) (negative : Made no) :
    Made (Parser.nextIs kind >>= fun b => if b then yes else no) := by
  apply bind (nextIs kind)
  intro b
  cases b with
  | true => exact positive
  | false => exact negative

theorem expect (kind : TokenKind) : Made (expect kind) := ifNextIs kind eat (fail _)

/-- A token that is read and not looked at. -/
theorem passing (kind : TokenKind) {p : Parser α} (rest : Made p) :
    Made (Parser.expect kind >>= fun _ => p) :=
  bind (expect kind) fun _ => rest

theorem commaSeparated {item : Parser α} (each : Made item) (bound : Nat) :
    Made (commaSeparated item bound) := by
  induction bound with
  | zero => exact exhausted
  | succ bound ih =>
      apply bind each
      intro x
      apply ifNextIs _ _ (pure _)
      exact bind eat fun _ => bind ih fun _ => pure _

/-! ### Expressions -/

section Expressions

variable {sub : Parser Expr} (nested : Made sub)

include nested in
theorem arguments (bound : Nat) : Made (arguments sub bound) := by
  apply passing
  apply ifNextIs
  · exact bind (pure _) fun _ => bind (expect _) fun _ => pure _
  · exact bind (commaSeparated nested bound) fun _ => bind (expect _) fun _ => pure _

theorem dotted (bound : Nat) (e : Expr) : Made (dotted bound e) := by
  induction bound generalizing e with
  | zero => exact exhausted
  | succ bound ih => exact ifNextIs _ (bind eat fun _ => bind (expect _) fun _ => ih _) (pure _)

include nested

theorem creation (bound : Nat) : Made (creation sub bound) := by
  apply bind eat
  intro keyword
  apply bind (expect _)
  intro name
  apply bind (dotted bound _)
  intro classExpr
  exact bind (arguments nested bound) fun _ => pure _

theorem parenthesised : Made (parenthesised sub) :=
  bind eat fun _ => bind nested fun _ => bind (expect _) fun _ => pure _

theorem primary (bound : Nat) : Made (primary sub bound) := by
  apply bind peek
  intro t
  split
  · exact bind eat fun _ => pure _
  · exact fail _
  · split
    · exact parenthesised nested
    · exact creation nested bound
    · exact fail _

theorem suffixes (bound : Nat) (e : Expr) : Made (suffixes sub bound e) := by
  induction bound generalizing e with
  | zero => exact exhausted
  | succ bound ih =>
      apply bind peek
      intro t
      split
      · exact bind eat fun _ => bind (expect _) fun _ => ih _
      · exact bind eat fun _ => bind (commaSeparated nested bound) fun _ => bind (expect _) fun _ => ih _
      · exact bind (arguments nested bound) fun _ => ih _
      · exact pure _

theorem callOrMember (bound : Nat) : Made (callOrMember sub bound) :=
  bind (primary nested bound) fun _ => suffixes nested bound _

theorem signs (bound : Nat) : Made (signs sub bound) := by
  induction bound with
  | zero => exact exhausted
  | succ bound ih =>
      apply bind peek
      intro t
      split
      · exact bind eat fun _ => bind ih fun _ => pure _
      · exact callOrMember nested bound

theorem negation (bound : Nat) : Made (negation sub bound) := by
  induction bound with
  | zero => exact exhausted
  | succ bound ih =>
      apply bind peek
      intro t
      split
      · exact bind eat fun _ => bind ih fun _ => pure _
      · exact signs nested bound

omit nested in
theorem chain (level : Level) {operand : Parser Expr} (each : Made operand) (bound : Nat) (left : Expr) :
    Made (chain level operand bound left) := by
  induction bound generalizing left with
  | zero => exact exhausted
  | succ bound ih =>
      apply bind peek
      intro t
      split
      · exact pure _
      · exact bind eat fun _ => bind each fun _ => ih _

theorem operators (bound : Nat) (levels : List Level) : Made (operators sub bound levels) := by
  induction levels with
  | nil => exact negation nested bound
  | cons level tighter ih => exact bind ih fun _ => chain level ih bound _

theorem range (bound : Nat) : Made (range sub bound) := by
  have operand := operators nested bound ladder
  apply bind operand
  intro start
  exact ifNextIs _ (bind eat fun _ => bind operand fun _ => pure _) (pure _)

theorem assignment (bound : Nat) : Made (assignment sub bound) := by
  induction bound with
  | zero => exact exhausted
  | succ bound ih =>
      apply bind (range nested bound)
      intro target
      apply ifNextIs _ _ (pure _)
      apply bind eat
      intro equals
      split
      · exact bind ih fun _ => pure _
      · exact throw _

end Expressions

theorem expression (depth : Nat) : Made (expression depth) := by
  induction depth with
  | zero => exact exhausted
  | succ depth ih => exact assignment ih (depth + 1)

theorem loopBound (depth : Nat) : Made (Parser.bound depth) := operators (expression depth) depth ladder

/-! ### Statements -/

theorem declaration (depth : Nat) : Made (declaration depth) := by
  apply bind eat
  intro keyword
  apply bind (expect _)
  intro name
  exact passing _ (bind (expression depth) fun _ => pure _)

theorem arrayDeclaration (depth : Nat) : Made (arrayDeclaration depth) := by
  apply bind eat
  intro keyword
  apply bind (expect _)
  intro name
  apply passing
  exact bind (commaSeparated (expression depth) depth) fun _ => bind (expect _) fun _ => pure _

theorem returnStatement (depth : Nat) : Made (returnStatement depth) := by
  apply bind eat
  intro keyword
  apply bind peek
  intro t
  split
  · exact pure _
  · exact bind (expression depth) fun _ => pure _

theorem parameters (routine : String) (bound : Nat) (earlier : List String) :
    Made (parameters routine bound earlier) := by
  induction bound generalizing earlier with
  | zero => exact exhausted
  | succ bound ih =>
      apply bind (expect _)
      intro name
      split
      · exact throw _
      · exact ifNextIs _ (bind eat fun _ => ih _) (pure _)

theorem routineName : Made routineName :=
  ifNextIs _ (bind eat fun _ => pure _) (bind (expect _) fun _ => pure _)

section Blocks

variable {block : BlockParser} (blocks : ∀ closers opener, Made (block closers opener)) (depth : Nat)
include blocks

theorem routine : Made (routine block depth) := by
  apply bind eat
  intro keyword
  split
  rename_i kind closer _
  apply bind routineName
  intro name
  apply passing
  have rest : ∀ params, Made (do
      let _ ← Parser.expect (.symbol .closeParen)
      let body ← block [closer] keyword
      let close ← Parser.expect (.keyword closer)
      return (⟨kind, name, params, body, keyword.span.merge close.span⟩ : RoutineDecl)) :=
    fun _ => passing _ (bind (blocks _ _) fun _ => bind (expect _) fun _ => pure _)
  exact ifNextIs _ (bind (pure _) fun _ => rest _) (bind (parameters name depth _) fun _ => rest _)

theorem member (visibility : Visibility) (modifier : Token) : Made (member block depth visibility modifier) := by
  have method := routine blocks depth
  apply bind peek
  intro t
  split
  · exact bind method fun _ => pure _
  · exact bind method fun _ => pure _
  · exact bind eat fun _ => pure _
  · exact fail _

theorem members (keyword : Token) (className : String) (bound : Nat) (earlier : List Member) :
    Made (members block depth keyword className bound earlier) := by
  induction bound generalizing earlier with
  | zero => exact exhausted
  | succ bound ih =>
      apply bind peek
      intro modifier
      split
      · apply bind eat
        intro _
        apply bind (member blocks depth _ modifier)
        intro m
        split
        · exact throw _
        · exact ih _
      · split
        · exact pure _
        · split
          · exact throw _
          · exact fail _

theorem classDeclaration : Made (classDeclaration block depth) := by
  apply bind eat
  intro keyword
  apply bind (expect _)
  intro name
  have rest : ∀ parent, Made (do
      let ms ← Parser.members block depth keyword name.value depth []
      let close ← Parser.expect (.keyword .endClass)
      return Stmt.classDecl ⟨name.value, parent, ms, keyword.span.merge close.span⟩) :=
    fun _ => bind (members blocks depth keyword _ depth _) fun _ => bind (expect _) fun _ => pure _
  apply ifNextIs
  · exact bind eat fun _ => bind (expect _) fun _ => bind (pure _) fun _ => rest _
  · exact bind (pure _) fun _ => rest _

theorem conditional (bound : Nat) (keyword : Token) : Made (conditional block depth bound keyword) := by
  induction bound generalizing keyword with
  | zero => exact exhausted
  | succ bound ih =>
      apply bind (expression depth)
      intro condition
      apply passing
      apply bind (blocks _ _)
      intro yes
      apply bind peek
      intro t
      split
      · exact bind eat fun _ => bind (ih _) fun _ => pure _
      · exact bind eat fun _ => bind (blocks _ _) fun _ => passing _ (pure _)
      · exact passing _ (pure _)

theorem arms (keyword : Token) (bound : Nat) (earlier : List Case) :
    Made (arms block depth keyword bound earlier) := by
  induction bound generalizing earlier with
  | zero => exact exhausted
  | succ bound ih =>
      apply bind peek
      intro t
      split
      · apply bind eat
        intro opener
        apply bind (expression depth)
        intro test
        exact passing _ (bind (blocks _ _) fun _ => ih _)
      · exact bind eat fun _ => passing _ (bind (blocks _ _) fun _ => ih _)
      · exact bind eat fun _ => pure _
      · exact throw _
      · exact fail _

theorem switchStatement : Made (switchStatement block depth) := by
  apply bind eat
  intro keyword
  apply bind (expression depth)
  intro subject
  exact passing _ (bind (arms blocks depth keyword depth _) fun _ => pure _)

theorem countingLoop : Made (countingLoop block depth) := by
  apply bind eat
  intro keyword
  apply bind (expect _)
  intro name
  apply passing
  apply bind (loopBound depth)
  intro first
  apply passing
  apply bind (loopBound depth)
  intro last
  apply bind (blocks _ _)
  intro body
  apply passing
  apply bind (expect _)
  intro again
  split
  · exact pure _
  · exact throw _

theorem whileLoop : Made (whileLoop block depth) := by
  apply bind eat
  intro keyword
  apply bind (expression depth)
  intro condition
  exact bind (blocks _ _) fun _ => passing _ (pure _)

theorem untilLoop : Made (untilLoop block depth) := by
  apply bind eat
  intro keyword
  apply bind (blocks _ _)
  intro body
  exact passing _ (bind (expression depth) fun _ => pure _)

theorem statement : Made (statement block depth) := by
  apply bind peek
  intro t
  split
  · exact declaration depth
  · exact arrayDeclaration depth
  · exact bind (routine blocks depth) fun _ => pure _
  · exact bind (routine blocks depth) fun _ => pure _
  · exact classDeclaration blocks depth
  · exact returnStatement depth
  · exact bind eat fun _ => conditional blocks depth depth _
  · exact switchStatement blocks depth
  · exact countingLoop blocks depth
  · exact whileLoop blocks depth
  · exact untilLoop blocks depth
  · exact bind (expression depth) fun _ => pure _

end Blocks

theorem block (depth : Nat) (closers : List Keyword) (opener : Token) :
    Made (block depth closers opener) := by
  induction depth generalizing closers opener with
  | zero => exact exhausted
  | succ depth ih =>
      apply bind peek
      intro t
      split
      · exact pure _
      · split
        · exact throw _
        · exact bind (statement ih depth) fun _ => bind (ih _ _) fun _ => pure _

theorem statements (depth bound : Nat) : Made (statements depth bound) := by
  induction bound with
  | zero => exact exhausted
  | succ bound ih =>
      apply ifNextIs _ (pure _)
      exact bind (statement (block depth) depth) fun _ => bind ih fun _ => pure _

end Made

/-! ### The token before -/

theorem expect_apply (kind : TokenKind) (c : Cursor) :
    expect kind c = if c.next.kind == kind then .ok (c.next, c.advance)
      else .error (SyntaxError.at_ (.expectedToken kind c.next) c.next) := by
  rw [expect, nextIs_bind]
  split <;> rfl

/-- Whenever a parameter is refused because it is there twice, it has just been read: it is
the token before the one at which the reader stands. -/
theorem token_before_of_duplicateParameter (ends : ∀ t ∈ tokens.getLast?, t.kind = .endOfInput)
    {routine routine' name : String} {bound : Nat} {earlier : List String} {e : SyntaxError}
    (stands : c.StandsAt tokens current) (failed : parameters routine bound earlier c = .error e)
    (duplicate : e.problem = .duplicateParameter name routine') :
    ∃ c' next t, Visits (parameters routine bound earlier) c c' ∧ c'.StandsAt tokens next ∧
      0 < next ∧ tokens[next - 1]? = some t ∧
      e = SyntaxError.at_ (.duplicateParameter name routine') t := by
  induction bound generalizing c current earlier with
  | zero =>
      cases failed
      cases duplicate
  | succ bound ih =>
      rw [parameters] at failed ⊢
      have read := expect_apply .identifier c
      rcases bind_eq_error.mp failed with missing | ⟨t, c₁, found, failed⟩
      · rw [read] at missing
        split at missing <;> cases missing
        cases duplicate
      · rw [read] at found
        split at found <;> cases found
        rename_i named
        have other : c.next.kind ≠ .endOfInput := by
          rw [beq_iff_eq.mp named]
          nofun
        have after := stands.advance_of_kind ends other
        rw [if_pos named] at read
        split at failed
        · cases failed
          cases duplicate
          refine ⟨c.advance, current + 1, c.next, ?_, after, Nat.succ_pos current, stands.getElem?_eq, rfl⟩
          exact .next (Made.expect _) read (.start _ _)
        · rename_i fresh
          rw [nextIs_bind] at failed
          split at failed
          · rename_i comma
            have more : c.advance.next.kind ≠ .endOfInput := by
              rw [beq_iff_eq.mp comma]
              nofun
            obtain ⟨c', next, t, visits, inside⟩ := ih (after.advance_of_kind ends more) failed
            refine ⟨c', next, t, ?_, inside⟩
            apply Visits.next (Made.expect _) read
            rw [if_neg fresh]
            apply Visits.next (Made.nextIs _) rfl
            rw [if_pos comma]
            exact .next Made.eat rfl visits
          · cases failed

end Parser

end Pseudocode

import Pseudocode.Proofs.Cursors
import Pseudocode.Proofs.Progress.Statement

/-!
The parser always makes progress.

A `Routine` is a parser of the grammar as a function of its bound. On any tokens, all
bounds above their number give one answer, and it is a result or a syntax error and never
that the bound was met (`Routine.answers`): that is what the routine does when nothing
bounds it, and it comes to an end. `Trace` lists the cursors of a run in order. They never
go back and never leave the tokens (`Trace.forward`).
-/

namespace Pseudocode

/-! ### Positions -/

/-- The index of the token at which the cursor stands. -/
def Cursor.position (tokens : List Token) (c : Cursor) : Nat := tokens.length - (c.rest.length + 1)

theorem Cursor.length_rest_start (vs : List Token) (stop : Token) :
    (Cursor.start vs stop).rest.length = vs.length := by
  cases vs <;> simp [Cursor.start]

namespace Cursor.StandsAt

variable {tokens ts : List Token} {stop : Token} {current next : Nat} {c : Cursor}

theorem position_eq (stands : c.StandsAt tokens current) : c.position tokens = current := by
  have left : tokens.length - current = c.rest.length + 1 := by
    rw [← List.length_drop, stands, List.length_cons]
  have inside := stands.lt_length
  unfold position
  omega

/-- A cursor in front of the last token, by the tokens before that one. -/
theorem eq_start (stands : c.StandsAt (ts ++ [stop]) current) :
    current ≤ ts.length ∧ c = .start (ts.drop current) stop := by
  have inside : current ≤ ts.length := by
    have lt := stands.lt_length
    rw [List.length_append, List.length_singleton] at lt
    exact Nat.le_of_lt_succ lt
  refine ⟨inside, ?_⟩
  unfold StandsAt at stands
  rw [List.drop_append_of_le_length inside] at stands
  obtain ⟨t, rest⟩ := c
  cases split : ts.drop current with
  | nil =>
      rw [split] at stands
      cases stands
      rfl
  | cons u us =>
      rw [split] at stands
      cases stands
      rfl

end Cursor.StandsAt

namespace Parser

/-! ### Routines -/

inductive Routine : {α : Type} → (Nat → Parser α) → Prop where
  | eat : Routine fun _ => eat
  | expect (kind : TokenKind) : Routine fun _ => expect kind
  | commaSeparated : Routine fun n => commaSeparated (expression n) n
  | arguments : Routine fun n => arguments (expression n) n
  | dotted (e : Expr) : Routine fun n => dotted n e
  | creation : Routine fun n => creation (expression n) n
  | parenthesised : Routine fun n => parenthesised (expression n)
  | primary : Routine fun n => primary (expression n) n
  | suffixes (e : Expr) : Routine fun n => suffixes (expression n) n e
  | callOrMember : Routine fun n => callOrMember (expression n) n
  | signs : Routine fun n => signs (expression n) n
  | negation : Routine fun n => negation (expression n) n
  | chain {level : Level} {tighter : List Level} (part : level :: tighter <:+ ladder) (left : Expr) :
      Routine fun n => chain level (operators (expression n) n tighter) n left
  | operators {levels : List Level} (part : levels <:+ ladder) :
      Routine fun n => operators (expression n) n levels
  | range : Routine fun n => range (expression n) n
  | assignment : Routine fun n => assignment (expression n) n
  | expression : Routine expression
  | bound : Routine bound
  | declaration : Routine declaration
  | arrayDeclaration : Routine arrayDeclaration
  | parameters (routine : String) (earlier : List String) : Routine fun n => parameters routine n earlier
  | routineName : Routine fun _ => routineName
  | routine : Routine fun n => routine (block n) n
  | member (visibility : Visibility) (modifier : Token) :
      Routine fun n => member (block n) n visibility modifier
  | members (keyword : Token) (className : String) (earlier : List Member) :
      Routine fun n => members (block n) n keyword className n earlier
  | classDeclaration : Routine fun n => classDeclaration (block n) n
  | returnStatement : Routine returnStatement
  | conditional (keyword : Token) : Routine fun n => conditional (block n) n n keyword
  | arms (keyword : Token) (earlier : List Case) : Routine fun n => arms (block n) n keyword n earlier
  | switchStatement : Routine fun n => switchStatement (block n) n
  | countingLoop : Routine fun n => countingLoop (block n) n
  | whileLoop : Routine fun n => whileLoop (block n) n
  | untilLoop : Routine fun n => untilLoop (block n) n
  | statement : Routine fun n => statement (block n) n
  | block (closers : List Keyword) (opener : Token) : Routine fun n => block n closers opener
  | statements : Routine fun n => statements n n

/-- Levels at the tight end of the ladder, with their number. -/
theorem exists_rung {levels : List Level} (part : levels <:+ ladder) : ∃ L, Rung L levels := by
  have few : levels.length ≤ 6 := part.length_le
  exact ⟨8 - levels.length, part, by omega⟩

variable {α : Type} {r : Nat → Parser α}

theorem Routine.made (given : Routine r) (n : Nat) : Made (r n) := by
  have nested := Made.expression n
  have blocks := Made.block n
  cases given with
  | eat => exact .eat
  | expect kind => exact .expect kind
  | commaSeparated => exact .commaSeparated nested n
  | arguments => exact .arguments nested n
  | dotted e => exact .dotted n e
  | creation => exact .creation nested n
  | parenthesised => exact .parenthesised nested
  | primary => exact .primary nested n
  | suffixes e => exact .suffixes nested n e
  | callOrMember => exact .callOrMember nested n
  | signs => exact .signs nested n
  | negation => exact .negation nested n
  | chain part left => exact .chain _ (.operators nested n _) n left
  | operators part => exact .operators nested n _
  | range => exact .range nested n
  | assignment => exact .assignment nested n
  | expression => exact nested
  | bound => exact .loopBound n
  | declaration => exact .declaration n
  | arrayDeclaration => exact .arrayDeclaration n
  | parameters name earlier => exact .parameters name n earlier
  | routineName => exact .routineName
  | routine => exact .routine blocks n
  | member visibility modifier => exact .member blocks n visibility modifier
  | members keyword className earlier => exact .members blocks n keyword className n earlier
  | classDeclaration => exact .classDeclaration blocks n
  | returnStatement => exact .returnStatement n
  | conditional keyword => exact .conditional blocks n n keyword
  | arms keyword earlier => exact .arms blocks n keyword n earlier
  | switchStatement => exact .switchStatement blocks n
  | countingLoop => exact .countingLoop blocks n
  | whileLoop => exact .whileLoop blocks n
  | untilLoop => exact .untilLoop blocks n
  | statement => exact .statement blocks n
  | block closers opener => exact blocks closers opener
  | statements => exact .statements n n

section Answers

variable {ts : List Token} {stop : Token} {n n' : Nat} (ends : stop.kind = .endOfInput)
include ends

/-- Bounds above the number of tokens do not show in the answer. -/
theorem Routine.settles (given : Routine r) (large : ts.length + 4 < n) (large' : ts.length + 4 < n') :
    Settles stop ts (ts.length + 1) (r n) (r n') := by
  have nested : ∀ vs, vs.length < ts.length + 1 →
      Settles stop vs vs.length (Parser.expression n) (Parser.expression n') :=
    fun vs le => Settles.expression ends (by omega) (by omega)
  have blocks : ∀ closers opener vs, vs.length < ts.length + 1 →
      Settles stop vs (vs.length + 1) (Parser.block n closers opener) (Parser.block n' closers opener) :=
    fun closers opener vs le => Settles.block ends closers opener (by omega) (by omega)
  have fits := Nat.le_succ ts.length
  have some := Nat.succ_pos ts.length
  have items : ∀ vs, vs.length ≤ ts.length →
      Settles stop vs vs.length (Parser.expression n) (Parser.expression n') :=
    fun vs le => nested vs (Nat.lt_succ_of_le le)
  have le : ts.length ≤ n ∧ ts.length ≤ n' := by omega
  have lt : ts.length < n ∧ ts.length < n' := by omega
  have lt₁ : ts.length + 1 < n ∧ ts.length + 1 < n' := by omega
  have lt₂ : ts.length + 2 < n ∧ ts.length + 2 < n' := by omega
  cases given with
  | eat =>
      apply Settles.mono (k := max ts.length 1) _ (by omega)
      exact Settles.eat (f := Pure.pure) (g := Pure.pure) fun t vs le => .pure le
  | expect kind =>
      apply Settles.ifNextIs
      · intro _
        exact Settles.eat (f := Pure.pure) (g := Pure.pure) fun t vs le => .pure (by omega)
      · exact .fail nofun
  | commaSeparated => exact (Settles.commaSeparated ends items lt.1 lt.2).mono fits
  | arguments => exact (Settles.arguments ends nested fits le.1 le.2).mono fits
  | dotted e => exact Settles.dotted ends lt.1 lt.2 e
  | creation => exact (Settles.creation ends nested fits le.1 le.2).mono fits
  | parenthesised => exact (Settles.parenthesised ends nested fits some).mono fits
  | primary => exact (Settles.primary ends nested fits le.1 le.2).mono fits
  | suffixes e => exact Settles.suffixes ends nested fits lt.1 lt.2 e
  | callOrMember => exact (Settles.callOrMember ends nested fits le.1 le.2).mono fits
  | signs => exact (Settles.signs ends nested fits lt.1 lt.2).mono fits
  | negation => exact (Settles.negation ends nested fits lt₁.1 lt₁.2).mono fits
  | chain part left =>
      obtain ⟨L, rung⟩ := exists_rung part
      have operand : ∀ vs, vs.length < ts.length → Settles stop vs vs.length
          (Parser.operators (Parser.expression n) n _) (Parser.operators (Parser.expression n') n' _) :=
        fun vs less => Settles.operators ends nested (by omega) rung.tail (by omega) (by omega)
      exact Settles.chain ends rung operand lt.1 lt.2 left
  | operators part =>
      obtain ⟨L, rung⟩ := exists_rung part
      exact (Settles.operators ends nested fits rung lt₁.1 lt₁.2).mono fits
  | range => exact (Settles.range ends nested fits lt₁.1 lt₁.2).mono fits
  | assignment => exact (Settles.assignment ends nested fits lt₂.1 lt₂.2).mono fits
  | expression => exact items ts (Nat.le_refl _) |>.mono fits
  | bound => exact (Settles.loopBound ends lt₂.1 lt₂.2).mono fits
  | declaration => exact (Settles.declaration ends lt₂.1 lt₂.2).mono fits
  | arrayDeclaration => exact (Settles.arrayDeclaration ends lt₂.1 lt₂.2).mono fits
  | parameters name earlier => exact (Settles.parameters ends name lt.1 lt.2 earlier).mono fits
  | routineName => exact (Settles.routineName ends).mono fits
  | routine => exact (Settles.routine ends blocks fits lt₂.1 lt₂.2).mono fits
  | member visibility modifier =>
      exact (Settles.member ends blocks fits lt₂.1 lt₂.2 visibility modifier).mono fits
  | members keyword className earlier =>
      exact Settles.members ends blocks fits lt₂.1 lt₂.2 keyword className lt.1 lt.2 earlier
  | classDeclaration => exact (Settles.classDeclaration ends blocks fits lt₂.1 lt₂.2).mono fits
  | returnStatement => exact (Settles.returnStatement ends lt₂.1 lt₂.2).mono (by omega)
  | conditional keyword =>
      exact (Settles.conditional ends blocks fits lt₂.1 lt₂.2 lt.1 lt.2 keyword).mono fits
  | arms keyword earlier =>
      exact (Settles.arms ends blocks fits lt₂.1 lt₂.2 keyword lt.1 lt.2 earlier).mono fits
  | switchStatement => exact (Settles.switchStatement ends blocks fits lt₂.1 lt₂.2).mono fits
  | countingLoop => exact (Settles.countingLoop ends blocks fits lt₂.1 lt₂.2).mono fits
  | whileLoop => exact (Settles.whileLoop ends blocks fits lt₂.1 lt₂.2).mono fits
  | untilLoop => exact (Settles.untilLoop ends blocks fits lt₂.1 lt₂.2 some).mono fits
  | statement => exact (Settles.statement ends blocks fits lt₂.1 lt₂.2).mono fits
  | block closers opener => exact blocks closers opener ts (Nat.lt_succ_self _)
  | statements => exact Settles.statements ends large large' lt.1 lt.2

/-- The answer of a routine that nothing bounds, at any token. -/
theorem Routine.answers (given : Routine r) {c : Cursor} {current : Nat}
    (stands : c.StandsAt (ts ++ [stop]) current) :
    ∃ answer, (∀ n, ts.length - current + 5 ≤ n → r n c = answer) ∧
      ∀ e, answer = .error e → e.problem ≠ .exhausted := by
  obtain ⟨_, rfl⟩ := stands.eq_start
  have left : (ts.drop current).length = ts.length - current := List.length_drop
  refine ⟨r (ts.length - current + 5) (.start (ts.drop current) stop), ?_, ?_⟩
  · intro n large
    have settled : Settles stop (ts.drop current) _ (r n) (r (ts.length - current + 5)) :=
      given.settles ends (by omega) (by omega)
    exact settled.same
  · intro e failed
    have settled : Settles stop (ts.drop current) _ (r (ts.length - current + 5))
        (r (ts.length - current + 5)) := given.settles ends (by omega) (by omega)
    have answer := settled.answer
    rw [failed] at answer
    cases answer with
    | error real => exact real

omit ends in
/-- What leaves fewer tokens than there were has passed one. -/
theorem Settles.passes {p : Parser α} (made : Made p) {c c' : Cursor} {current : Nat} {a : α}
    (stands : c.StandsAt (ts ++ [stop]) current)
    (settles : Settles stop (ts.drop current) (ts.drop current).length p p)
    (done : p c = .ok (a, c')) : ∃ next, current < next ∧ c'.StandsAt (ts ++ [stop]) next := by
  obtain ⟨next, _, stands'⟩ := made.standsAt stands done
  obtain ⟨inside, rfl⟩ := stands.eq_start
  have answer := settles.answer
  rw [done] at answer
  cases answer with
  | @ok _ vs fewer =>
      have reached := stands'.position_eq
      rw [Cursor.position, Cursor.length_rest_start, List.length_append, List.length_singleton] at reached
      rw [List.length_drop] at fewer
      exact ⟨next, by omega, stands'⟩

end Answers

/-! ### Runs -/

/-- The cursors of a run, in order. -/
inductive Trace : {α : Type} → Parser α → Cursor → List Cursor → Prop where
  | pure {α : Type} (a : α) (c : Cursor) : Trace (pure a : Parser α) c [c]
  | throw {α : Type} (e : SyntaxError) (c : Cursor) : Trace (throw e : Parser α) c [c]
  | peek (c : Cursor) : Trace peek c [c]
  | eat (c : Cursor) : Trace eat c [c, c.advance]
  | bind {α β : Type} {p : Parser α} {f : α → Parser β} {a : α} {c c' : Cursor} {cs ds : List Cursor}
      (first : Trace p c cs) (done : p c = .ok (a, c')) (second : Trace (f a) c' ds) :
      Trace (p >>= f) c (cs ++ ds)
  | stops {α β : Type} {p : Parser α} {f : α → Parser β} {e : SyntaxError} {c : Cursor}
      {cs : List Cursor} (first : Trace p c cs) (failed : p c = .error e) : Trace (p >>= f) c cs

theorem Made.exists_trace {p : Parser α} (made : Made p) (c : Cursor) : ∃ cs, Trace p c cs := by
  induction made generalizing c with
  | pure a => exact ⟨_, .pure a c⟩
  | throw e => exact ⟨_, .throw e c⟩
  | peek => exact ⟨_, .peek c⟩
  | eat => exact ⟨_, .eat c⟩
  | @bind _ _ p f _ _ first second =>
      obtain ⟨cs, trace⟩ := first c
      cases ran : p c with
      | error e => exact ⟨cs, .stops trace ran⟩
      | ok result =>
          obtain ⟨a, c'⟩ := result
          obtain ⟨ds, rest⟩ := second a c'
          exact ⟨cs ++ ds, .bind trace ran rest⟩

/-- The cursors of a run that gives an answer stand at tokens from an index on, each at the
token of the one before or at a later one, and the result is given at the last of them. -/
structure Forward {α : Type} (tokens : List Token) (current : Nat) (cs : List Cursor)
    (answer : Except SyntaxError (α × Cursor)) : Prop where
  inside : ∀ c ∈ cs, ∃ next, current ≤ next ∧ c.StandsAt tokens next
  forward : cs.Pairwise fun c c' => c.position tokens ≤ c'.position tokens
  last : ∀ a c', answer = .ok (a, c') →
    ∃ next, current ≤ next ∧ c'.StandsAt tokens next ∧ ∀ c ∈ cs, c.position tokens ≤ next

theorem Forward.one {tokens : List Token} {current : Nat} {c : Cursor}
    {answer : Except SyntaxError (α × Cursor)} (stands : c.StandsAt tokens current)
    (stays : ∀ a c', answer = .ok (a, c') → c' = c) : Forward tokens current [c] answer where
  inside := List.forall_mem_singleton.mpr ⟨current, Nat.le_refl _, stands⟩
  forward := List.pairwise_singleton _ _
  last a c' done := by
    obtain rfl := stays a c' done
    exact ⟨current, Nat.le_refl _, stands, List.forall_mem_singleton.mpr (Nat.le_of_eq stands.position_eq)⟩

theorem Trace.forward {p : Parser α} {c : Cursor} {cs : List Cursor} (trace : Trace p c cs)
    {tokens : List Token} {current : Nat} (stands : c.StandsAt tokens current) :
    Forward tokens current cs (p c) := by
  induction trace generalizing current with
  | pure a c => exact .one stands (by rintro _ _ ⟨⟩; rfl)
  | throw e c => exact .one stands nofun
  | peek c => exact .one stands (by rintro _ _ ⟨⟩; rfl)
  | eat c =>
      obtain ⟨next, le, after⟩ := stands.advance
      have start := stands.position_eq
      have reached := after.position_eq
      constructor
      case inside =>
        intro d mem
        rcases List.mem_pair.mp mem with rfl | rfl
        · exact ⟨current, Nat.le_refl _, stands⟩
        · exact ⟨next, le, after⟩
      case forward => exact List.pairwise_pair.mpr (by omega)
      case last =>
        rintro _ _ ⟨⟩
        refine ⟨next, le, after, fun d mem => ?_⟩
        rcases List.mem_pair.mp mem with rfl | rfl <;> omega
  | @bind _ _ p f a c c' cs ds first done second ih ih' =>
      have front := ih stands
      obtain ⟨middle, le, stands', before⟩ := front.last a c' done
      have back := ih' stands'
      have answer : (p >>= f) c = f a c' := by
        rw [bind_apply, done]
        rfl
      rw [answer]
      have after : ∀ d ∈ ds, middle ≤ d.position tokens := by
        intro d mem
        obtain ⟨next, le', there⟩ := back.inside d mem
        rwa [there.position_eq]
      constructor
      case inside =>
        intro d mem
        rcases List.mem_append.mp mem with early | late
        · exact front.inside d early
        · obtain ⟨next, le', there⟩ := back.inside d late
          exact ⟨next, Nat.le_trans le le', there⟩
      case forward =>
        apply List.pairwise_append.mpr
        exact ⟨front.forward, back.forward,
          fun d early d' late => Nat.le_trans (before d early) (after d' late)⟩
      case last =>
        intro b c'' done'
        obtain ⟨next, le', there, before'⟩ := back.last b c'' done'
        refine ⟨next, Nat.le_trans le le', there, fun d mem => ?_⟩
        rcases List.mem_append.mp mem with early | late
        · exact Nat.le_trans (before d early) le'
        · exact before' d late
  | @stops _ _ p f e c cs first failed ih =>
      have front := ih stands
      have answer : (p >>= f) c = .error e := by
        rw [bind_apply, failed]
        rfl
      rw [answer]
      exact ⟨front.inside, front.forward, nofun⟩

/-! ### The end of a program -/

theorem statements_end {n b : Nat} {c c' : Cursor} {body : List Stmt}
    (done : statements n b c = .ok (body, c')) : c'.next.kind = .endOfInput := by
  induction b generalizing c body with
  | zero => cases done
  | succ b ih =>
      rw [statements, nextIs_bind] at done
      split at done
      · rename_i stops
        cases done
        exact beq_iff_eq.mp stops
      · obtain ⟨s, c₁, _, rest⟩ := bind_eq_ok.mp done
        obtain ⟨ss, c₂, read, last⟩ := bind_eq_ok.mp rest
        cases last
        exact ih read

section Programs

variable {ts : List Token} {stop : Token} (ends : stop.kind = .endOfInput)
include ends

theorem statement_passes {n : Nat} {c c' : Cursor} {current : Nat} {s : Stmt}
    (stands : c.StandsAt (ts ++ [stop]) current) (large : ts.length - current + 5 ≤ n)
    (done : statement (block n) n c = .ok (s, c')) :
    ∃ next, current < next ∧ c'.StandsAt (ts ++ [stop]) next := by
  have left : (ts.drop current).length = ts.length - current := List.length_drop
  have blocks : ∀ closers opener vs, vs.length < (ts.drop current).length →
      Settles stop vs (vs.length + 1) (block n closers opener) (block n closers opener) :=
    fun closers opener vs le => Settles.block ends closers opener (by omega) (by omega)
  have settles := Settles.statement ends blocks (Nat.le_refl _) (by omega : _ < n) (by omega : _ < n)
  exact settles.passes (Made.statement (Made.block n) n) stands done

theorem expression_passes {n : Nat} {c c' : Cursor} {current : Nat} {e : Expr}
    (stands : c.StandsAt (ts ++ [stop]) current) (large : ts.length - current + 5 ≤ n)
    (done : expression n c = .ok (e, c')) :
    ∃ next, current < next ∧ c'.StandsAt (ts ++ [stop]) next := by
  have left : (ts.drop current).length = ts.length - current := List.length_drop
  have settles : Settles stop (ts.drop current) _ (expression n) (expression n) :=
    Settles.expression ends (by omega) (by omega)
  exact settles.passes (Made.expression n) stands done

/-- A program was read to its end, or it is refused for what it says. -/
theorem ofTokens_total (only : ∀ t ∈ ts, t.kind ≠ .endOfInput) :
    (∃ e, Program.ofTokens ts stop = .error e ∧ e.problem ≠ .exhausted) ∨
      ∃ p c', Program.ofTokens ts stop = .ok p ∧
        statements (ts.length + 8) (ts.length + 8) (.start ts stop) = .ok (p.body, c') ∧
        c'.StandsAt (ts ++ [stop]) ts.length := by
  have start := Cursor.start_standsAt ts stop
  obtain ⟨answer, given, real⟩ := Routine.statements.answers ends start
  have run := given (ts.length + 8) (by omega)
  have whole : Program.ofTokens ts stop = answer >>= fun r => .ok ⟨r.1⟩ := by
    rw [← run]
    rfl
  cases answer with
  | error e => exact .inl ⟨e, whole, real e rfl⟩
  | ok r =>
      obtain ⟨body, c'⟩ := r
      obtain ⟨next, _, stands⟩ := (Made.statements _ _).standsAt start run
      have inside := stands.eq_start.1
      have last : next = ts.length := by
        -- At an earlier index stands one of the other tokens.
        apply Nat.le_antisymm inside
        apply Nat.le_of_not_lt
        intro early
        have found := stands.getElem?_eq
        rw [List.getElem?_append_left early] at found
        exact only _ (List.mem_of_getElem? found) (statements_end run)
      subst last
      exact .inr ⟨⟨body⟩, c', whole, run, stands⟩

end Programs

/-- On tokens of which the last one, and no other, is the end of input, every routine
comes to an end, moves forward only and never leaves the tokens. Statements and expressions
pass at least one token, and a program is read to its end. -/
theorem always_progresses (ts : List Token) (stop : Token) (ends : stop.kind = .endOfInput)
    (only : ∀ t ∈ ts, t.kind ≠ .endOfInput) :
    (∀ {α : Type} (r : Nat → Parser α), Routine r →
      ∀ c current, c.StandsAt (ts ++ [stop]) current →
        (∃ answer, (∀ n, ts.length - current + 5 ≤ n → r n c = answer) ∧
          ∀ e, answer = .error e → e.problem ≠ .exhausted) ∧
        ∀ n, (∃ cs, Trace (r n) c cs) ∧ ∀ cs, Trace (r n) c cs →
          (cs.Pairwise fun d d' => d.position (ts ++ [stop]) ≤ d'.position (ts ++ [stop])) ∧
          ∀ d ∈ cs, ∃ i, current ≤ i ∧ i ≤ ts.length ∧ d.StandsAt (ts ++ [stop]) i) ∧
    (∀ n c c' current, c.StandsAt (ts ++ [stop]) current → ts.length - current + 5 ≤ n →
      (∀ s, statement (block n) n c = .ok (s, c') →
        ∃ next, current < next ∧ c'.StandsAt (ts ++ [stop]) next) ∧
      ∀ e, expression n c = .ok (e, c') →
        ∃ next, current < next ∧ c'.StandsAt (ts ++ [stop]) next) ∧
    ((∃ e, Program.ofTokens ts stop = .error e ∧ e.problem ≠ .exhausted) ∨
      ∃ p c', Program.ofTokens ts stop = .ok p ∧
        statements (ts.length + 8) (ts.length + 8) (.start ts stop) = .ok (p.body, c') ∧
        c'.StandsAt (ts ++ [stop]) ts.length) := by
  refine ⟨?_, ?_, ofTokens_total ends only⟩
  · intro α r given c current stands
    refine ⟨given.answers ends stands, fun n => ⟨(given.made n).exists_trace c, fun cs trace => ?_⟩⟩
    have moves := trace.forward stands
    refine ⟨moves.forward, fun d mem => ?_⟩
    obtain ⟨i, le, there⟩ := moves.inside d mem
    exact ⟨i, le, there.eq_start.1, there⟩
  · intro n c c' current stands large
    exact ⟨fun s => statement_passes ends stands large, fun e => expression_passes ends stands large⟩

/-- The tokens of `while f(a, b) a endwhile`, as if each of them were one character. -/
def loopTokens : List Token :=
  [(.keyword .while_, "while"), (.identifier, "f"), (.symbol .openParen, "("), (.identifier, "a"),
    (.symbol .comma, ","), (.identifier, "b"), (.symbol .closeParen, ")"), (.identifier, "a"),
    (.keyword .endWhile, "endwhile")].mapIdx fun i piece =>
      ⟨piece.1, piece.2, ⟨i, i + 1⟩, 1, i + 1⟩

/-- A loop with a call in its condition is read to its end. Without its last tokens it is refused,
and not for want of fuel. -/
theorem always_progresses_loop :
    let stop := Token.endOfInput ⟨9, 1, 10⟩
    (∃ p c', Program.ofTokens loopTokens stop = .ok p ∧
      statements 17 17 (.start loopTokens stop) = .ok (p.body, c') ∧
      c'.StandsAt (loopTokens ++ [stop]) 9) ∧
    ∃ e, Program.ofTokens (loopTokens.take 5) stop = .error e ∧ e.problem ≠ .exhausted := by
  intro stop
  have whole : ∀ t ∈ loopTokens, t.kind ≠ .endOfInput := by decide
  have part : ∀ t ∈ loopTokens.take 5, t.kind ≠ .endOfInput := by decide
  constructor
  · rcases (always_progresses loopTokens stop rfl whole).2.2 with ⟨e, failed, -⟩ | read
    · have good : (Program.ofTokens loopTokens stop).toBool = true := by decide +kernel
      rw [failed] at good
      cases good
    · exact read
  · rcases (always_progresses (loopTokens.take 5) stop rfl part).2.2 with failed | ⟨p, _, read, -⟩
    · exact failed
    · have bad : (Program.ofTokens (loopTokens.take 5) stop).toBool = false := by decide +kernel
      rw [read] at bad
      cases bad

end Parser

end Pseudocode

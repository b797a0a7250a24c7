import Pseudocode.Proofs.Derivation.Parsing

/-!
Reading an expression comes to an end.

Parsers are given bounds, which stand in for the recursion and the loops that they
follow. `Settles` compares two choices of bounds: the parser gives one and the same
answer, the answer is never that a bound was met, and a result leaves fewer than some
number of tokens. Every parser has one lemma that says so for all bounds that are large
enough for the tokens, put together from those of its parts. Loops end because each
round leaves fewer tokens than the one before.
-/

namespace Pseudocode.Parser

variable {α β : Type}

/-- A result that leaves fewer than `k` tokens before the end of input, or an error that
is not for a bound. -/
inductive Answer (stop : Token) (k : Nat) : Except SyntaxError (α × Cursor) → Prop where
  | ok {a : α} {vs : List Token} (fewer : vs.length < k) : Answer stop k (.ok (a, .start vs stop))
  | error {e : SyntaxError} (real : e.problem ≠ .exhausted) : Answer stop k (.error e)

/-- Two parsers give the same answer on tokens before the end of input. -/
structure Settles (stop : Token) (ts : List Token) (k : Nat) (p q : Parser α) : Prop where
  same : p (.start ts stop) = q (.start ts stop)
  answer : Answer stop k (q (.start ts stop))

namespace Settles

variable {stop : Token} {ts : List Token} {k k' : Nat} {p q : Parser α} {f g : α → Parser β}

/-- A loop ends because each round leaves fewer tokens than the one before. Of two bounds
above the number of tokens, with `c` to spare, neither is met. -/
@[elab_as_elim]
theorem rounds (c : Nat) {motive : Nat → Nat → List Token → Prop}
    (round : ∀ b b' ts, ts.length + c ≤ b → ts.length + c ≤ b' →
      (∀ vs, vs.length < ts.length → motive b b' vs) → motive (b + 1) (b' + 1) ts)
    (b b' : Nat) (ts : List Token) (large : ts.length + c < b) (large' : ts.length + c < b') :
    motive b b' ts := by
  induction b generalizing b' ts with
  | zero => exact absurd large (Nat.not_lt_zero _)
  | succ b ih =>
      cases b' with
      | zero => exact absurd large' (Nat.not_lt_zero _)
      | succ b' =>
          apply round b b' ts (by omega) (by omega)
          intro vs fewer
          exact ih b' vs (by omega) (by omega)

/-! ### Single tokens -/

theorem pure {a : α} (fewer : ts.length < k) : Settles stop ts k (Pure.pure a) (Pure.pure a) :=
  ⟨rfl, .ok fewer⟩

theorem throw {e : SyntaxError} (real : e.problem ≠ .exhausted) :
    Settles stop ts k (throw e : Parser α) (throw e) :=
  ⟨rfl, .error real⟩

theorem fail {problem : Token → SyntaxProblem} (real : problem (upcoming stop ts) ≠ .exhausted) :
    Settles stop ts k (fail problem : Parser α) (fail problem) :=
  ⟨rfl, .error real⟩

theorem mono (settles : Settles stop ts k p q) (le : k ≤ k') : Settles stop ts k' p q := by
  have widened : ∀ x : Except SyntaxError (α × Cursor), Answer stop k x → Answer stop k' x := by
    intro x answer
    cases answer with
    | ok fewer => exact .ok (Nat.lt_of_lt_of_le fewer le)
    | error real => exact .error real
  exact ⟨settles.same, widened _ settles.answer⟩

theorem bind (first : Settles stop ts k p q)
    (second : ∀ a vs, vs.length < k → Settles stop vs k' (f a) (g a)) :
    Settles stop ts k' (p >>= f) (q >>= g) := by
  have both : ∀ x : Except SyntaxError (α × Cursor), Answer stop k x →
      (x >>= fun y => f y.1 y.2) = (x >>= fun y => g y.1 y.2) ∧
        Answer stop k' (x >>= fun y => g y.1 y.2) := by
    intro x answer
    cases answer with
    | error real => exact ⟨rfl, .error real⟩
    | ok fewer =>
        obtain ⟨same, answer⟩ := second _ _ fewer
        exact ⟨same, answer⟩
  obtain ⟨same, answer⟩ := both _ first.answer
  refine ⟨?_, answer⟩
  rw [bind_apply, first.same]
  exact same

/-- The result of a parser in another form. -/
theorem returns {h : α → β} (first : Settles stop ts k p q) :
    Settles stop ts k (p >>= fun a => Pure.pure (h a)) (q >>= fun a => Pure.pure (h a)) :=
  bind first fun _ _ fewer => pure fewer

theorem peek {f g : Token → Parser β}
    (rest : Settles stop ts k (f (upcoming stop ts)) (g (upcoming stop ts))) :
    Settles stop ts k (Parser.peek >>= f) (Parser.peek >>= g) :=
  ⟨rest.same, rest.answer⟩

/-- What depends on whether the next token is of some kind. -/
theorem ifNextIs {kind : TokenKind} {yes no yes' no' : Parser α}
    (positive : (upcoming stop ts).kind = kind → Settles stop ts k yes yes')
    (negative : Settles stop ts k no no') :
    Settles stop ts k (nextIs kind >>= fun b => if b then yes else no)
      (nextIs kind >>= fun b => if b then yes' else no') := by
  have chosen : Settles stop ts k (if (upcoming stop ts).kind == kind then yes else no)
      (if (upcoming stop ts).kind == kind then yes' else no') := by
    split
    · rename_i same
      exact positive (beq_iff_eq.mp same)
    · exact negative
  exact ⟨chosen.same, chosen.answer⟩

theorem eatOne (some : ts ≠ []) : Settles stop ts ts.length Parser.eat Parser.eat := by
  cases ts with
  | nil => exact absurd rfl some
  | cons t vs =>
      have left : (Cursor.start (t :: vs) stop).advance = .start vs stop := by cases vs <;> rfl
      have answer : Answer stop (t :: vs).length (.ok (t, (Cursor.start (t :: vs) stop).advance)) := by
        rw [left]
        exact .ok (Nat.lt_succ_self vs.length)
      exact ⟨rfl, answer⟩

/-- Any token is read; the end of input stays where it is. -/
theorem eat {f g : Token → Parser β}
    (rest : ∀ t vs, vs.length < max ts.length 1 → Settles stop vs k (f t) (g t)) :
    Settles stop ts k (Parser.eat >>= f) (Parser.eat >>= g) := by
  by_cases some : ts = []
  · subst some
    have stays := rest stop [] Nat.zero_lt_one
    exact ⟨stays.same, stays.answer⟩
  · exact bind (eatOne some) fun t vs fewer => rest t vs (Nat.lt_of_lt_of_le fewer (Nat.le_max_left _ _))

section Ends

variable (ends : stop.kind = .endOfInput)
include ends

theorem ne_nil (other : (upcoming stop ts).kind ≠ .endOfInput) : ts ≠ [] := by
  rintro rfl
  exact other ends

/-- A token that is not the end of input. -/
theorem eatKind {kind : TokenKind} {f g : Token → Parser β} (same : (upcoming stop ts).kind = kind)
    (some : kind ≠ .endOfInput)
    (rest : ∀ t vs, vs.length < ts.length → Settles stop vs k (f t) (g t)) :
    Settles stop ts k (Parser.eat >>= f) (Parser.eat >>= g) :=
  bind (eatOne (ne_nil ends (same ▸ some))) rest

theorem expectOne {kind : TokenKind} (some : kind ≠ .endOfInput) :
    Settles stop ts ts.length (Parser.expect kind) (Parser.expect kind) :=
  ifNextIs (fun same => eatOne (ne_nil ends (same ▸ some))) (fail nofun)

theorem expect {kind : TokenKind} {f g : Token → Parser β} (some : kind ≠ .endOfInput)
    (rest : ∀ t vs, vs.length < ts.length → Settles stop vs k (f t) (g t)) :
    Settles stop ts k (Parser.expect kind >>= f) (Parser.expect kind >>= g) :=
  bind (expectOne ends some) rest

theorem commaSeparated {item item' : Parser α}
    (each : ∀ vs, vs.length ≤ ts.length → Settles stop vs vs.length item item') {b b' : Nat}
    (large : ts.length < b) (large' : ts.length < b') :
    Settles stop ts ts.length (commaSeparated item b) (commaSeparated item' b') := by
  revert each
  refine rounds 0 ?_ b b' ts large large'
  intro b b' ts _ _ ih each
  apply bind (each ts (Nat.le_refl _))
  intro x vs fewer
  apply ifNextIs
  · intro comma
    apply eatKind ends comma (by nofun)
    intro _ ws fewer'
    have rest := ih ws (by omega) fun us le => each us (by omega)
    exact (returns rest).mono (by omega)
  · exact pure fewer

/-! ### Expressions -/

section Expressions

variable {b b' : Nat}

theorem dotted (large : ts.length < b) (large' : ts.length < b') (e : Expr) :
    Settles stop ts (ts.length + 1) (dotted b e) (dotted b' e) := by
  revert e
  refine rounds 0 ?_ b b' ts large large'
  intro b b' ts _ _ ih e
  apply ifNextIs
  · intro dot
    apply eatKind ends dot (by nofun)
    intro _ vs fewer
    apply expect ends (by nofun)
    intro field ws fewer'
    exact (ih ws (by omega) _).mono (by omega)
  · exact pure (Nat.lt_succ_self _)

/-- Each round of operators passes one of them. -/
theorem chain {L : Nat} {level : Level} {tighter : List Level} (rung : Rung L (level :: tighter))
    {operand operand' : Parser Expr}
    (each : ∀ vs, vs.length < ts.length → Settles stop vs vs.length operand operand')
    (large : ts.length < b) (large' : ts.length < b') (left : Expr) :
    Settles stop ts (ts.length + 1) (chain level operand b left) (chain level operand' b' left) := by
  revert each left
  refine rounds 0 ?_ b b' ts large large'
  intro b b' ts _ _ ih each left
  apply peek
  split
  · exact pure (Nat.lt_succ_self _)
  · rename_i op found
    have some : (upcoming stop ts).kind ≠ .endOfInput := by
      rw [← (rung.of_lookup found).1]
      cases op <;> nofun
    apply eatKind ends rfl some
    intro _ vs fewer
    apply bind (each vs fewer)
    intro right ws fewer'
    exact (ih ws (by omega) (fun us less => each us (by omega)) _).mono (by omega)

variable {sub sub' : Parser Expr}
  (nested : ∀ vs, vs.length < k → Settles stop vs vs.length sub sub') (fits : ts.length ≤ k)
include nested fits

theorem arguments (large : ts.length ≤ b) (large' : ts.length ≤ b') :
    Settles stop ts ts.length (arguments sub b) (arguments sub' b') := by
  apply expect ends (by nofun)
  intro _ vs fewer
  apply ifNextIs
  · intro _
    apply bind (pure (Nat.lt_succ_self vs.length))
    intro _ ws fewer'
    exact expect ends nofun fun _ xs fewer'' => pure (by omega)
  · have items := commaSeparated ends (fun us le => nested us (by omega)) (by omega : vs.length < b)
      (by omega : vs.length < b')
    apply bind items
    intro _ ws fewer'
    exact expect ends nofun fun _ xs fewer'' => pure (by omega)

theorem creation (large : ts.length ≤ b) (large' : ts.length ≤ b') :
    Settles stop ts ts.length (creation sub b) (creation sub' b') := by
  apply eat
  intro keyword vs le
  apply expect ends (by nofun)
  intro name ws fewer
  apply bind (dotted ends (by omega : ws.length < b) (by omega : ws.length < b') _)
  intro classExpr xs le'
  apply bind (arguments ends nested (by omega : xs.length ≤ k) (by omega : xs.length ≤ b) (by omega))
  intro _ ys fewer'
  exact pure (by omega)

theorem parenthesised (some : 0 < k) :
    Settles stop ts ts.length (parenthesised sub) (parenthesised sub') := by
  apply eat
  intro opening vs le
  apply bind (nested vs (by omega))
  intro inner ws fewer
  exact expect ends nofun fun _ xs fewer' => pure (by omega)

omit nested fits ends in
theorem real_of_atom? {t : Token} {problem : SyntaxProblem} (atom : atom? t = some (.error problem)) :
    problem ≠ .exhausted := by
  rintro rfl
  unfold atom? at atom
  split at atom
  · cases atom
  · split at atom <;> cases atom
  · split at atom <;> cases atom
  · cases atom
  · cases atom
  · cases atom

theorem primary (large : ts.length ≤ b) (large' : ts.length ≤ b') :
    Settles stop ts ts.length (primary sub b) (primary sub' b') := by
  apply peek
  split
  · rename_i e found
    exact returns (eatOne (ne_nil ends (Meets.kind_of_atom? found)))
  · rename_i problem found
    exact fail (real_of_atom? found)
  · split
    · rename_i opens
      have some := List.length_pos_iff.mpr (ne_nil ends (by rw [opens]; nofun))
      exact parenthesised ends nested fits (by omega)
    · exact creation ends nested fits large large'
    · exact fail nofun

theorem suffixes (large : ts.length < b) (large' : ts.length < b') (e : Expr) :
    Settles stop ts (ts.length + 1) (suffixes sub b e) (suffixes sub' b' e) := by
  revert fits e
  refine rounds 0 ?_ b b' ts large large'
  intro b b' ts large large' ih fits e
  apply peek
  split
  · rename_i dot
    apply eatKind ends dot (by nofun)
    intro _ vs fewer
    apply expect ends (by nofun)
    intro field ws fewer'
    exact (ih ws (by omega) (by omega) _).mono (by omega)
  · rename_i opens
    apply eatKind ends opens (by nofun)
    intro _ vs fewer
    have places := commaSeparated ends (fun us le => nested us (by omega)) (by omega : vs.length < b)
      (by omega : vs.length < b')
    apply bind places
    intro indices ws fewer'
    apply expect ends (by nofun)
    intro close xs fewer''
    exact (ih xs (by omega) (by omega) _).mono (by omega)
  · apply bind (arguments ends nested fits large large')
    intro given vs fewer
    exact (ih vs (by omega) (by omega) _).mono (by omega)
  · exact pure (Nat.lt_succ_self _)

theorem callOrMember (large : ts.length ≤ b) (large' : ts.length ≤ b') :
    Settles stop ts ts.length (callOrMember sub b) (callOrMember sub' b') := by
  apply bind (primary ends nested fits large large')
  intro e vs fewer
  exact (suffixes ends nested (by omega) (by omega) (by omega) e).mono fewer

theorem signs (large : ts.length < b) (large' : ts.length < b') :
    Settles stop ts ts.length (signs sub b) (signs sub' b') := by
  revert fits
  refine rounds 0 ?_ b b' ts large large'
  intro b b' ts large large' ih fits
  apply peek
  split
  · rename_i op sign
    apply eatKind ends rfl (Meets.kind_of_sign? sign)
    intro operator vs fewer
    exact (returns (ih vs fewer (by omega))).mono (by omega)
  · exact callOrMember ends nested fits large large'

theorem negation (large : ts.length + 1 < b) (large' : ts.length + 1 < b') :
    Settles stop ts ts.length (negation sub b) (negation sub' b') := by
  revert fits
  refine rounds 1 ?_ b b' ts large large'
  intro b b' ts large large' ih fits
  apply peek
  split
  · rename_i negates
    have some : (upcoming stop ts).kind ≠ .endOfInput := by
      intro kind
      rw [kind] at negates
      cases negates
    apply eatKind ends rfl some
    intro operator vs fewer
    exact (returns (ih vs fewer (by omega))).mono (by omega)
  · exact signs ends nested fits (by omega) (by omega)

theorem operators {L : Nat} {levels : List Level} (rung : Rung L levels) (large : ts.length + 1 < b)
    (large' : ts.length + 1 < b') :
    Settles stop ts ts.length (operators sub b levels) (operators sub' b' levels) := by
  induction levels generalizing ts L with
  | nil => exact negation ends nested fits large large'
  | cons level tighter ih =>
      apply bind (ih fits rung.tail large large')
      intro left vs fewer
      have rest := chain ends rung (fun us less => ih (by omega : us.length ≤ k) rung.tail (by omega)
        (by omega)) (by omega : vs.length < b) (by omega : vs.length < b') left
      exact rest.mono (by omega)

theorem range (large : ts.length + 1 < b) (large' : ts.length + 1 < b') :
    Settles stop ts ts.length (range sub b) (range sub' b') := by
  apply bind (operators ends nested fits .ladder large large')
  intro start vs fewer
  apply ifNextIs
  · intro leads
    apply eatKind ends leads (by nofun)
    intro _ ws fewer'
    have last := operators ends nested (by omega : ws.length ≤ k) .ladder (by omega : ws.length + 1 < b)
      (by omega : ws.length + 1 < b')
    exact (returns last).mono (by omega)
  · exact pure fewer

theorem assignment (large : ts.length + 2 < b) (large' : ts.length + 2 < b') :
    Settles stop ts ts.length (assignment sub b) (assignment sub' b') := by
  revert fits
  refine rounds 2 ?_ b b' ts large large'
  intro b b' ts large large' ih fits
  apply bind (range ends nested fits (by omega) (by omega))
  intro target vs fewer
  apply ifNextIs
  · intro assigns
    apply eatKind ends assigns (by nofun)
    intro equals ws fewer'
    split
    · exact (returns (ih ws (by omega) (by omega))).mono (by omega)
    · exact throw nofun
  · exact pure fewer

end Expressions

theorem expression {n n' : Nat} (large : ts.length + 2 < n) (large' : ts.length + 2 < n') :
    Settles stop ts ts.length (expression n) (expression n') := by
  refine rounds 2 ?_ n n' ts large large'
  intro n n' ts large large' ih
  exact assignment ends ih (Nat.le_refl _) (by omega) (by omega)

theorem loopBound {n n' : Nat} (large : ts.length + 2 < n) (large' : ts.length + 2 < n') :
    Settles stop ts ts.length (Parser.bound n) (Parser.bound n') := by
  have nested : ∀ vs, vs.length < ts.length + 1 →
      Settles stop vs vs.length (Parser.expression n) (Parser.expression n') :=
    fun vs le => expression ends (by omega) (by omega)
  exact operators ends nested (Nat.le_succ _) .ladder (by omega) (by omega)

end Ends

end Settles

end Pseudocode.Parser

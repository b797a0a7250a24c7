import Pseudocode.Proofs.Parsed.Expression
import Pseudocode.Proofs.Derivation.Statement

/-!
Parsers follow the grammar.

On the tokens of a program every parser either reads a part of them that the grammar
allows for its result, or fails with an error that is blamed on some of the tokens
(`Parser.Meets`). Every parser has one lemma that says so, put together from those of
its parts.
-/

namespace Pseudocode

/-- What an error says about the token that it is blamed on is so. -/
def SyntaxProblem.Fits (t : Token) : SyntaxProblem → Prop
  | .invalidTarget | .unrecognisedSymbol _ => False
  | .invalidFloat text =>
      t.kind = .float ∧ t.value = text ∧ Decimal.parseDouble? t.value.toList = none
  | _ => True

/-- What an error is blamed on among tokens and the end of input. A member that is
declared twice is blamed at its visibility; what cannot be assigned to is blamed, but
placed at the equals sign. -/
inductive Blamed (ts : List Token) (stop : Token) (e : SyntaxError) : Prop where
  | token {t : Token} (mem : t ∈ ts ++ [stop]) (span : e.span = t.span)
      (place : (e.line, e.column) = (t.line, t.column)) (fits : e.problem.Fits t)
  | member {earlier us later : List Token} {modifier : Token} {m : Member}
      (whole : ts = earlier ++ (modifier :: us ++ later))
      (written : (Sentence.member m).Written (modifier :: us)) (span : e.span = m.span)
      (place : (e.line, e.column) = (modifier.line, modifier.column))
      (twice : ∃ className, e.problem = .duplicateMember className m.name)
  | target {earlier us later : List Token} {equals : Token} {target : Expr}
      (whole : ts = earlier ++ (us ++ equals :: later)) (written : (Phrase.expr 1 target).Written us)
      (span : e.span = target.span) (place : (e.line, e.column) = (equals.line, equals.column))
      (invalid : e.problem = .invalidTarget)

namespace Parser

variable {α β : Type}

/-- What is read of tokens before the end of input, or what an error is blamed on.
`before` has been read already. -/
inductive Outcome (stop : Token) (before ts : List Token) (R : α → List Token → Prop) :
    Except SyntaxError (α × Cursor) → Prop where
  | ok {a : α} {us vs : List Token} (split : ts = us ++ vs) (holds : R a us) :
      Outcome stop before ts R (.ok (a, .start vs stop))
  | error {e : SyntaxError} (blamed : Blamed (before ++ ts) stop e) :
      Outcome stop before ts R (.error e)

def Meets (stop : Token) (before ts : List Token) (p : Parser α) (R : α → List Token → Prop) : Prop :=
  Outcome stop before ts R (p (.start ts stop))

/-- The token to be read next. -/
def upcoming (stop : Token) (ts : List Token) : Token := (Cursor.start ts stop).next

@[simp] theorem upcoming_cons (stop t : Token) (ts : List Token) : upcoming stop (t :: ts) = t := rfl

namespace Meets

variable {stop : Token} {before ts : List Token} {R : α → List Token → Prop}
  {S : β → List Token → Prop}

/-! ### Single tokens -/

theorem upcoming_mem : upcoming stop ts ∈ before ++ ts ++ [stop] := by
  cases ts with
  | nil => simp [upcoming, Cursor.start]
  | cons t ts => simp [upcoming, Cursor.start]

theorem pure {a : α} (holds : R a []) : Meets stop before ts (Pure.pure a) R :=
  .ok rfl holds

theorem throw {e : SyntaxError} (blamed : Blamed (before ++ ts) stop e) :
    Meets stop before ts (throw e : Parser α) R :=
  .error blamed

theorem fail {problem : Token → SyntaxProblem}
    (fits : (problem (upcoming stop ts)).Fits (upcoming stop ts)) :
    Meets stop before ts (fail problem : Parser α) R :=
  .error (.token upcoming_mem rfl rfl fits)

theorem exhausted : Meets stop before ts (exhausted : Parser α) R := fail trivial

theorem imp {R' : α → List Token → Prop} {p : Parser α} (reads : Meets stop before ts p R)
    (weaker : ∀ a us, R a us → R' a us) : Meets stop before ts p R' := by
  unfold Meets at reads ⊢
  generalize p (.start ts stop) = x at reads ⊢
  cases reads with
  | ok split holds => exact .ok split (weaker _ _ holds)
  | error blamed => exact .error blamed

theorem bind {p : Parser α} {f : α → Parser β} (first : Meets stop before ts p R)
    (second : ∀ a us vs, ts = us ++ vs → R a us →
      Meets stop (before ++ us) vs (f a) fun b ws => S b (us ++ ws)) :
    Meets stop before ts (p >>= f) S := by
  unfold Meets at first
  rw [Meets, bind_apply]
  generalize p (.start ts stop) = x at first ⊢
  cases first with
  | error blamed => exact .error blamed
  | @ok a us vs split holds =>
      have rest := second a us vs split holds
      unfold Meets at rest
      change Outcome stop before ts S (f a (.start vs stop))
      generalize f a (.start vs stop) = y at rest ⊢
      subst split
      cases rest with
      | ok split' holds' => exact .ok (by rw [split', List.append_assoc]) holds'
      | error blamed => exact .error (by simpa using blamed)

/-- The result of a parser in another form. -/
theorem returns {p : Parser α} {g : α → β} (first : Meets stop before ts p R)
    (holds : ∀ a us, R a us → S (g a) us) : Meets stop before ts (p >>= fun a => Pure.pure (g a)) S :=
  bind first fun a us _ _ given => pure (by rw [List.append_nil]; exact holds a us given)

theorem peek {f : Token → Parser β} (rest : Meets stop before ts (f (upcoming stop ts)) S) :
    Meets stop before ts (Parser.peek >>= f) S :=
  rest

/-- What depends on whether the next token is of some kind. -/
theorem ifNextIs {kind : TokenKind} {yes no : Parser α}
    (positive : (upcoming stop ts).kind = kind → Meets stop before ts yes R)
    (negative : Meets stop before ts no R) :
    Meets stop before ts (Parser.nextIs kind >>= fun b => if b then yes else no) R := by
  change Outcome stop before ts R
    ((if (upcoming stop ts).kind == kind then yes else no) (.start ts stop))
  split
  · rename_i same
    exact positive (beq_iff_eq.mp same)
  · exact negative

theorem eatFirst (t : Token) (vs : List Token) :
    Meets stop before (t :: vs) Parser.eat fun a us => a = t ∧ us = [t] := by
  have left : (Cursor.start (t :: vs) stop).advance = .start vs stop := by cases vs <;> rfl
  change Outcome stop before (t :: vs) _ (.ok (t, (Cursor.start (t :: vs) stop).advance))
  rw [left]
  exact .ok rfl ⟨rfl, rfl⟩

section Ends

variable (ends : stop.kind = .endOfInput)
include ends

/-- A token that is not the end of input is one of the tokens. -/
theorem exists_of_kind {kind : TokenKind} (same : (upcoming stop ts).kind = kind)
    (some : kind ≠ .endOfInput) : ∃ t vs, ts = t :: vs ∧ t.kind = kind := by
  cases ts with
  | nil => exact absurd (same.symm.trans ends) some
  | cons t vs => exact ⟨t, vs, rfl, same⟩

theorem eat {kind : TokenKind} {f : Token → Parser β} (same : (upcoming stop ts).kind = kind)
    (some : kind ≠ .endOfInput)
    (rest : ∀ t vs, t.kind = kind → Meets stop (before ++ [t]) vs (f t) fun b ws => S b (t :: ws)) :
    Meets stop before ts (Parser.eat >>= f) S := by
  obtain ⟨t, vs, rfl, kind⟩ := exists_of_kind ends same some
  refine bind (eatFirst t vs) ?_
  rintro a us vs' split ⟨rfl, rfl⟩
  exact rest a vs' kind

theorem expect {kind : TokenKind} {f : Token → Parser β} (some : kind ≠ .endOfInput)
    (rest : ∀ t vs, t.kind = kind → Meets stop (before ++ [t]) vs (f t) fun b ws => S b (t :: ws)) :
    Meets stop before ts (Parser.expect kind >>= f) S := by
  have assoc : (Parser.expect kind >>= f) = (Parser.nextIs kind >>= fun b =>
      if b then Parser.eat >>= f else Parser.fail (.expectedToken kind) >>= f) := by
    unfold Parser.expect
    rw [bind_assoc]
    congr 1
    funext b
    cases b <;> rfl
  rw [assoc]
  refine ifNextIs (fun same => eat ends same some rest) ?_
  exact bind (R := fun _ _ => False) (fail trivial) fun _ _ _ _ => False.elim

/-! ### Expressions -/

section Expressions

variable {sub : Parser Expr}
  (nested : ∀ before ts, Meets stop before ts sub fun e us => (Phrase.expr 0 e).Written us)

include nested in
theorem commaSeparated (bound : Nat) :
    Meets stop before ts (commaSeparated sub bound) fun es us => (Phrase.items es).Written us := by
  induction bound generalizing before ts with
  | zero => exact exhausted
  | succ bound ih =>
      refine bind (nested _ _) fun e us vs _ first => ?_
      refine ifNextIs (fun same => eat ends same nofun fun comma vs parts => ?_) ?_
      · exact returns ih fun es ws rest => .cons first parts rest
      · exact pure (by rw [List.append_nil]; exact .item first)

include nested in
theorem arguments (bound : Nat) :
    Meets stop before ts (arguments sub bound) fun x us => (Phrase.arguments x.1 x.2).Written us := by
  refine expect ends nofun fun opening vs opens => ifNextIs (fun _ => ?_) ?_
  · refine bind (R := fun es us => es = [] ∧ us = []) (pure ⟨rfl, rfl⟩) ?_
    rintro _ _ _ _ ⟨rfl, rfl⟩
    exact expect ends nofun fun close _ closes => pure (.noArguments opens closes)
  · refine bind (commaSeparated ends nested bound) fun es us _ _ given => ?_
    exact expect ends nofun fun close _ closes => pure (.arguments opens given closes)

theorem dotted (bound : Nat) {e : Expr} {us : List Token} (read : (Phrase.name e).Written us) :
    Meets stop before ts (dotted bound e) fun e' vs => (Phrase.name e').Written (us ++ vs) := by
  induction bound generalizing before ts e us with
  | zero => exact exhausted
  | succ bound ih =>
      refine ifNextIs (fun same => eat ends same nofun fun dot vs isDot => ?_) ?_
      · refine expect ends nofun fun field vs named => ?_
        refine imp (ih (.dotted read isDot named)) fun e' ws written => ?_
        rwa [List.append_assoc] at written
      · exact pure (by rwa [List.append_nil])

include nested in
theorem creation (bound : Nat) (new : (upcoming stop ts).kind = .keyword .new) :
    Meets stop before ts (creation sub bound) fun e us => (Phrase.expr 12 e).Written us := by
  refine eat ends new nofun fun keyword vs new => expect ends nofun fun name vs named => ?_
  refine bind (dotted ends bound (.name named)) fun classExpr us vs _ named => ?_
  exact returns (arguments ends nested bound) fun args ws given => .create new named given

include nested in
theorem parenthesised (opens : (upcoming stop ts).kind = .symbol .openParen) :
    Meets stop before ts (parenthesised sub) fun e us => (Phrase.expr 12 e).Written us := by
  refine eat ends opens nofun fun opening vs opens => bind (nested _ _) fun e us vs _ inner => ?_
  exact expect ends nofun fun close _ closes => pure (.parens opens inner closes)

omit ends in
/-- A token that is a literal or a name is not the end of input. -/
theorem kind_of_atom? {t : Token} {found : Except SyntaxProblem Expr} (atom : atom? t = some found) :
    t.kind ≠ .endOfInput := by
  intro kind
  rw [atom?, kind] at atom
  cases atom

omit ends in
theorem fits_of_atom? {t : Token} {problem : SyntaxProblem}
    (atom : atom? t = some (.error problem)) : problem.Fits t := by
  unfold atom? at atom
  split at atom
  · cases atom
  · split at atom <;> cases atom
    trivial
  · rename_i float
    split at atom <;> cases atom
    rename_i unread
    exact ⟨float, rfl, unread⟩
  · cases atom
  · cases atom
  · cases atom

include nested in
theorem primary (bound : Nat) :
    Meets stop before ts (primary sub bound) fun e us => (Phrase.expr 12 e).Written us := by
  refine peek ?_
  split
  · rename_i e found
    obtain ⟨t, vs, rfl, _⟩ := exists_of_kind ends rfl (kind_of_atom? found)
    refine bind (eatFirst t vs) ?_
    rintro _ _ _ _ ⟨_, rfl⟩
    exact pure (.atom found)
  · rename_i problem found
    exact fail (fits_of_atom? found)
  · split
    · rename_i opens
      exact parenthesised ends nested opens
    · rename_i new
      exact creation ends nested bound new
    · exact fail trivial

include nested in
theorem suffixes (bound : Nat) {e : Expr} {us : List Token} (read : (Phrase.expr 11 e).Written us) :
    Meets stop before ts (suffixes sub bound e) fun e' vs => (Phrase.expr 11 e').Written (us ++ vs) := by
  induction bound generalizing before ts e us with
  | zero => exact exhausted
  | succ bound ih =>
      refine peek ?_
      split
      · rename_i same
        refine eat ends same nofun fun dot vs isDot => expect ends nofun fun field vs named => ?_
        refine imp (ih (.member read isDot named)) fun e' ws written => ?_
        rwa [List.append_assoc] at written
      · rename_i same
        refine eat ends same nofun fun opening vs opens => ?_
        refine bind (commaSeparated ends nested bound) fun is vs _ _ places => ?_
        refine expect ends nofun fun close _ closes => ?_
        refine imp (ih (.index read opens places closes)) fun e' ws written => ?_
        simpa using written
      · refine bind (arguments ends nested bound) fun args vs _ _ given => ?_
        refine imp (ih (.call read given)) fun e' ws written => ?_
        rwa [List.append_assoc] at written
      · exact pure (by rwa [List.append_nil])

include nested in
theorem callOrMember (bound : Nat) :
    Meets stop before ts (callOrMember sub bound) fun e us => (Phrase.expr 11 e).Written us :=
  bind (primary ends nested bound) fun _ _ _ _ read =>
    suffixes ends nested bound (.loosen (by decide) read)

omit ends in
theorem kind_of_sign? {kind : TokenKind} {op : UnaryOp} (sign : sign? kind = some op) :
    kind ≠ .endOfInput := by
  rintro rfl
  cases sign

include nested in
theorem signs (bound : Nat) :
    Meets stop before ts (signs sub bound) fun e us => (Phrase.expr 9 e).Written us := by
  induction bound generalizing before ts with
  | zero => exact exhausted
  | succ bound ih =>
      refine peek ?_
      split
      · rename_i op sign
        refine eat ends rfl (kind_of_sign? sign) fun operator vs kind => ?_
        rw [← kind] at sign
        exact returns ih fun operand us inner => .sign sign inner
      · exact imp (callOrMember ends nested bound) fun _ _ read => .loosen (by decide) read

include nested in
theorem negation (bound : Nat) :
    Meets stop before ts (negation sub bound) fun e us => (Phrase.expr 8 e).Written us := by
  induction bound generalizing before ts with
  | zero => exact exhausted
  | succ bound ih =>
      refine peek ?_
      split
      · rename_i negates
        simp only [Bool.or_eq_true, beq_iff_eq] at negates
        have some : (upcoming stop ts).kind ≠ .endOfInput := by
          intro kind
          rw [kind] at negates
          rcases negates with same | same <;> cases same
        refine eat ends rfl some fun operator vs kind => ?_
        rw [← kind] at negates
        exact returns ih fun operand us inner => .not negates inner
      · exact imp (signs ends nested bound) fun _ _ read => .loosen (by decide) read

theorem chain {L : Nat} {level : Level} {tighter : List Level} (rung : Rung L (level :: tighter))
    {operand : Parser Expr}
    (each : ∀ before ts, Meets stop before ts operand fun e us => (Phrase.expr (L + 1) e).Written us)
    (bound : Nat) {e : Expr} {us : List Token} (read : (Phrase.expr L e).Written us) :
    Meets stop before ts (chain level operand bound e) fun e' vs =>
      (Phrase.expr L e').Written (us ++ vs) := by
  induction bound generalizing before ts e us with
  | zero => exact exhausted
  | succ bound ih =>
      refine peek ?_
      split
      · exact pure (by rwa [List.append_nil])
      · rename_i op found
        obtain ⟨operates, rfl⟩ := rung.of_lookup found
        have some : (upcoming stop ts).kind ≠ .endOfInput := by
          rw [← operates]
          cases op <;> nofun
        refine eat ends rfl some fun operator vs kind => ?_
        rw [← kind] at operates
        refine bind (each _ _) fun right vs _ _ second => ?_
        refine imp (ih (.binary read operates.symm second)) fun e' ws written => ?_
        simpa using written

include nested in
theorem operators (bound : Nat) {L : Nat} {levels : List Level} (rung : Rung L levels) :
    Meets stop before ts (operators sub bound levels) fun e us => (Phrase.expr L e).Written us := by
  induction levels generalizing before ts L with
  | nil =>
      obtain rfl : L = 8 := rung.2
      exact negation ends nested bound
  | cons level tighter ih =>
      refine bind (ih rung.tail) fun left us _ _ read => ?_
      exact chain ends rung (fun _ _ => ih rung.tail) bound (.loosen (Nat.le_succ L) read)

include nested in
theorem range (bound : Nat) :
    Meets stop before ts (range sub bound) fun e us => (Phrase.expr 1 e).Written us := by
  refine bind (operators ends nested bound .ladder) fun start us _ _ first => ?_
  refine ifNextIs (fun same => eat ends same nofun fun keyword vs leads => ?_) ?_
  · exact returns (operators ends nested bound .ladder) fun last vs second => .range first leads second
  · exact pure (by rw [List.append_nil]; exact .loosen (by decide) first)

include nested in
theorem assignment (bound : Nat) :
    Meets stop before ts (assignment sub bound) fun e us => (Phrase.expr 0 e).Written us := by
  induction bound generalizing before ts with
  | zero => exact exhausted
  | succ bound ih =>
      refine bind (range ends nested bound) fun target us vs _ left => ?_
      refine ifNextIs (fun same => eat ends same nofun fun equals vs assigns => ?_) ?_
      · split
        · rename_i allowed
          exact returns ih fun value ws right => .assign left assigns allowed right
        · have whole : before ++ us ++ [equals] ++ vs = before ++ (us ++ equals :: vs) := by simp
          exact throw (.target whole left rfl rfl rfl)
      · exact pure (by rw [List.append_nil]; exact .loosen (by decide) left)

end Expressions

theorem expression (depth : Nat) :
    Meets stop before ts (expression depth) fun e us => (Phrase.expr 0 e).Written us := by
  induction depth generalizing before ts with
  | zero => exact exhausted
  | succ depth ih => exact assignment ends (fun _ _ => ih) (depth + 1)

theorem loopBound (depth : Nat) :
    Meets stop before ts (Parser.bound depth) fun e us => (Phrase.expr 2 e).Written us :=
  operators ends (fun _ _ => expression ends depth) depth .ladder

/-! ### Statements -/

theorem declaration (depth : Nat) (opens : (upcoming stop ts).kind = .keyword .let_) :
    Meets stop before ts (declaration depth) fun s us => (Sentence.stmt s).Written us := by
  refine eat ends opens nofun fun keyword _ opens => expect ends nofun fun name _ named => ?_
  refine expect ends nofun fun equals _ assigns => ?_
  exact returns (expression ends depth) fun value us given => .declare opens named assigns given

theorem arrayDeclaration (depth : Nat) (opens : (upcoming stop ts).kind = .keyword .array) :
    Meets stop before ts (arrayDeclaration depth) fun s us => (Sentence.stmt s).Written us := by
  refine eat ends opens nofun fun keyword _ opens => expect ends nofun fun name _ named => ?_
  refine expect ends nofun fun opening _ starts => ?_
  refine bind (commaSeparated ends (fun _ _ => expression ends depth) depth) fun es us _ _ given => ?_
  exact expect ends nofun fun close _ closes => pure (.array opens named starts given closes)

theorem returnStatement (depth : Nat) (opens : (upcoming stop ts).kind = .keyword .return_) :
    Meets stop before ts (returnStatement depth) fun s us => (Sentence.stmt s).Written us := by
  refine eat ends opens nofun fun keyword _ opens => peek ?_
  split
  · exact pure (.giveNothing opens)
  · exact returns (expression ends depth) fun value us given => .giveBack opens given

theorem parameters (routine : String) (bound : Nat) {earlier : List String}
    (distinct : earlier.Nodup) :
    Meets stop before ts (parameters routine bound earlier) fun names us =>
      names.Nodup ∧ ∃ more, names = earlier ++ more ∧ Parameters more us := by
  induction bound generalizing before ts earlier with
  | zero => exact exhausted
  | succ bound ih =>
      refine expect ends nofun fun name vs named => ?_
      split
      · exact throw (.token (t := name) (by simp) rfl rfl trivial)
      · rename_i fresh
        have distinct' : (earlier ++ [name.value]).Nodup := by
          simpa [List.nodup_append, distinct, List.forall_mem_ne'] using fresh
        refine ifNextIs (fun same => eat ends same nofun fun comma vs parts => ?_) ?_
        · refine imp (ih distinct') ?_
          rintro _ us ⟨distinct, more, rfl, rest⟩
          exact ⟨distinct, name.value :: more, by simp, .cons named parts rest⟩
        · exact pure ⟨distinct', [name.value], rfl, .one named⟩

theorem routineName :
    Meets stop before ts routineName fun name us =>
      ∃ t : Token, us = [t] ∧ name = t.value ∧ (t.kind = .keyword .new ∨ t.kind = .identifier) := by
  refine ifNextIs (fun same => eat ends same nofun fun t _ new => ?_) ?_
  · exact pure ⟨t, rfl, rfl, .inl new⟩
  · exact expect ends nofun fun t _ named => pure ⟨t, rfl, rfl, .inr named⟩

section Blocks

variable {block : BlockParser} (depth : Nat)
  (blocks : ∀ closers opener before ts, Meets stop before ts (block closers opener) fun ss us =>
    (Sentence.block ss).Written us)
include blocks

theorem routine (opens : (upcoming stop ts).kind = .keyword .function ∨
      (upcoming stop ts).kind = .keyword .procedure) :
    Meets stop before ts (routine block depth) fun decl us => (Sentence.routine decl).Written us := by
  have some : (upcoming stop ts).kind ≠ .endOfInput := by
    intro kind
    rw [kind] at opens
    rcases opens with same | same <;> cases same
  refine eat ends rfl some fun keyword _ kind => ?_
  rw [← kind] at opens
  generalize form : (if keyword.kind = .keyword .function then
    (RoutineKind.function, Keyword.endFunction) else (.procedure, .endProcedure)) = parts
  obtain ⟨kind, closer⟩ := parts
  have encloses {close : Token} (closes : close.kind = .keyword closer) : kind.Encloses keyword close := by
    split at form
    · rename_i function
      cases form
      exact ⟨function, closes⟩
    · rename_i other
      cases form
      exact ⟨opens.resolve_left other, closes⟩
  dsimp only
  refine bind (routineName ends) ?_
  rintro _ _ _ _ ⟨name, rfl, rfl, named⟩
  refine expect ends nofun fun opening _ opens => ?_
  have rest {before ts us : List Token} {params : List String}
      (given : params = [] ∧ us = [] ∨ Parameters params us) (distinct : params.Nodup) :
      Meets stop before ts
        (do
          let _ ← Parser.expect (.symbol .closeParen)
          let body ← block [closer] keyword
          let close ← Parser.expect (.keyword closer)
          return ⟨kind, name.value, params, body, keyword.span.merge close.span⟩)
        fun decl ws => (Sentence.routine decl).Written (keyword :: name :: opening :: (us ++ ws)) := by
    refine expect ends nofun fun closing _ closes => bind (blocks _ _ _ _) fun body vs _ _ inner => ?_
    refine expect ends nofun fun close _ closes' => ?_
    exact pure (.routine (encloses closes') named opens given distinct closes inner)
  refine ifNextIs (fun _ => ?_) ?_
  · refine bind (R := fun names us => names = [] ∧ us = []) (pure ⟨rfl, rfl⟩) ?_
    rintro _ _ _ _ ⟨rfl, rfl⟩
    exact rest (.inl ⟨rfl, rfl⟩) .nil
  · refine bind (parameters ends name.value depth .nil) ?_
    rintro _ _ _ _ ⟨distinct, names, rfl, given⟩
    exact rest (.inr given) distinct

theorem member {visibility : Visibility} {modifier : Token}
    (shown : visibility? modifier.kind = some visibility) :
    Meets stop before ts (member block depth visibility modifier) fun m us =>
      (Sentence.member m).Written (modifier :: us) := by
  refine peek ?_
  split
  · rename_i opens
    exact returns (routine ends depth blocks (.inl opens)) fun decl us inner => .method shown inner
  · rename_i opens
    exact returns (routine ends depth blocks (.inr opens)) fun decl us inner => .method shown inner
  · rename_i named
    exact eat ends named nofun fun name _ named => pure (.field shown named)
  · exact fail trivial

theorem members (keyword : Token) (className : String) (bound : Nat) (earlier : List Member) :
    Meets stop before ts (members block depth keyword className bound earlier) fun ms us =>
      ∃ more, ms = earlier ++ more ∧ (Sentence.members more).Written us := by
  induction bound generalizing before ts earlier with
  | zero => exact exhausted
  | succ bound ih =>
      refine peek ?_
      split
      · rename_i visibility shown
        have some : (upcoming stop ts).kind ≠ .endOfInput := by
          intro kind
          rw [kind] at shown
          cases shown
        obtain ⟨modifier, vs, rfl, _⟩ := exists_of_kind ends rfl some
        rw [upcoming_cons] at shown ⊢
        refine bind (eatFirst modifier vs) ?_
        rintro modifier _ _ _ ⟨rfl, rfl⟩
        refine bind (member ends depth blocks shown) fun m us vs _ written => ?_
        split
        · have whole : before ++ [modifier] ++ us ++ vs = before ++ (modifier :: us ++ vs) := by simp
          exact throw (.member whole written rfl rfl ⟨_, rfl⟩)
        · refine imp (ih _) ?_
          rintro _ ws ⟨more, rfl, rest⟩
          have all := Sentence.Written.nextMember written rest
          exact ⟨m :: more, by simp, all⟩
      · split
        · exact pure ⟨[], by simp, .noMembers⟩
        · split
          · exact throw (.token upcoming_mem rfl rfl trivial)
          · exact fail trivial

theorem classDeclaration (opens : (upcoming stop ts).kind = .keyword .class_) :
    Meets stop before ts (classDeclaration block depth) fun s us => (Sentence.stmt s).Written us := by
  refine eat ends opens nofun fun keyword _ opens => expect ends nofun fun name _ named => ?_
  refine ifNextIs (fun same => eat ends same nofun fun inherits _ leads => ?_) ?_
  · refine expect ends nofun fun parent _ above => ?_
    refine bind (R := fun found us => found = some (parent.value, parent.span) ∧ us = [])
      (pure ⟨rfl, rfl⟩) ?_
    rintro _ _ _ _ ⟨rfl, rfl⟩
    refine bind (members ends depth blocks keyword name.value depth []) ?_
    rintro _ us _ _ ⟨ms, rfl, inner⟩
    exact expect ends nofun fun close _ closes => pure (.classUnder opens named leads above inner closes)
  · refine bind (R := fun found us => found = none ∧ us = []) (pure ⟨rfl, rfl⟩) ?_
    rintro _ _ _ _ ⟨rfl, rfl⟩
    refine bind (members ends depth blocks keyword name.value depth []) ?_
    rintro _ us _ _ ⟨ms, rfl, inner⟩
    exact expect ends nofun fun close _ closes => pure (.classAlone opens named inner closes)

theorem conditional (bound : Nat) (keyword : Token) :
    Meets stop before ts (conditional block depth bound keyword) fun s us =>
      (Sentence.conditional s).Written us := by
  induction bound generalizing before ts keyword with
  | zero => exact exhausted
  | succ bound ih =>
      refine bind (expression ends depth) fun condition us _ _ given => ?_
      refine expect ends nofun fun then_ _ leads => bind (blocks _ _ _ _) fun yes vs _ _ inner => peek ?_
      split
      · rename_i same
        refine eat ends same nofun fun again _ turns => ?_
        exact returns (ih again) fun s ws other => .elseIf given leads inner turns other
      · rename_i same
        refine eat ends same nofun fun else_ _ turns => bind (blocks _ _ _ _) fun no ws _ _ other => ?_
        exact expect ends nofun fun close _ closes => pure (.ifElse given leads inner turns other closes)
      · exact expect ends nofun fun close _ closes => pure (.ifOnly given leads inner closes)

theorem arms (keyword : Token) (bound : Nat) (earlier : List Case) :
    Meets stop before ts (arms block depth keyword bound earlier) fun cases us =>
      ∃ more, cases = earlier ++ more ∧ (Sentence.arms more).Written us := by
  induction bound generalizing before ts earlier with
  | zero => exact exhausted
  | succ bound ih =>
      refine peek ?_
      split
      · rename_i same
        refine eat ends same nofun fun opening _ opens => ?_
        refine bind (expression ends depth) fun test us _ _ given => ?_
        refine expect ends nofun fun colon _ leads => bind (blocks _ _ _ _) fun body vs _ _ inner => ?_
        refine imp (ih _) ?_
        rintro _ ws ⟨more, rfl, rest⟩
        exact ⟨_, by simp, .caseArm opens given leads inner rest⟩
      · rename_i same
        refine eat ends same nofun fun opening _ opens => ?_
        refine expect ends nofun fun colon _ leads => bind (blocks _ _ _ _) fun body vs _ _ inner => ?_
        refine imp (ih _) ?_
        rintro _ ws ⟨more, rfl, rest⟩
        exact ⟨_, by simp, .defaultArm opens leads inner rest⟩
      · rename_i same
        exact eat ends same nofun fun close _ closes => pure ⟨[], by simp, .endSwitch closes⟩
      · exact throw (.token upcoming_mem rfl rfl trivial)
      · exact fail trivial

theorem switchStatement (opens : (upcoming stop ts).kind = .keyword .switch) :
    Meets stop before ts (switchStatement block depth) fun s us => (Sentence.stmt s).Written us := by
  refine eat ends opens nofun fun keyword _ opens => ?_
  refine bind (expression ends depth) fun subject us _ _ given => ?_
  refine expect ends nofun fun colon _ leads => returns (arms ends depth blocks keyword depth []) ?_
  rintro _ vs ⟨cases, rfl, inner⟩
  exact .switch opens given leads inner

theorem countingLoop (opens : (upcoming stop ts).kind = .keyword .for_) :
    Meets stop before ts (countingLoop block depth) fun s us => (Sentence.stmt s).Written us := by
  refine eat ends opens nofun fun keyword _ opens => expect ends nofun fun name _ named => ?_
  refine expect ends nofun fun equals _ assigns => ?_
  refine bind (loopBound ends depth) fun first us _ _ start => expect ends nofun fun leads _ leadsTo => ?_
  refine bind (loopBound ends depth) fun last vs _ _ stops => ?_
  refine bind (blocks _ _ _ _) fun body ws _ _ inner => expect ends nofun fun next _ closes => ?_
  refine expect ends nofun fun again _ renamed => ?_
  split
  · exact pure (.count opens named assigns start leadsTo stops inner closes renamed)
  · exact throw (.token (t := again) (by simp) rfl rfl trivial)

theorem whileLoop (opens : (upcoming stop ts).kind = .keyword .while_) :
    Meets stop before ts (whileLoop block depth) fun s us => (Sentence.stmt s).Written us := by
  refine eat ends opens nofun fun keyword _ opens => ?_
  refine bind (expression ends depth) fun condition us _ _ given => ?_
  refine bind (blocks _ _ _ _) fun body vs _ _ inner => ?_
  exact expect ends nofun fun close _ closes => pure (.whileLoop opens given inner closes)

theorem untilLoop (opens : (upcoming stop ts).kind = .keyword .do_) :
    Meets stop before ts (untilLoop block depth) fun s us => (Sentence.stmt s).Written us := by
  refine eat ends opens nofun fun keyword _ opens => bind (blocks _ _ _ _) fun body us _ _ inner => ?_
  refine expect ends nofun fun leads _ leadsTo => ?_
  exact returns (expression ends depth) fun condition vs given => .untilLoop opens inner leadsTo given

theorem statement :
    Meets stop before ts (statement block depth) fun s us => (Sentence.stmt s).Written us := by
  refine peek ?_
  split
  · rename_i opens
    exact declaration ends depth opens
  · rename_i opens
    exact arrayDeclaration ends depth opens
  · rename_i opens
    exact returns (routine ends depth blocks (.inl opens)) fun decl us inner => .routineStmt inner
  · rename_i opens
    exact returns (routine ends depth blocks (.inr opens)) fun decl us inner => .routineStmt inner
  · rename_i opens
    exact classDeclaration ends depth blocks opens
  · rename_i opens
    exact returnStatement ends depth opens
  · rename_i opens
    refine eat ends opens nofun fun keyword _ opens => ?_
    exact imp (conditional ends depth blocks depth keyword) fun s us inner => .conditional opens inner
  · rename_i opens
    exact switchStatement ends depth blocks opens
  · rename_i opens
    exact countingLoop ends depth blocks opens
  · rename_i opens
    exact whileLoop ends depth blocks opens
  · rename_i opens
    exact untilLoop ends depth blocks opens
  · exact returns (expression ends depth) fun e us given => .expression given

end Blocks

theorem block (depth : Nat) (closers : List Keyword) (opener : Token) :
    Meets stop before ts (block depth closers opener) fun ss us => (Sentence.block ss).Written us := by
  induction depth generalizing before ts closers opener with
  | zero => exact exhausted
  | succ depth ih =>
      refine peek ?_
      split
      · exact pure .done
      · split
        · exact throw (.token upcoming_mem rfl rfl trivial)
        · refine bind (statement ends depth fun _ _ _ _ => ih _ _) fun s us _ _ first => ?_
          exact returns (ih _ _) fun ss vs rest => .next first rest

/-- The statements of a program are read to the end of input. -/
theorem statements (depth bound : Nat) :
    Meets stop before ts (statements depth bound) fun ss us => (Sentence.block ss).Written us := by
  induction bound generalizing before ts with
  | zero => exact exhausted
  | succ bound ih =>
      refine ifNextIs (fun _ => pure .done) ?_
      refine bind (statement ends depth fun _ _ _ _ => block ends depth _ _) fun s us _ _ first => ?_
      exact returns ih fun ss vs rest => .next first rest

end Ends

end Meets

end Parser

/-! ### Programs -/

theorem written_of_ofTokens {ts : List Token} {stop : Token} (ends : stop.kind = .endOfInput)
    {p : Program} (read : Program.ofTokens ts stop = .ok p) :
    ∃ us vs, ts = us ++ vs ∧ (Sentence.block p.body).Written us := by
  obtain ⟨c, read⟩ := ofTokens_eq_ok.mp read
  have reads : Parser.Meets stop [] ts (Parser.statements (ts.length + 8) (ts.length + 8)) _ :=
    .statements ends (ts.length + 8) (ts.length + 8)
  unfold Parser.Meets at reads
  rw [read] at reads
  cases reads with
  | ok split written => exact ⟨_, _, split, written⟩

theorem blamed_of_ofTokens {ts : List Token} {stop : Token} (ends : stop.kind = .endOfInput)
    {e : SyntaxError} (failed : Program.ofTokens ts stop = .error e) : Blamed ts stop e := by
  have reads : Parser.Meets stop [] ts (Parser.statements (ts.length + 8) (ts.length + 8)) _ :=
    .statements ends (ts.length + 8) (ts.length + 8)
  unfold Parser.Meets at reads
  change (Parser.statements (ts.length + 8) (ts.length + 8) (.start ts stop) >>=
    fun r => .ok (Program.mk r.1)) = .error e at failed
  generalize Parser.statements (ts.length + 8) (ts.length + 8) (.start ts stop) = x at reads failed
  cases reads with
  | ok _ _ => cases failed
  | error blamed =>
      cases failed
      exact blamed

end Pseudocode

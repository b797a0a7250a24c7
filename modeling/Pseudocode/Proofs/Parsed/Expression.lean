import Pseudocode.Proofs.Ladder

/-!
What an expression is like that was read.

`Regular` collects what the nodes of such an expression are made of. `Yields` adds
how its text starts and what stands after it: the text starts with a parenthesis
or a sign only where one of these has been read, and the token after it is not
one that the expression would have taken.
-/

namespace Pseudocode

/-! ### Results of parsers -/

namespace Parser

variable {α β : Type} {c c' : Cursor}

theorem peek_bind (f : Token → Parser α) : (peek >>= f) c = f c.next c := rfl

theorem eat_bind (f : Token → Parser α) : (eat >>= f) c = f c.next c.advance := rfl

theorem nextIs_bind (kind : TokenKind) (f : Bool → Parser α) :
    (nextIs kind >>= f) c = f (c.next.kind == kind) c := rfl

theorem bind_apply (p : Parser α) (f : α → Parser β) (c : Cursor) :
    (p >>= f) c = p c >>= fun x => f x.1 x.2 := rfl

theorem bind_eq_ok {p : Parser α} {f : α → Parser β} {r : β × Cursor} :
    (p >>= f) c = .ok r ↔ ∃ a c₁, p c = .ok (a, c₁) ∧ f a c₁ = .ok r := by
  rw [bind_apply]
  cases p c with
  | error problem => simp [bind, Except.bind]
  | ok x => simp [bind, Except.bind, Prod.ext_iff]

theorem bind_eq_error {p : Parser α} {f : α → Parser β} {e : SyntaxError} :
    (p >>= f) c = .error e ↔ p c = .error e ∨ ∃ a c₁, p c = .ok (a, c₁) ∧ f a c₁ = .error e := by
  rw [bind_apply]
  cases p c with
  | error problem => simp [bind, Except.bind]
  | ok x => simp [bind, Except.bind, Prod.ext_iff]

theorem pure_eq_ok {a b : α} : (pure a : Parser α) c = .ok (b, c') ↔ a = b ∧ c = c' := by
  change Except.ok (a, c) = .ok (b, c') ↔ _
  simp

theorem fail_eq_ok {problem : Token → SyntaxProblem} {r : α × Cursor} :
    (fail problem : Parser α) c = .ok r ↔ False :=
  ⟨nofun, nofun⟩

theorem throw_eq_ok {problem : SyntaxError} {r : α × Cursor} :
    (throw problem : Parser α) c = .ok r ↔ False :=
  ⟨nofun, nofun⟩

theorem exhausted_eq_ok {r : α × Cursor} : (exhausted : Parser α) c = .ok r ↔ False := fail_eq_ok

theorem expect_bind_eq_ok {kind : TokenKind} {f : Token → Parser α} {r : α × Cursor} :
    (expect kind >>= f) c = .ok r ↔ c.next.kind = kind ∧ f c.next c.advance = .ok r := by
  by_cases eq : c.next.kind = kind
  · have found : expect kind c = .ok (c.next, c.advance) := by
      rw [expect, nextIs_bind, if_pos (beq_iff_eq.mpr eq)]
      rfl
    rw [bind_eq_ok]
    simp [found, eq]
  · have missing : ∀ r, expect kind c ≠ .ok r := by
      intro r found
      rw [expect, nextIs_bind, if_neg (by simpa using eq)] at found
      exact fail_eq_ok.mp found
    rw [bind_eq_ok]
    simp [missing, eq]

end Parser

/-- The cursor before tokens and the end of input. -/
def Cursor.start (ts : List Token) (stop : Token) : Cursor :=
  match ts with
  | [] => ⟨stop, []⟩
  | t :: rest => ⟨t, rest ++ [stop]⟩

theorem ofTokens_eq_ok {ts : List Token} {stop : Token} {p : Program} :
    Program.ofTokens ts stop = .ok p ↔
      ∃ c, Parser.statements (ts.length + 8) (ts.length + 8) (.start ts stop) = .ok (p.body, c) := by
  change (Parser.statements (ts.length + 8) (ts.length + 8) (.start ts stop) >>=
    fun r => .ok ⟨r.1⟩) = .ok p ↔ _
  cases Parser.statements (ts.length + 8) (ts.length + 8) (.start ts stop) with
  | error problem => simp [bind, Except.bind]
  | ok r =>
      obtain ⟨body, c⟩ := r
      cases p
      simp [bind, Except.bind]

/-! ### Expressions -/

namespace Expr

/-- A name, or a member of one. -/
def isDotted : Expr → Bool
  | identifier .. => true
  | member _ object _ => object.isDotted
  | _ => false

/-- What holds of every expression that was read. -/
inductive Regular : Expr → Prop where
  | identifier (span : Span) (name : String) : Regular (.identifier span name)
  | integer (span : Span) {value : Int64} {numeral : List Char}
      (written : Integer.parse? numeral = some value) : Regular (.integer span value)
  | float (span : Span) {value : Float} {numeral : List Char}
      (written : Decimal.parseDouble? numeral = some value) : Regular (.float span value)
  | text (span : Span) (value : String) : Regular (.text span value)
  | null (span : Span) : Regular (.null span)
  | assign (span : Span) {target value : Expr} (allowed : target.isTarget = true)
      (left : target.Regular) (right : value.Regular) : Regular (.assign span target value)
  | binary (span : Span) (op : BinaryOp) {left right : Expr} (first : left.Regular)
      (second : right.Regular) : Regular (.binary span op left right)
  | unary (span : Span) (op : UnaryOp) {operand : Expr} (inner : operand.Regular) :
      Regular (.unary span op operand)
  | range (span : Span) {start stop : Expr} (first : start.Regular) (second : stop.Regular) :
      Regular (.range span start stop)
  | member (span : Span) {object : Expr} (field : String) (inner : object.Regular) :
      Regular (.member span object field)
  | index (span : Span) {object i : Expr} (inner : object.Regular) (place : i.Regular) :
      Regular (.index span object i)
  | call (span : Span) {callee : Expr} {args : List Expr} (inner : callee.Regular)
      (each : ∀ a ∈ args, a.Regular) : Regular (.call span callee args)
  | create (span : Span) {classExpr : Expr} {args : List Expr} (named : classExpr.isDotted = true)
      (each : ∀ a ∈ args, a.Regular) : Regular (.create span classExpr args)

theorem Regular.withSpan {e : Expr} (regular : e.Regular) (s : Span) : (e.withSpan s).Regular := by
  cases regular <;> constructor <;> assumption

theorem piecesAt_of_le {strict : Bool} {level : Nat} {e : Expr} (le : level ≤ e.level) :
    e.piecesAt strict level = e.pieces strict :=
  if_neg (Nat.not_lt.mpr le)

theorem piecesAt_of_lt {strict : Bool} {level : Nat} {e : Expr} (lt : e.level < level) :
    e.piecesAt strict level = parenthesise (e.pieces strict) :=
  if_pos lt

end Expr

/-- What is known of an expression that was read from a token of some kind on, at
a place that asks for a level. -/
structure Settled (strict : Bool) (level : Nat) (kind : TokenKind) (e : Expr) : Prop where
  regular : e.Regular
  tight : kind.glues = false → level ≤ e.level
  plain : kind.glues = false → ∀ after, (firstKind (e.pieces strict) after).glues = false

namespace Settled

variable {strict : Bool} {level level' : Nat} {kind : TokenKind} {e e' : Expr}

theorem mono (le : level' ≤ level) (settled : Settled strict level kind e) :
    Settled strict level' kind e :=
  ⟨settled.regular, fun plain => Nat.le_trans le (settled.tight plain), settled.plain⟩

/-- An expression that starts with one that was read. -/
theorem leftmost (settled : Settled strict level kind e) (regular : e'.Regular)
    (tight : level' ≤ e'.level) {rest : List Piece}
    (eq : e'.pieces strict = e.piecesAt strict level ++ rest) : Settled strict level' kind e' := by
  refine ⟨regular, fun _ => tight, ?_⟩
  intro plain after
  rw [eq, Expr.piecesAt_of_le (settled.tight plain), firstKind_append]
  exact settled.plain plain _

/-- A token that glues settles nothing about how the expression is written. -/
theorem of_glues (regular : e.Regular) (glues : kind.glues = true) : Settled strict level kind e := by
  refine ⟨regular, ?_, ?_⟩ <;> intro plain <;> rw [glues] at plain <;> cases plain

/-- An expression that starts with a piece of its own. -/
theorem of_piece (regular : e.Regular) (tight : level ≤ e.level) {p : Piece} {rest : List Piece}
    (eq : e.pieces strict = p :: rest) (plain : p.kind.glues = false) :
    Settled strict level kind e := by
  refine ⟨regular, fun _ => tight, ?_⟩
  intro _ after
  rw [eq, firstKind_cons]
  exact plain

end Settled

namespace Parser

variable {strict : Bool} {sub : Parser Expr} {c c' : Cursor} {e e' : Expr}

theorem commaSeparated_yields {α : Type} {P : α → Prop} {item : Parser α}
    (each : ∀ {c x c'}, item c = .ok (x, c') → P x) {b : Nat} {c c' : Cursor} {xs : List α}
    (ok : commaSeparated item b c = .ok (xs, c')) : xs ≠ [] ∧ ∀ x ∈ xs, P x := by
  induction b generalizing c xs with
  | zero => exact (exhausted_eq_ok.mp ok).elim
  | succ b ih =>
      rw [commaSeparated, bind_eq_ok] at ok
      obtain ⟨x, c₁, first, ok⟩ := ok
      rw [nextIs_bind] at ok
      split at ok
      · rw [eat_bind, bind_eq_ok] at ok
        obtain ⟨rest, c₂, more, ok⟩ := ok
        obtain ⟨rfl, rfl⟩ := pure_eq_ok.mp ok
        refine ⟨by simp, ?_⟩
        intro y mem
        rcases List.mem_cons.mp mem with rfl | mem
        · exact each first
        · exact (ih more).2 y mem
      · obtain ⟨rfl, rfl⟩ := pure_eq_ok.mp ok
        refine ⟨by simp, ?_⟩
        intro y mem
        rw [List.mem_singleton.mp mem]
        exact each first

/-- Arguments in parentheses after the last of them. -/
def argumentsRest (args : List Expr) : Parser (List Expr × Span) := do
  let close ← expect (.symbol .closeParen)
  return (args, close.span)

theorem arguments_eq (sub : Parser Expr) (b : Nat) :
    arguments sub b = (do
      let _ ← expect (.symbol .openParen)
      if ← nextIs (.symbol .closeParen) then argumentsRest []
      else argumentsRest (← commaSeparated sub b)) := rfl

theorem argumentsRest_yields {args args' : List Expr} {span : Span}
    (ok : argumentsRest args c = .ok ((args', span), c')) : args' = args := by
  rw [argumentsRest, expect_bind_eq_ok] at ok
  obtain ⟨eq, _⟩ := pure_eq_ok.mp ok.2
  cases eq
  rfl

theorem arguments_yield (regular : ∀ {c e c'}, sub c = .ok (e, c') → e.Regular) {b : Nat}
    {args : List Expr} {span : Span} (ok : arguments sub b c = .ok ((args, span), c')) :
    ∀ a ∈ args, a.Regular := by
  rw [arguments_eq, expect_bind_eq_ok] at ok
  obtain ⟨_, ok⟩ := ok
  rw [nextIs_bind] at ok
  split at ok
  · rw [argumentsRest_yields ok]
    exact List.forall_mem_nil _
  · rcases bind_eq_ok.mp ok with ⟨args', c₁, read, ok⟩
    rw [argumentsRest_yields ok]
    exact (commaSeparated_yields regular read).2

theorem dotted_yields {b : Nat} (ok : dotted b e c = .ok (e', c')) (named : e.isDotted = true) :
    e'.isDotted = true := by
  induction b generalizing c e with
  | zero => exact (exhausted_eq_ok.mp ok).elim
  | succ b ih =>
      rw [dotted, nextIs_bind] at ok
      split at ok
      · rw [eat_bind, expect_bind_eq_ok] at ok
        exact ih ok.2 named
      · obtain ⟨rfl, rfl⟩ := pure_eq_ok.mp ok
        exact named

theorem atom_yields {t : Token} (atom : atom? t = some (.ok e)) :
    endsBlock t.kind = false ∧ Settled strict 12 t.kind e := by
  unfold atom? at atom
  split at atom
  · rename_i kind
    cases atom
    exact ⟨by rw [kind]; rfl, .of_piece (.identifier ..) (Nat.le_refl _) rfl rfl⟩
  · rename_i kind
    split at atom <;> cases atom
    rename_i written
    exact ⟨by rw [kind]; rfl, .of_piece (.integer _ written) (Nat.le_refl _) rfl rfl⟩
  · rename_i kind
    split at atom <;> cases atom
    rename_i written
    exact ⟨by rw [kind]; rfl, .of_piece (.float _ written) (Nat.le_refl _) rfl rfl⟩
  · rename_i kind
    cases atom
    exact ⟨by rw [kind]; rfl, .of_piece (.text ..) (Nat.le_refl _) rfl rfl⟩
  · rename_i kind
    cases atom
    exact ⟨by rw [kind]; rfl, .of_piece (.null _) (Nat.le_refl _) rfl rfl⟩
  · cases atom

theorem primary_yields (regular : ∀ {c e c'}, sub c = .ok (e, c') → e.Regular) {b : Nat}
    (ok : primary sub b c = .ok (e, c')) :
    endsBlock c.next.kind = false ∧ Settled strict 12 c.next.kind e := by
  rw [primary, peek_bind] at ok
  generalize atom : atom? c.next = found at ok
  split at ok
  · rw [eat_bind] at ok
    obtain ⟨rfl, rfl⟩ := pure_eq_ok.mp ok
    exact atom_yields atom
  · exact (fail_eq_ok.mp ok).elim
  · generalize c.next.kind = kind at ok ⊢
    split at ok
    · rw [parenthesised, eat_bind, bind_eq_ok] at ok
      obtain ⟨inner, c₁, read, ok⟩ := ok
      rw [expect_bind_eq_ok] at ok
      obtain ⟨rfl, rfl⟩ := pure_eq_ok.mp ok.2
      exact ⟨rfl, .of_glues ((regular read).withSpan _) rfl⟩
    · rw [creation, eat_bind, expect_bind_eq_ok] at ok
      rcases bind_eq_ok.mp ok.2 with ⟨classExpr, c₁, read, ok⟩
      rcases bind_eq_ok.mp ok with ⟨⟨args, span⟩, c₂, more, ok⟩
      obtain ⟨rfl, rfl⟩ := pure_eq_ok.mp ok
      exact ⟨rfl, .of_piece (.create _ (dotted_yields read rfl) (arguments_yield regular more))
        (Nat.le_refl _) rfl rfl⟩
    · exact (fail_eq_ok.mp ok).elim

/-- Indices after an expression, one pair of brackets for each. -/
theorem settled_indices {kind : TokenKind} {span : Span} {indices : List Expr}
    (settled : Settled strict 11 kind e) (each : ∀ i ∈ indices, i.Regular) :
    Settled strict 11 kind (indices.foldl (fun object i => .index span object i) e) := by
  induction indices generalizing e with
  | nil => exact settled
  | cons i indices ih =>
      have inner : (Expr.index span e i).Regular :=
        .index span settled.regular (each i List.mem_cons_self)
      exact ih (settled.leftmost inner (Nat.le_refl _) rfl)
        fun j mem => each j (List.mem_cons_of_mem i mem)

theorem suffixes_yield (regular : ∀ {c e c'}, sub c = .ok (e, c') → e.Regular) {b : Nat}
    {kind : TokenKind} (ok : suffixes sub b e c = .ok (e', c'))
    (settled : Settled strict 11 kind e) :
    Settled strict 11 kind e' ∧ Stops 11 c'.next.kind := by
  induction b generalizing c e with
  | zero => exact (exhausted_eq_ok.mp ok).elim
  | succ b ih =>
      rw [suffixes, peek_bind] at ok
      generalize next : c.next.kind = kind' at ok
      split at ok
      · rw [eat_bind, expect_bind_eq_ok] at ok
        exact ih ok.2 (settled.leftmost (.member _ _ settled.regular) (Nat.le_refl _) rfl)
      · rw [eat_bind, bind_eq_ok] at ok
        obtain ⟨indices, c₁, read, ok⟩ := ok
        rw [expect_bind_eq_ok] at ok
        exact ih ok.2 (settled_indices settled (commaSeparated_yields regular read).2)
      · rcases bind_eq_ok.mp ok with ⟨⟨args, span⟩, c₁, read, ok⟩
        exact ih ok (settled.leftmost (.call _ settled.regular (arguments_yield regular read))
          (Nat.le_refl _) rfl)
      · rename_i dot square paren
        obtain ⟨rfl, rfl⟩ := pure_eq_ok.mp ok
        refine ⟨settled, ?_⟩
        intro k follow
        rw [next] at follow
        unfold TokenKind.follow? at follow
        split at follow <;> cases follow <;> first | decide | contradiction

/-- What is known of an expression after it was read. A range leaves a `to` and
an assignment what its value leaves, so below the binary operators no more is
known of the token after it. -/
structure Yields (strict : Bool) (level : Nat) (c : Cursor) (e : Expr) (c' : Cursor) : Prop where
  begins : endsBlock c.next.kind = false
  settled : Settled strict level c.next.kind e
  stops : Stops (max level 2) c'.next.kind

theorem callOrMember_yields (regular : ∀ {c e c'}, sub c = .ok (e, c') → e.Regular) {b : Nat}
    (ok : callOrMember sub b c = .ok (e, c')) : Yields strict 11 c e c' := by
  rcases bind_eq_ok.mp ok with ⟨first, c₁, read, ok⟩
  obtain ⟨begins, settled⟩ := primary_yields regular read
  obtain ⟨settled', stops⟩ := suffixes_yield regular ok (settled.mono (by decide))
  exact ⟨begins, settled', stops⟩

theorem sign_glues {kind : TokenKind} {op : UnaryOp} (sign : sign? kind = some op) :
    kind.glues = true ∧ endsBlock kind = false := by
  unfold sign? at sign
  split at sign
  · exact ⟨rfl, rfl⟩
  · exact ⟨rfl, rfl⟩
  · cases sign

/-- No token follows at the level of `NOT` or of a sign. -/
theorem stops_prefixes {kind : TokenKind} (stops : Stops 11 kind) : Stops 8 kind := by
  intro k follow
  have lt : k < 11 := stops k follow
  unfold TokenKind.follow? at follow
  split at follow <;> cases follow <;> omega

theorem signs_yield (regular : ∀ {c e c'}, sub c = .ok (e, c') → e.Regular) {b : Nat}
    (ok : signs sub b c = .ok (e, c')) : Yields strict 8 c e c' := by
  induction b generalizing c e with
  | zero => exact (exhausted_eq_ok.mp ok).elim
  | succ b ih =>
      rw [signs, peek_bind] at ok
      generalize sign : sign? c.next.kind = found at ok
      split at ok
      · rw [eat_bind, bind_eq_ok] at ok
        obtain ⟨operand, c₁, read, ok⟩ := ok
        obtain ⟨rfl, rfl⟩ := pure_eq_ok.mp ok
        obtain ⟨glues, begins⟩ := sign_glues sign
        exact ⟨begins, .of_glues (.unary _ _ (ih read).settled.regular) glues, (ih read).stops⟩
      · have read : Yields strict 11 c e c' := callOrMember_yields regular ok
        exact ⟨read.begins, read.settled.mono (by decide), stops_prefixes read.stops⟩

theorem negation_yields (regular : ∀ {c e c'}, sub c = .ok (e, c') → e.Regular) {b : Nat}
    (ok : negation sub b c = .ok (e, c')) : Yields strict 8 c e c' := by
  induction b generalizing c e with
  | zero => exact (exhausted_eq_ok.mp ok).elim
  | succ b ih =>
      rw [negation, peek_bind] at ok
      split at ok
      · rename_i word
        rw [eat_bind, bind_eq_ok] at ok
        obtain ⟨operand, c₁, read, ok⟩ := ok
        obtain ⟨rfl, rfl⟩ := pure_eq_ok.mp ok
        refine ⟨?_, .of_piece (.unary _ _ (ih read).settled.regular) (Nat.le_refl _) rfl rfl,
          (ih read).stops⟩
        simp only [Bool.or_eq_true, beq_iff_eq] at word
        rcases word with word | word <;> rw [word] <;> rfl
      · exact signs_yield regular ok

theorem chain_yields {L b : Nat} {level : Level} {tighter : List Level} {operand : Parser Expr}
    {kind : TokenKind} (rung : Rung L (level :: tighter))
    (each : ∀ {c e c'}, operand c = .ok (e, c') → e.Regular ∧ Stops (L + 1) c'.next.kind)
    (ok : chain level operand b e c = .ok (e', c')) (settled : Settled strict L kind e)
    (stops : Stops (L + 1) c.next.kind) : Settled strict L kind e' ∧ Stops L c'.next.kind := by
  induction b generalizing c e with
  | zero => exact (exhausted_eq_ok.mp ok).elim
  | succ b ih =>
      rw [chain, peek_bind] at ok
      generalize next : level.lookup c.next.kind = found at ok
      split at ok
      · obtain ⟨rfl, rfl⟩ := pure_eq_ok.mp ok
        exact ⟨settled, rung.stops_of_lookup stops next⟩
      · rename_i op
        rw [eat_bind, bind_eq_ok] at ok
        obtain ⟨right, c₁, read, ok⟩ := ok
        obtain ⟨-, rfl⟩ := rung.of_lookup next
        obtain ⟨regular, stops'⟩ := each read
        exact ih ok (settled.leftmost (.binary _ op settled.regular regular) (Nat.le_refl _) rfl)
          stops'

theorem operators_yield (regular : ∀ {c e c'}, sub c = .ok (e, c') → e.Regular) {L b : Nat}
    {levels : List Level} (rung : Rung L levels) (ok : operators sub b levels c = .ok (e, c')) :
    Yields strict L c e c' := by
  induction levels generalizing L c e c' with
  | nil =>
      obtain rfl : L = 8 := rung.2
      exact negation_yields regular ok
  | cons level tighter ih =>
      have le : max (L + 1) 2 = L + 1 := Nat.max_eq_left (Nat.le_succ_of_le rung.two_le)
      have le' : max L 2 = L := Nat.max_eq_left rung.two_le
      rcases bind_eq_ok.mp ok with ⟨left, c₁, read, ok⟩
      have first := ih rung.tail read
      obtain ⟨settled, stops⟩ := chain_yields rung
        (fun read => ⟨(ih rung.tail read).settled.regular, le ▸ (ih rung.tail read).stops⟩) ok
        (first.settled.mono (Nat.le_succ L)) (le ▸ first.stops)
      exact ⟨first.begins, settled, le'.symm ▸ stops⟩

theorem range_yields (regular : ∀ {c e c'}, sub c = .ok (e, c') → e.Regular) {b : Nat}
    (ok : range sub b c = .ok (e, c')) : Yields strict 1 c e c' := by
  rcases bind_eq_ok.mp ok with ⟨start, c₁, read, ok⟩
  have first : Yields strict 2 c start c₁ := operators_yield regular .ladder read
  rw [nextIs_bind] at ok
  split at ok
  · rw [eat_bind, bind_eq_ok] at ok
    obtain ⟨stop, c₂, read, ok⟩ := ok
    obtain ⟨rfl, rfl⟩ := pure_eq_ok.mp ok
    have second : Yields strict 2 c₁.advance stop c₂ := operators_yield regular .ladder read
    exact ⟨first.begins, first.settled.leftmost
      (.range _ first.settled.regular second.settled.regular) (Nat.le_refl _) rfl, second.stops⟩
  · obtain ⟨rfl, rfl⟩ := pure_eq_ok.mp ok
    exact ⟨first.begins, first.settled.mono (by decide), first.stops⟩

theorem assignment_yields (regular : ∀ {c e c'}, sub c = .ok (e, c') → e.Regular) {b : Nat}
    (ok : assignment sub b c = .ok (e, c')) : Yields strict 0 c e c' := by
  induction b generalizing c e with
  | zero => exact (exhausted_eq_ok.mp ok).elim
  | succ b ih =>
      rcases bind_eq_ok.mp ok with ⟨target, c₁, read, ok⟩
      have first : Yields strict 1 c target c₁ := range_yields regular read
      rw [nextIs_bind] at ok
      split at ok
      · rw [eat_bind] at ok
        split at ok
        · rename_i allowed
          rcases bind_eq_ok.mp ok with ⟨value, c₂, read, ok⟩
          obtain ⟨rfl, rfl⟩ := pure_eq_ok.mp ok
          exact ⟨first.begins, first.settled.leftmost
            (.assign _ allowed first.settled.regular (ih read).settled.regular) (Nat.le_refl _) rfl,
            (ih read).stops⟩
        · exact (throw_eq_ok.mp ok).elim
      · obtain ⟨rfl, rfl⟩ := pure_eq_ok.mp ok
        exact ⟨first.begins, first.settled.mono (by decide), first.stops⟩

theorem expression_yields {b : Nat} (ok : expression b c = .ok (e, c')) : Yields strict 0 c e c' := by
  induction b generalizing c e c' with
  | zero => exact (exhausted_eq_ok.mp ok).elim
  | succ b ih => exact assignment_yields (fun read => (ih read).settled.regular) ok

theorem regular_of_expression {b : Nat} (ok : expression b c = .ok (e, c')) : e.Regular :=
  have yields : Yields true 0 c e c' := expression_yields ok
  yields.settled.regular

theorem bound_yields {depth : Nat} (ok : bound depth c = .ok (e, c')) : Yields strict 2 c e c' :=
  operators_yield (fun read => regular_of_expression read) .ladder ok

end Parser

end Pseudocode

import Mathlib.Data.Nat.Init
import Pseudocode.Proofs.Reading.Basic

/-!
Reading the text of an expression.

Every expression that could have been read is read from its own text, at every
level of the ladder. The proof goes by the levels: `Readable` is what the parser
of a level does with the pieces (`ReadsAs`, for all bounds that are large enough),
`Readable.lower` takes it to the looser levels, and parentheses take it back to the
tightest one. Left operands and objects are read by loops, for which `Readable` says
where the loop stands after them.
-/

namespace Pseudocode

namespace Parser

/-- The expression up to spans. -/
def Same (e e' : Expr) : Prop := e'.bare = e.bare

/-- Where a loop over operators or suffixes stands after an expression: the rounds
that are left to it and the expression so far. -/
def Reached (b : Nat) (ps : List Piece) (e : Expr) (x : Nat × Expr) : Prop :=
  b < x.1 + ps.length ∧ Same e x.2

/-- By how much the bound of a level's parser exceeds the number of pieces. -/
def slack (L : Nat) : Nat := if L = 0 then 3 else if L ≤ 8 then 2 else if L ≤ 10 then 1 else 0

theorem slack_operator {L : Nat} (loose : 2 ≤ L) (tight : L ≤ 8) : slack L = 2 := by
  rw [slack, if_neg (by omega), if_pos tight]

theorem slack_sign {L : Nat} (loose : 9 ≤ L) (tight : L ≤ 10) : slack L = 1 := by
  rw [slack, if_neg (by omega), if_neg (by omega), if_pos tight]

/-- What the parser of a level does with the pieces of an expression. -/
def ReadsAt (D b : Nat) (e : Expr) (ps : List Piece) (L : Nat) : Prop :=
  if L = 0 then Reads (assignment (expression D) b) ps (Stops 0) pure (Same e)
  else if L = 1 then Reads (range (expression D) b) ps (Stops 1) pure (Same e)
  else if L ≤ 7 then
    ∀ level tighter, Rung L (level :: tighter) →
      Reads (operators (expression D) b (level :: tighter)) ps (Stops (L + 1))
        (fun x => chain level (operators (expression D) b tighter) x.1 x.2) (Reached b ps e)
  else if L = 8 then Reads (negation (expression D) b) ps (Stops 8) pure (Same e)
  else if L ≤ 10 then Reads (signs (expression D) b) ps (Stops 8) pure (Same e)
  else if L = 11 then
    Reads (callOrMember (expression D) b) ps (fun _ => True)
      (fun x => suffixes (expression D) x.1 x.2) (Reached b ps e)
  else Reads (primary (expression D) b) ps (fun _ => True) pure (Same e)

/-- Pieces that start like an expression of a level. -/
def Headed (L : Nat) (ps : List Piece) : Prop :=
  ∀ k, ∃ m, (firstKind ps k).lead? = some m ∧ L ≤ m

structure Readable (D b : Nat) (e : Expr) (ps : List Piece) (L : Nat) : Prop where
  head : Headed L ps
  reads : ReadsAt D b e ps L

variable {D b L : Nat} {e : Expr} {ps : List Piece}

theorem Headed.mono {L' : Nat} (head : Headed L ps) (le : L' ≤ L) : Headed L' ps := by
  intro k
  obtain ⟨m, lead, tight⟩ := head k
  exact ⟨m, lead, Nat.le_trans le tight⟩

theorem Headed.of_piece {p : Piece} {m : Nat} (lead : p.kind.lead? = some m) (tight : L ≤ m) :
    Headed L (p :: ps) :=
  fun _ => ⟨m, lead, tight⟩

theorem Headed.append {qs : List Piece} (head : Headed L ps) : Headed L (ps ++ qs) := by
  intro k
  rw [firstKind_append]
  exact head _

theorem Headed.length_pos (head : Headed L ps) : 0 < ps.length := by
  rw [List.length_pos_iff]
  rintro rfl
  obtain ⟨m, lead, _⟩ := head .endOfInput
  cases lead

theorem Headed.unsigned (head : Headed L ps) (tight : 11 ≤ L) (k : TokenKind) :
    sign? (firstKind ps k) = none := by
  obtain ⟨m, lead, le⟩ := head k
  unfold sign?
  split
  · rename_i eq
    rw [eq] at lead
    cases lead
    omega
  · rename_i eq
    rw [eq] at lead
    cases lead
    omega
  · rfl

theorem Headed.positive (head : Headed L ps) (tight : 9 ≤ L) (k : TokenKind) :
    (firstKind ps k == .keyword .not || firstKind ps k == .symbol .bang) = false := by
  obtain ⟨m, lead, le⟩ := head k
  rw [Bool.or_eq_false_iff, beq_eq_false_iff_ne, beq_eq_false_iff_ne]
  constructor <;> intro eq <;> rw [eq] at lead <;> cases lead <;> omega

/-! ### From tight to loose -/

/-- A loop over operators ends before a token that is none of them. -/
theorem chain_stops {level : Level} {tighter : List Level} {operand : Parser Expr} {n : Nat}
    {x : Expr} (rung : Rung L (level :: tighter)) (left : 0 < n) (same : Same e x) :
    Reads (chain level operand n x) [] (Stops L) pure (Same e) := by
  obtain ⟨n, rfl⟩ := Nat.exists_eq_add_one.mpr left
  rw [chain]
  refine .peekKind fun t k stops kind => ?_
  rw [kind, firstKind_nil, rung.lookup_of_stops stops]
  exact .gives same

theorem suffixes_stop {n : Nat} {x : Expr} {sub : Parser Expr} (left : 0 < n) (same : Same e x) :
    Reads (suffixes sub n x) [] (Stops 8) pure (Same e) := by
  obtain ⟨n, rfl⟩ := Nat.exists_eq_add_one.mpr left
  rw [suffixes]
  refine .peekKind fun t k stops kind => ?_
  rw [kind, firstKind_nil]
  split
  · exact absurd (stops 11 rfl) (by decide)
  · exact absurd (stops 11 rfl) (by decide)
  · exact absurd (stops 11 rfl) (by decide)
  · exact .gives same

theorem readsAt_operators (loose : 2 ≤ L) (tight : L ≤ 7) :
    ReadsAt D b e ps L ↔ ∀ level tighter, Rung L (level :: tighter) →
      Reads (operators (expression D) b (level :: tighter)) ps (Stops (L + 1))
        (fun x => chain level (operators (expression D) b tighter) x.1 x.2) (Reached b ps e) := by
  unfold ReadsAt
  rw [if_neg (by omega), if_neg (by omega), if_pos tight]

/-- The parser of a level of operators, up to a token that stops it. -/
theorem Readable.operators {levels : List Level} (readable : Readable D b e ps L)
    (rung : Rung L levels) (fits : ps.length + 2 ≤ b) :
    Reads (operators (expression D) b levels) ps (Stops L) pure (Same e) := by
  cases levels with
  | nil =>
      obtain rfl : L = 8 := rung.2
      exact readable.reads
  | cons level tighter =>
      have reads := (readsAt_operators rung.two_le rung.level_le).mp readable.reads
      refine (reads level tighter rung).finish (fun k stops => stops.mono (Nat.le_succ L)) ?_
      rintro ⟨n, x⟩ ⟨left, same⟩
      exact chain_stops rung (by omega) same

theorem readsAt_suffixes : ReadsAt D b e ps 11 ↔
    Reads (callOrMember (expression D) b) ps (fun _ => True)
      (fun x => suffixes (expression D) x.1 x.2) (Reached b ps e) :=
  Iff.rfl

theorem Readable.suffixed (readable : Readable D b e ps 12) : Readable D b e ps 11 := by
  refine ⟨readable.head.mono (by decide), ?_⟩
  have reads : Reads (primary (expression D) b) ps (fun _ => True) pure (Same e) := readable.reads
  have start := readable.head.length_pos
  apply readsAt_suffixes.mpr
  refine (reads.bind (suffixes (expression D) b)).finish (fun _ _ => trivial) ?_
  intro x same
  exact .done (q := fun x : Nat × Expr => suffixes (expression D) x.1 x.2) (a := (b, x))
    ⟨by omega, same⟩

theorem Readable.signed (readable : Readable D b e ps 11) (fits : ps.length ≤ b) :
    Readable D (b + 1) e ps 10 := by
  refine ⟨readable.head.mono (by decide), ?_⟩
  have reads := readsAt_suffixes.mp readable.reads
  change Reads (signs (expression D) (b + 1)) ps (Stops 8) pure (Same e)
  rw [signs]
  refine .peekKind fun t k _ kind => ?_
  rw [kind, readable.head.unsigned (Nat.le_refl _)]
  refine reads.finish (fun _ _ => trivial) ?_
  rintro ⟨n, x⟩ ⟨left, same⟩
  exact suffixes_stop (by omega) same

theorem readsAt_signs (loose : 9 ≤ L) (tight : L ≤ 10) :
    ReadsAt D b e ps L ↔ Reads (signs (expression D) b) ps (Stops 8) pure (Same e) := by
  unfold ReadsAt
  rw [if_neg (by omega), if_neg (by omega), if_neg (by omega), if_neg (by omega), if_pos tight]

theorem Readable.negated (readable : Readable D b e ps 9) : Readable D (b + 1) e ps 8 := by
  refine ⟨readable.head.mono (by decide), ?_⟩
  have reads : Reads (signs (expression D) b) ps (Stops 8) pure (Same e) := readable.reads
  change Reads (negation (expression D) (b + 1)) ps (Stops 8) pure (Same e)
  rw [negation]
  refine .peekKind fun t k _ kind => ?_
  rw [kind, if_neg (by rw [readable.head.positive (Nat.le_refl _) k]; decide)]
  exact reads

theorem Readable.chained (readable : Readable D b e ps (L + 1)) (loose : 2 ≤ L) (tight : L ≤ 7)
    (fits : ps.length + 2 ≤ b) : Readable D b e ps L := by
  refine ⟨readable.head.mono (Nat.le_succ L), ?_⟩
  have start := readable.head.length_pos
  apply (readsAt_operators loose tight).mpr
  intro level tighter rung
  have reads := readable.operators rung.tail fits
  refine (reads.bind (chain level (Parser.operators (expression D) b tighter) b)).finish
    (fun _ stops => stops) ?_
  intro x same
  exact .done (q := fun x : Nat × Expr => chain level _ x.1 x.2) (a := (b, x)) ⟨by omega, same⟩

/-- A level whose operator is missing: what the next tighter level reads, and a look at the
next token. -/
theorem reads_without {p : Parser Expr} {f : Expr → Bool → Parser Expr} {kind : TokenKind}
    (reads : Reads p ps (Stops (L + 1)) pure (Same e)) (follows : kind.follow? = some L)
    (missing : ∀ x, f x false = pure x) :
    Reads (p >>= fun x => nextIs kind >>= f x) ps (Stops L) pure (Same e) := by
  refine (reads.bind _).finish (fun _ stops => stops.mono (Nat.le_succ L)) ?_
  intro x same
  refine .nextIs false ?_ (missing x ▸ .gives same)
  intro k stops
  rw [firstKind_nil, beq_eq_false_iff_ne]
  rintro rfl
  exact absurd (stops L follows) (Nat.lt_irrefl L)

theorem Readable.ranged (readable : Readable D b e ps 2) (fits : ps.length + 2 ≤ b) :
    Readable D b e ps 1 := by
  refine ⟨readable.head.mono (by decide), ?_⟩
  have reads := readable.operators .ladder fits
  change Reads (range (expression D) b) ps (Stops 1) pure (Same e)
  exact reads_without reads rfl fun _ => rfl

theorem Readable.assigned (readable : Readable D b e ps 1) : Readable D (b + 1) e ps 0 := by
  refine ⟨readable.head.mono (by decide), ?_⟩
  have reads : Reads (range (expression D) b) ps (Stops 1) pure (Same e) := readable.reads
  change Reads (assignment (expression D) (b + 1)) ps (Stops 0) pure (Same e)
  exact reads_without reads rfl fun _ => rfl

/-- From one level to the next looser one. -/
theorem Readable.descend (tight : L < 12)
    (readable : ∀ b, ps.length + slack (L + 1) ≤ b → Readable D b e ps (L + 1))
    (fits : ps.length + slack L ≤ b) : Readable D b e ps L := by
  match L with
  | 0 =>
      change ps.length + 3 ≤ b at fits
      obtain ⟨b, rfl⟩ : ∃ n, b = n + 1 := ⟨b - 1, by omega⟩
      exact (readable b (Nat.le_of_succ_le_succ fits)).assigned
  | 1 => exact (readable b fits).ranged fits
  | 2 | 3 | 4 | 5 | 6 | 7 => exact (readable b fits).chained (by decide) (by decide) fits
  | 8 =>
      change ps.length + 2 ≤ b at fits
      obtain ⟨b, rfl⟩ : ∃ n, b = n + 1 := ⟨b - 1, by omega⟩
      exact (readable b (Nat.le_of_succ_le_succ fits)).negated
  | 9 => exact ⟨(readable b fits).head.mono (by decide), (readable b fits).reads⟩
  | 10 =>
      change ps.length + 1 ≤ b at fits
      obtain ⟨b, rfl⟩ : ∃ n, b = n + 1 := ⟨b - 1, by omega⟩
      exact (readable b (Nat.le_of_succ_le_succ fits)).signed (Nat.le_of_succ_le_succ fits)
  | 11 => exact (readable b fits).suffixed

/-- From one level to all looser ones. -/
theorem Readable.lower {M : Nat} (tight : M ≤ 12)
    (readable : ∀ b, ps.length + slack M ≤ b → Readable D b e ps M) (le : L ≤ M)
    (fits : ps.length + slack L ≤ b) : Readable D b e ps L := by
  induction le using Nat.decreasingInduction generalizing b with
  | of_succ L lt ih => exact .descend (Nat.lt_of_lt_of_le lt tight) (fun b fits => ih fits) fits
  | self => exact readable b fits

/-! ### Pieces at a level -/

/-- Pieces that are read as an expression by the parser of a level, if its bounds are
above their number. -/
def ReadsAs (ps : List Piece) (L : Nat) (e : Expr) : Prop :=
  ∀ D b, ps.length < D → ps.length + slack L ≤ b → Readable D b e ps L

theorem readable_parenthesise (reads : Reads (expression D) ps (Stops 0) pure (Same e)) :
    Readable D b e (parenthesise ps) 12 := by
  refine ⟨.of_piece rfl (Nat.le_refl 12), ?_⟩
  change Reads (primary (expression D) b) (parenthesise ps) (fun _ => True) pure (Same e)
  rw [primary]
  refine .peek fun t spells => ?_
  have kind : t.kind = .symbol .openParen := spells.1
  have none : atom? t = none := by rw [atom?, kind]
  rw [none, kind]
  refine .eat fun opening _ => ?_
  refine reads.andThen (fun _ _ => stops_of_none rfl 0) fun x same => ?_
  refine .expect rfl fun close _ => ?_
  exact .gives ((x.bare_withSpan _).trans same)

namespace ReadsAs

theorem lower {M : Nat} (reads : ReadsAs ps M e) (tight : M ≤ 12) (le : L ≤ M) : ReadsAs ps L e :=
  fun D _ deep fits => .lower tight (fun b fits => reads D b deep fits) le fits

theorem head (reads : ReadsAs ps L e) : Headed L ps :=
  (reads _ _ (Nat.lt_succ_self _) (Nat.le_refl _)).head

theorem nested (reads : ReadsAs ps 0 e) (fits : ps.length + 3 ≤ D) :
    Reads (expression D) ps (Stops 0) pure (Same e) := by
  obtain ⟨D, rfl⟩ : ∃ n, D = n + 1 := ⟨D - 1, by omega⟩
  have readable : Readable D (D + 1) e ps 0 := reads _ _ (by omega) fits
  exact readable.reads

/-- How an expression is read does not depend on its spans. -/
theorem of_bare {e' : Expr} (reads : ReadsAs ps L e) (same : e'.bare = e.bare) : ReadsAs ps L e' := by
  intro D b deep fits
  obtain ⟨head, reads⟩ := reads D b deep fits
  refine ⟨head, ?_⟩
  unfold ReadsAt Reached Same at reads ⊢
  rwa [same]

theorem inParens (reads : ReadsAs ps 0 e) : ReadsAs (parenthesise ps) 12 e := by
  intro D b deep _
  simp only [parenthesise, List.length_cons, List.length_append, List.length_nil] at deep
  exact readable_parenthesise (reads.nested (by omega))

theorem atom {piece : Piece} (head : Headed 12 [piece])
    (atom : ∀ t, t.Spells piece → ∃ x, atom? t = some (.ok x) ∧ Same e x) : ReadsAs [piece] 12 e := by
  intro D b _ _
  refine ⟨head, ?_⟩
  change Reads (primary (expression D) b) [piece] (fun _ => True) pure (Same e)
  rw [primary]
  refine .peek fun t spells => ?_
  obtain ⟨x, found, same⟩ := atom t spells
  rw [found]
  exact .eat fun _ _ => .gives same

end ReadsAs

/-! ### Parentheses -/

/-- An expression that is read from its own text at every level. -/
def Legible (strict : Bool) (e : Expr) : Prop :=
  ∀ D b L, L ≤ 12 → (e.piecesAt strict L).length < D →
    (e.piecesAt strict L).length + slack L ≤ b → Readable D b e (e.piecesAt strict L) L

variable {strict : Bool}

theorem Legible.readsAs (legible : Legible strict e) (L : Nat) (le : L ≤ 12) :
    ReadsAs (e.piecesAt strict L) L e :=
  fun D b deep fits => legible D b L le deep fits

theorem Legible.readsAs_zero (legible : Legible strict e) : ReadsAs (e.pieces strict) 0 e := by
  have reads := legible.readsAs 0 (Nat.zero_le 12)
  rwa [Expr.piecesAt_of_le (Nat.zero_le _)] at reads

theorem Legible.begins (legible : Legible strict e) : Headed 0 (e.pieces strict) :=
  legible.readsAs_zero.head

theorem Legible.reads (legible : Legible strict e) (fits : (e.pieces strict).length + 3 ≤ D) :
    Reads (expression D) (e.pieces strict) (Stops 0) pure (Same e) :=
  legible.readsAs_zero.nested fits

/-- What the parser of its own level does with an expression decides how it is
read everywhere: parentheses are only written around it where it is too loose. -/
theorem legible_of_own (own : ReadsAs (e.pieces strict) e.level e) : Legible strict e := by
  intro D b L le deep fits
  by_cases tight : L ≤ e.level
  · rw [Expr.piecesAt_of_le tight] at deep fits ⊢
    exact own.lower e.level_le tight D b deep fits
  · rw [Expr.piecesAt_of_lt (Nat.lt_of_not_le tight)] at deep fits ⊢
    have bare : ReadsAs (e.pieces strict) 0 e := own.lower e.level_le (Nat.zero_le _)
    exact bare.inParens.lower (Nat.le_refl 12) le D b deep fits

/-! ### Names and literals -/

theorem legible_identifier (span : Span) (name : String) : Legible strict (.identifier span name) := by
  refine legible_of_own (.atom (.of_piece rfl (Nat.le_refl 12)) ?_)
  rintro t ⟨kind, rfl⟩
  exact ⟨.identifier t.span t.value, by rw [atom?, kind], rfl⟩

theorem legible_integer (span : Span) (value : Int64) : Legible strict (.integer span value) := by
  refine legible_of_own (.atom (.of_piece rfl (Nat.le_refl 12)) ?_)
  rintro t ⟨kind, written⟩
  exact ⟨.integer t.span value, by rw [atom?, kind, written], rfl⟩

theorem legible_float (span : Span) (value : Float) : Legible strict (.float span value) := by
  refine legible_of_own (.atom (.of_piece rfl (Nat.le_refl 12)) ?_)
  rintro t ⟨kind, written⟩
  exact ⟨.float t.span value, by rw [atom?, kind, written], rfl⟩

theorem legible_text (span : Span) (value : String) : Legible strict (.text span value) := by
  refine legible_of_own (.atom (.of_piece rfl (Nat.le_refl 12)) ?_)
  rintro t ⟨kind, rfl⟩
  exact ⟨.text t.span t.value, by rw [atom?, kind], rfl⟩

theorem legible_null (span : Span) : Legible strict (.null span) := by
  refine legible_of_own (.atom (.of_piece rfl (Nat.le_refl 12)) ?_)
  rintro t ⟨kind, _⟩
  exact ⟨.null t.span, by rw [atom?, kind], rfl⟩

/-! ### Operators -/

/-- One round of the loop over operators takes a left operand to the expression. -/
theorem chain_round {level : Level} {tighter : List Level} {operand : Parser Expr} {op : BinaryOp}
    {left right left' : Expr} {n : Nat} (rung : Rung op.level (level :: tighter)) (span : Span)
    (same : Same left left')
    (reads : Reads operand ps (Stops (op.level + 1)) pure (Same right)) :
    Reads (chain level operand (n + 1) left') (op.piece :: ps) (Stops (op.level + 1))
      (fun x => chain level operand n x) (Same (.binary span op left right)) := by
  rw [chain]
  refine .peek fun t spells => ?_
  rw [spells.kind_eq, rung.lookup_piece rfl]
  refine .eat fun _ _ => ?_
  refine (reads.bind _).finish (fun _ stops => stops) fun right' same' => ?_
  refine .done (q := fun x => chain level operand n x) ?_
  rw [Same, Expr.bare, Expr.bare, same, same']

namespace ReadsAs

variable {qs : List Piece}

theorem assign (span : Span) {target value : Expr} (allowed : target.isTarget = true)
    (left : ReadsAs ps 1 target) (right : ReadsAs qs 0 value) :
    ReadsAs (ps ++ .symbol .equals :: qs) 0 (.assign span target value) := by
  intro D b deep fits
  rw [List.length_append, List.length_cons] at deep fits
  simp only [slack, ↓reduceIte] at fits
  obtain ⟨b, rfl⟩ : ∃ n, b = n + 1 := ⟨b - 1, by omega⟩
  have first : Readable D b target ps 1 := left D b (by omega) (by simp [slack]; omega)
  have second : Readable D b value qs 0 := right D b (by omega) (by simp [slack]; omega)
  have reads : Reads (Parser.range (expression D) b) ps (Stops 1) pure (Same target) :=
    first.reads
  refine ⟨(first.head.mono (Nat.zero_le 1)).append, ?_⟩
  change Reads (assignment (expression D) (b + 1)) _ (Stops 0) pure _
  rw [assignment]
  refine reads.andThen ?_ fun target' same => ?_
  · intro _ _ k follow
    cases follow
    decide
  · refine .nextIs true (fun _ _ => rfl) (.eat fun equals _ => ?_)
    have allowed' : target'.isTarget = true := by
      rw [← target'.isTarget_bare, same, target.isTarget_bare, allowed]
    simp only [if_pos allowed']
    refine (Reads.bind second.reads _).finish (fun _ stops => stops) fun value' same' => .gives ?_
    rw [Same, Expr.bare, Expr.bare, same, same']

theorem range (span : Span) {start stop : Expr} (left : ReadsAs ps 2 start)
    (right : ReadsAs qs 2 stop) :
    ReadsAs (ps ++ .keyword .to_ :: qs) 1 (.range span start stop) := by
  intro D b deep fits
  rw [List.length_append, List.length_cons] at deep fits
  change _ + 2 ≤ b at fits
  have first : Readable D b start ps 2 := left D b (by omega) (by simp [slack]; omega)
  have second : Readable D b stop qs 2 := right D b (by omega) (by simp [slack]; omega)
  refine ⟨(first.head.mono (by decide)).append, ?_⟩
  change Reads (Parser.range (expression D) b) _ (Stops 1) pure _
  rw [Parser.range]
  refine (first.operators .ladder (by omega)).andThen ?_ fun start' same => ?_
  · intro _ _ k follow
    cases follow
    decide
  · refine .nextIs true (fun _ _ => rfl) (.eat fun _ _ => ?_)
    refine ((second.operators .ladder (by omega)).bind _).finish
      (fun _ stops => stops.mono (by decide)) fun stop' same' => .gives ?_
    rw [Same, Expr.bare, Expr.bare, same, same']

theorem binary (span : Span) (op : BinaryOp) {left right : Expr} (first : ReadsAs ps op.level left)
    (second : ReadsAs qs (op.level + 1) right) :
    ReadsAs (ps ++ op.piece :: qs) op.level (.binary span op left right) := by
  intro D b deep fits
  obtain ⟨loose, tight⟩ := op.level_bounds
  rw [List.length_append, List.length_cons] at deep fits
  rw [slack_operator loose (by omega)] at fits
  have before : Readable D b left ps op.level :=
    first D b (by omega) (by rw [slack_operator loose (by omega)]; omega)
  have after : Readable D b right qs (op.level + 1) :=
    second D b (by omega) (by rw [slack_operator (by omega) (by omega)]; omega)
  refine ⟨before.head.append, ?_⟩
  apply (readsAt_operators loose tight).mpr
  intro level tighter rung
  refine ((readsAt_operators loose tight).mp before.reads level tighter rung).trans ?_ ?_
  · intro _ _ k follow
    rw [firstKind_cons, op.follow?_piece] at follow
    cases follow
    exact Nat.lt_succ_self _
  · rintro ⟨n, left'⟩ ⟨rounds, same⟩
    dsimp only at rounds same ⊢
    obtain ⟨n, rfl⟩ : ∃ m, n = m + 1 := ⟨n - 1, by omega⟩
    have round := chain_round (n := n) rung span same (after.operators rung.tail (by omega))
    refine round.finish (fun _ stops => stops) fun x same' => ?_
    refine .done (q := fun x : Nat × Expr => chain level _ x.1 x.2) (a := (n, x)) ⟨?_, same'⟩
    rw [List.length_append, List.length_cons]
    dsimp only
    omega

/-- Either of the two signs for a negation. -/
theorem not (span : Span) {piece : Piece} {operand : Expr}
    (negates : piece.kind = .keyword .not ∨ piece.kind = .symbol .bang) (inner : ReadsAs ps 8 operand) :
    ReadsAs (piece :: ps) 8 (.unary span .not operand) := by
  intro D b deep fits
  rw [List.length_cons] at deep fits
  change _ + 2 ≤ b at fits
  obtain ⟨b, rfl⟩ : ∃ n, b = n + 1 := ⟨b - 1, by omega⟩
  have readable : Readable D b operand ps 8 := inner D b (by omega) (by simp [slack]; omega)
  have reads : Reads (negation (expression D) b) _ (Stops 8) pure (Same operand) := readable.reads
  have lead : piece.kind.lead? = some 8 := by
    rcases negates with kind | kind <;> rw [kind] <;> rfl
  refine ⟨.of_piece lead (Nat.le_refl 8), ?_⟩
  change Reads (negation (expression D) (b + 1)) _ (Stops 8) pure _
  rw [negation]
  refine .peek fun t spells => ?_
  rw [if_pos (by rw [spells.kind_eq]; simpa using negates)]
  refine .eat fun _ _ => ?_
  refine (reads.bind _).finish (fun _ stops => stops) fun operand' same => .gives ?_
  rw [Same, Expr.bare, Expr.bare, same]

/-- Both signs, at either of their levels. -/
theorem sign (span : Span) {op : UnaryOp} {operand : Expr} {M : Nat}
    (sign : sign? op.piece.kind = some op) (own : 9 ≤ L ∧ L ≤ 10) (under : 9 ≤ M ∧ M ≤ 10)
    (inner : ReadsAs ps M operand) : ReadsAs (op.piece :: ps) L (.unary span op operand) := by
  intro D b deep fits
  rw [List.length_cons] at deep fits
  rw [slack_sign own.1 own.2] at fits
  obtain ⟨b, rfl⟩ : ∃ n, b = n + 1 := ⟨b - 1, by omega⟩
  have readable : Readable D b operand ps M :=
    inner D b (by omega) (by rw [slack_sign under.1 under.2]; omega)
  have reads := (readsAt_signs under.1 under.2).mp readable.reads
  constructor
  · have lead : op.piece.kind.lead? = some 10 := by
      cases op with
      | not => cases sign
      | plus => rfl
      | neg => rfl
    exact .of_piece lead own.2
  · refine (readsAt_signs own.1 own.2).mpr ?_
    rw [Parser.signs]
    refine .peek fun t spells => ?_
    rw [spells.kind_eq, sign]
    refine .eat fun _ _ => ?_
    refine (reads.bind _).finish (fun _ stops => stops) fun operand' same => .gives ?_
    rw [Same, Expr.bare, Expr.bare, same]

end ReadsAs

theorem legible_assign (span : Span) {target value : Expr} (allowed : target.isTarget = true)
    (left : Legible strict target) (right : Legible strict value) :
    Legible strict (.assign span target value) :=
  legible_of_own (.assign span allowed (left.readsAs 1 (by decide)) right.readsAs_zero)

theorem legible_range (span : Span) {start stop : Expr} (left : Legible strict start)
    (right : Legible strict stop) : Legible strict (.range span start stop) :=
  legible_of_own (.range span (left.readsAs 2 (by decide)) (right.readsAs 2 (by decide)))

theorem legible_binary (span : Span) (op : BinaryOp) {left right : Expr}
    (first : Legible strict left) (second : Legible strict right) :
    Legible strict (.binary span op left right) := by
  have bounds := op.level_bounds
  exact legible_of_own (.binary span op (first.readsAs op.level (by omega))
    (second.readsAs (op.level + 1) (by omega)))

theorem legible_not (span : Span) {operand : Expr} (inner : Legible strict operand) :
    Legible strict (.unary span .not operand) :=
  legible_of_own (.not span (.inl rfl) (inner.readsAs 8 (by decide)))

/-- Both signs, whether or not a plus sign after a minus sign has parentheses. -/
theorem legible_sign (span : Span) {op : UnaryOp} {operand : Expr}
    (sign : sign? op.piece.kind = some op) (inner : Legible strict operand) :
    Legible strict (.unary span op operand) := by
  have own : 9 ≤ op.level ∧ op.level ≤ 10 := by
    cases op with
    | not => cases sign
    | plus => decide
    | neg => decide
  have under : 9 ≤ op.operandLevel strict ∧ op.operandLevel strict ≤ 10 := by
    cases op with
    | not => cases sign
    | plus => exact ⟨Nat.le_refl 9, Nat.le_succ 9⟩
    | neg => cases strict <;> decide
  exact legible_of_own (.sign span sign own under (inner.readsAs _ (by omega)))

/-! ### Suffixes -/

/-- A token that ends a list of items. -/
def EndsItems (k : TokenKind) : Prop := Stops 0 k ∧ k ≠ .symbol .comma

theorem endsItems_symbol {symbol : Symbol} (ends : (TokenKind.symbol symbol).follow? = none)
    (ne : symbol ≠ .comma) : EndsItems (.symbol symbol) :=
  ⟨stops_of_none ends 0, mt TokenKind.symbol.inj ne⟩

/-- Items with the pieces that each of them is read from. -/
theorem items_read {sub : Parser Expr} {items : List (List Piece × Expr)} (some : items ≠ [])
    (each : ∀ x ∈ items, Reads sub x.1 (Stops 0) pure (Same x.2)) (fits : items.length ≤ b) :
    Reads (commaSeparated sub b) (commas (items.map Prod.fst)) EndsItems pure
      fun es => es.map Expr.bare = (items.map Prod.snd).map Expr.bare := by
  induction items generalizing b with
  | nil => exact absurd rfl some
  | cons x items ih =>
      rw [List.length_cons] at fits
      obtain ⟨b, rfl⟩ : ∃ n, b = n + 1 := ⟨b - 1, by omega⟩
      have first := each x List.mem_cons_self
      rw [commaSeparated]
      cases items with
      | nil =>
          refine (first.bind _).finish (fun _ ends => ends.1) fun e same => ?_
          refine .nextIs false ?_ (.gives ?_)
          · intro k ends
            exact beq_eq_false_iff_ne.mpr ends.2
          · rw [List.map_singleton, List.map_singleton, List.map_singleton, same]
      | cons y items =>
          refine first.andThen (fun _ _ => stops_of_none rfl 0) fun e same => ?_
          refine .nextIs true (fun _ _ => rfl) (.eat fun _ _ => ?_)
          have rest := ih (by simp) (fun z mem => each z (List.mem_cons_of_mem _ mem))
            (Nat.le_of_succ_le_succ fits)
          refine (rest.bind _).finish (fun _ ends => ends) fun es same' => .gives ?_
          rw [List.map_cons, List.map_cons, List.map_cons, same, same']

/-- Each expression with its own text. -/
def withPieces (strict : Bool) (es : List Expr) : List (List Piece × Expr) :=
  es.map fun e => (e.pieces strict, e)

theorem withPieces_fst (es : List Expr) :
    (withPieces strict es).map Prod.fst = es.map (Expr.pieces strict) := by
  simp [withPieces]

theorem withPieces_snd (es : List Expr) : (withPieces strict es).map Prod.snd = es := by
  rw [withPieces, List.map_map]
  exact List.map_id es

theorem forall_withPieces {es : List Expr} {P : List Piece × Expr → Prop}
    (each : ∀ e ∈ es, P (e.pieces strict, e)) : ∀ x ∈ withPieces strict es, P x := by
  intro x mem
  obtain ⟨e, found, rfl⟩ := List.mem_map.mp mem
  exact each e found

theorem commaSeparated_reads {sub : Parser Expr} {es : List Expr} (some : es ≠ [])
    (each : ∀ e ∈ es, Reads sub (e.pieces strict) (Stops 0) pure (Same e)) (fits : es.length ≤ b) :
    Reads (commaSeparated sub b) (commas (es.map (Expr.pieces strict))) EndsItems pure
      fun es' => es'.map Expr.bare = es.map Expr.bare := by
  have some' : withPieces strict es ≠ [] := by simpa [withPieces] using some
  have fits' : (withPieces strict es).length ≤ b := by simpa [withPieces] using fits
  have reads := items_read some' (forall_withPieces each) fits'
  rwa [withPieces_fst, withPieces_snd] at reads

section Items

variable {items : List (List Piece × Expr)} (each : ∀ x ∈ items, ReadsAs x.1 0 x.2)
include each

theorem headed_commas (some : items ≠ []) : Headed 0 (commas (items.map Prod.fst)) := by
  match items with
  | [] => exact absurd rfl some
  | [x] => exact (each x List.mem_cons_self).head
  | x :: y :: items => exact (each x List.mem_cons_self).head.append

/-- The items are nested, so a bound on all of them holds for each. -/
theorem items_reads_expression (deep : (commas (items.map Prod.fst)).length + 3 ≤ D)
    {x : List Piece × Expr} (mem : x ∈ items) :
    Reads (expression D) x.1 (Stops 0) pure (Same x.2) := by
  have le := length_le_commas (List.mem_map_of_mem (f := Prod.fst) mem)
  exact (each x mem).nested (by omega)

theorem arguments_read (deep : (commas (items.map Prod.fst)).length + 3 ≤ D)
    (fits : (commas (items.map Prod.fst)).length < b) :
    Reads (arguments (expression D) b) (parenthesise (commas (items.map Prod.fst)))
      (fun _ => True) pure fun x => x.1.map Expr.bare = (items.map Prod.snd).map Expr.bare := by
  rw [arguments_eq]
  refine .expect rfl fun _ _ => ?_
  have rest (args : List Expr) (same : args.map Expr.bare = (items.map Prod.snd).map Expr.bare) :
      Reads (argumentsRest args) [.symbol .closeParen] (fun _ => True) pure
        fun x => x.1.map Expr.bare = (items.map Prod.snd).map Expr.bare :=
    .expect rfl fun close _ => .gives same
  by_cases some : items = []
  · subst some
    exact .nextIs true (fun _ _ => rfl) (rest [] rfl)
  · refine .nextIs false ?_ ?_
    · intro k _
      obtain ⟨m, lead, _⟩ := (headed_commas each some).append k
      rw [beq_eq_false_iff_ne]
      intro eq
      rw [eq] at lead
      cases lead
    · have count := count_le_commas (items.map Prod.fst)
      rw [List.length_map] at count
      exact (items_read some (fun _ => items_reads_expression each deep) (by omega)).andThen
        (fun _ _ => endsItems_symbol rfl (by decide)) rest

end Items

/-- Indices one after the other are the same up to spans when object and indices are. -/
theorem bare_indices (s : Span) (object : Expr) (is : List Expr) :
    (is.foldl (fun object i => .index s object i) object).bare =
      (is.map Expr.bare).foldl (fun object i => .index .unplaced object i) object.bare := by
  induction is generalizing object with
  | nil => rfl
  | cons i is ih => rw [List.foldl_cons, ih, List.map_cons, List.foldl_cons, Expr.bare]

namespace ReadsAs

variable {items : List (List Piece × Expr)}

/-- One round of the loop over suffixes takes an object to the expression. -/
theorem suffix {object : Expr} {suffix : List Piece} (some : 0 < suffix.length)
    (inner : ReadsAs ps 11 object)
    (round : ∀ {D n x}, suffix.length + 1 < D → suffix.length ≤ n → Same object x →
      Reads (suffixes (expression D) (n + 1) x) suffix (fun _ => True)
        (fun x => suffixes (expression D) n x) (Same e)) : ReadsAs (ps ++ suffix) 11 e := by
  intro D b deep fits
  rw [List.length_append] at deep fits
  change _ + 0 ≤ b at fits
  have readable : Readable D b object ps 11 := inner D b (by omega) (by change _ + 0 ≤ b; omega)
  have start := readable.head.length_pos
  refine ⟨readable.head.append, ?_⟩
  apply readsAt_suffixes.mpr
  refine (readsAt_suffixes.mp readable.reads).trans (fun _ _ => trivial) ?_
  rintro ⟨n, x⟩ ⟨rounds, same⟩
  dsimp only at rounds same ⊢
  obtain ⟨n, rfl⟩ : ∃ m, n = m + 1 := ⟨n - 1, by omega⟩
  refine (round (by omega) (by omega) same).finish (fun _ _ => trivial) fun y same' => ?_
  refine .done (q := fun x : Nat × Expr => suffixes (expression D) x.1 x.2) (a := (n, y))
    ⟨?_, same'⟩
  rw [List.length_append]
  dsimp only
  omega

theorem member (span : Span) {object : Expr} (field : String) (inner : ReadsAs ps 11 object) :
    ReadsAs (ps ++ [.symbol .dot, .name field]) 11 (.member span object field) := by
  refine inner.suffix (by simp) ?_
  intro D n x _ _ same
  rw [suffixes]
  refine .peek fun t spells => ?_
  rw [spells.kind_eq]
  refine .eat fun _ _ => .expect rfl ?_
  rintro name ⟨_, rfl⟩
  refine .done ?_
  rw [Same, Expr.bare, Expr.bare, same]

theorem index (span : Span) {object : Expr} (inner : ReadsAs ps 11 object) (some : items ≠ [])
    (each : ∀ x ∈ items, ReadsAs x.1 0 x.2) :
    ReadsAs (ps ++ .symbol .openSquare :: (commas (items.map Prod.fst) ++ [.symbol .closeSquare])) 11
      ((items.map Prod.snd).foldl (fun object i => .index span object i) object) := by
  refine inner.suffix (by simp) ?_
  intro D n x deep fits same
  simp only [List.length_cons, List.length_append, List.length_nil] at deep fits
  have count := count_le_commas (items.map Prod.fst)
  rw [List.length_map] at count
  rw [suffixes]
  refine .peek fun t spells => ?_
  rw [spells.kind_eq]
  refine .eat fun _ _ => ?_
  refine (items_read some (fun _ => items_reads_expression each (by omega)) (by omega)).andThen
    (fun _ _ => endsItems_symbol rfl (by decide)) fun indices same' => ?_
  refine .expect rfl fun close _ => .done ?_
  rw [Same, bare_indices, bare_indices, same, same']

theorem call (span : Span) {callee : Expr} (inner : ReadsAs ps 11 callee)
    (each : ∀ x ∈ items, ReadsAs x.1 0 x.2) :
    ReadsAs (ps ++ parenthesise (commas (items.map Prod.fst))) 11
      (.call span callee (items.map Prod.snd)) := by
  refine inner.suffix (by simp [parenthesise]) ?_
  intro D n x deep fits same
  simp only [parenthesise, List.length_cons, List.length_append, List.length_nil] at deep fits
  rw [suffixes]
  refine .peek fun t spells => ?_
  rw [spells.kind_eq]
  refine ((arguments_read each (by omega) (by omega)).bind _).finish (fun _ _ => trivial) ?_
  rintro ⟨args', close⟩ same'
  refine .done ?_
  rw [Same, Expr.bare, Expr.bare, same, Expr.bareOf_eq, Expr.bareOf_eq, same']

end ReadsAs

theorem legible_member (span : Span) {object : Expr} (field : String)
    (inner : Legible strict object) : Legible strict (.member span object field) :=
  legible_of_own (.member span field (inner.readsAs 11 (by decide)))

theorem legible_index (span : Span) {object i : Expr} (inner : Legible strict object)
    (place : Legible strict i) : Legible strict (.index span object i) := by
  have each : ∀ x ∈ [(i.pieces strict, i)], ReadsAs x.1 0 x.2 := by
    intro x mem
    rw [List.mem_singleton.mp mem]
    exact place.readsAs_zero
  exact legible_of_own (.index span (inner.readsAs 11 (by decide)) (List.cons_ne_nil _ _) each)

theorem legible_call (span : Span) {callee : Expr} {args : List Expr} (inner : Legible strict callee)
    (each : ∀ a ∈ args, Legible strict a) : Legible strict (.call span callee args) := by
  have items : ∀ x ∈ withPieces strict args, ReadsAs x.1 0 x.2 :=
    forall_withPieces fun a mem => (each a mem).readsAs_zero
  have reads := (inner.readsAs 11 (by decide)).call span items
  rw [withPieces_fst, withPieces_snd, ← Expr.piecesOf_eq] at reads
  exact legible_of_own reads

/-! ### New objects -/

theorem dotted_stops {n : Nat} {x : Expr} (left : 0 < n) (same : Same e x) :
    Reads (dotted n x) [] (· ≠ .symbol .dot) pure (Same e) := by
  obtain ⟨n, rfl⟩ := Nat.exists_eq_add_one.mpr left
  rw [dotted]
  exact .nextIs false (fun k other => beq_eq_false_iff_ne.mpr other) (.gives same)

/-- The name of a class. -/
def className (b : Nat) : Parser Expr := do
  let name ← expect .identifier
  dotted b (.identifier name.span name.value)

theorem level_of_dotted (named : e.isDotted = true) : 11 ≤ e.level := by
  cases e with
  | identifier span name => exact Nat.le_succ 11
  | member span object field => exact Nat.le_refl 11
  | _ => cases named

/-- A name needs no parentheses before a dot. -/
theorem pieces_member (span : Span) {object : Expr} (named : object.isDotted = true)
    (field : String) : (Expr.member span object field).pieces strict =
      object.pieces strict ++ [.symbol .dot, .name field] := by
  rw [← Expr.piecesAt_of_le (level_of_dotted named)]
  rfl

theorem className_reached (named : e.isDotted = true) (fits : (e.pieces strict).length ≤ b) :
    Reads (className b) (e.pieces strict) (fun _ => True) (fun x : Nat × Expr => dotted x.1 x.2)
      (Reached b (e.pieces strict) e) := by
  induction e using Expr.isDotted.induct with
  | case1 span name =>
      refine .expect rfl ?_
      rintro t ⟨_, rfl⟩
      exact .done (q := fun x : Nat × Expr => dotted x.1 x.2) (a := (b, _)) ⟨Nat.lt_succ_self b, rfl⟩
  | case2 span object field ih =>
      have inner : object.isDotted = true := named
      rw [pieces_member span inner, List.length_append, List.length_cons] at fits
      rw [pieces_member span inner]
      refine (ih named (by omega)).trans (fun _ _ => trivial) ?_
      rintro ⟨n, x⟩ ⟨rounds, same⟩
      dsimp only at rounds same ⊢
      obtain ⟨n, rfl⟩ : ∃ m, n = m + 1 := ⟨n - 1, by omega⟩
      rw [dotted]
      refine .nextIs true (fun _ _ => rfl) (.eat fun _ _ => .expect rfl ?_)
      rintro t ⟨_, rfl⟩
      refine .done (q := fun x : Nat × Expr => dotted x.1 x.2) (a := (n, _)) ⟨?_, ?_⟩
      · rw [List.length_append]
        simp only [List.length_cons, List.length_nil]
        omega
      · rw [Same, Expr.bare, Expr.bare, same]
  | case3 e notName notMember =>
      rw [Expr.isDotted.eq_3 e notName notMember] at named
      cases named

theorem className_reads (named : e.isDotted = true) (fits : (e.pieces strict).length ≤ b) :
    Reads (className b) (e.pieces strict) (· ≠ .symbol .dot) pure (Same e) := by
  refine (className_reached named fits).finish (fun _ _ => trivial) ?_
  rintro ⟨n, x⟩ ⟨rounds, same⟩
  exact dotted_stops (by dsimp only at rounds; omega) same

theorem creation_eq (sub : Parser Expr) (b : Nat) :
    creation sub b = (do
      let keyword ← eat
      let classExpr ← className b
      let (args, close) ← arguments sub b
      return .create (keyword.span.merge close) classExpr args) := by
  simp only [className, bind_assoc]
  rfl

theorem ReadsAs.create (strict : Bool) (span : Span) {classExpr : Expr} {items : List (List Piece × Expr)}
    (named : classExpr.isDotted = true) (each : ∀ x ∈ items, ReadsAs x.1 0 x.2) :
    ReadsAs (.keyword .new :: (classExpr.pieces strict ++ parenthesise (commas (items.map Prod.fst))))
      12 (.create span classExpr (items.map Prod.snd)) := by
  intro D b deep fits
  simp only [parenthesise, List.length_cons, List.length_append, List.length_nil] at deep fits
  refine ⟨.of_piece rfl (Nat.le_refl 12), ?_⟩
  change Reads (primary (expression D) b) _ (fun _ => True) pure _
  rw [primary]
  refine .peek fun t spells => ?_
  have kind : t.kind = .keyword .new := spells.1
  have none : atom? t = none := by rw [atom?, kind]
  rw [none, kind, creation_eq]
  refine .eat fun keyword _ => ?_
  refine (className_reads named (by omega)).andThen
    (fun _ _ => mt TokenKind.symbol.inj (by decide)) fun classExpr' same => ?_
  refine ((arguments_read each (by omega) (by omega)).bind _).finish (fun _ _ => trivial) ?_
  rintro ⟨args', close⟩ same'
  refine .gives ?_
  rw [Same, Expr.bare, Expr.bare, same, Expr.bareOf_eq, Expr.bareOf_eq, same']

theorem legible_create (span : Span) {classExpr : Expr} {args : List Expr}
    (named : classExpr.isDotted = true) (each : ∀ a ∈ args, Legible strict a) :
    Legible strict (.create span classExpr args) := by
  have items : ∀ x ∈ withPieces strict args, ReadsAs x.1 0 x.2 :=
    forall_withPieces fun a mem => (each a mem).readsAs_zero
  have reads := ReadsAs.create strict span named items
  rw [withPieces_fst, withPieces_snd, ← Expr.piecesOf_eq] at reads
  exact legible_of_own reads

/-! ### All expressions -/

theorem legible_of_regular (regular : e.Regular) : Legible strict e := by
  induction regular with
  | identifier span name => exact legible_identifier span name
  | integer span _ => exact legible_integer span _
  | float span _ => exact legible_float span _
  | text span value => exact legible_text span value
  | null span => exact legible_null span
  | assign span allowed _ _ left right => exact legible_assign span allowed left right
  | binary span op _ _ left right => exact legible_binary span op left right
  | unary span op _ inner =>
      cases op with
      | not => exact legible_not span inner
      | plus => exact legible_sign span rfl inner
      | neg => exact legible_sign span rfl inner
  | range span _ _ left right => exact legible_range span left right
  | member span field _ inner => exact legible_member span field inner
  | index span _ _ inner place => exact legible_index span inner place
  | call span _ _ inner each => exact legible_call span inner each
  | create span named _ each => exact legible_create span named each

end Parser

end Pseudocode

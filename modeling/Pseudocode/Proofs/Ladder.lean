import Pseudocode.Proofs.Printing

/-!
The ladder of precedence, seen from the tokens.

`TokenKind.follow?` is the level of the operator or suffix that a token is after
an operand, and `Stops` says that an expression of some level ends before it. The
levels of the parser's ladder are numbered like those of the printed operators.
-/

namespace Pseudocode

/-! ### First tokens -/

/-- The kind of the first token of pieces that stand before a token of some kind. -/
def firstKind (ps : List Piece) (after : TokenKind) : TokenKind :=
  match ps with
  | [] => after
  | p :: _ => p.kind

@[simp] theorem firstKind_nil (after : TokenKind) : firstKind [] after = after := rfl

@[simp] theorem firstKind_cons (p : Piece) (ps : List Piece) (after : TokenKind) :
    firstKind (p :: ps) after = p.kind := rfl

@[simp] theorem firstKind_append (ps qs : List Piece) (after : TokenKind) :
    firstKind (ps ++ qs) after = firstKind ps (firstKind qs after) := by
  cases ps <;> rfl

/-- Tokens that can start a statement and also go on with an expression. -/
def TokenKind.glues : TokenKind → Bool
  | .symbol .openParen | .symbol .plus | .symbol .minus => true
  | _ => false

/-- The level of the operator or suffix that a token is after an operand. -/
def TokenKind.follow? : TokenKind → Option Nat
  | .symbol .equals => some 0
  | .keyword .to_ => some 1
  | .symbol .star | .symbol .slash | .keyword .mod | .keyword .div => some 2
  | .symbol .plus | .symbol .minus => some 3
  | .symbol .caret => some 4
  | .keyword .or => some 5
  | .keyword .and => some 6
  | .symbol .equalEqual | .symbol .notEqual | .symbol .greater | .symbol .less
  | .symbol .greaterEqual | .symbol .lessEqual => some 7
  | .symbol .dot | .symbol .openSquare | .symbol .openParen => some 11
  | _ => none

/-- The level of the tightest expressions that start with a token. -/
def TokenKind.lead? : TokenKind → Option Nat
  | .keyword .not | .symbol .bang => some 8
  | .symbol .plus | .symbol .minus => some 10
  | .identifier | .integer | .float | .text | .keyword .null | .keyword .new
  | .symbol .openParen => some 12
  | _ => none

/-- A token that does not go on with an expression of the given level. -/
def Stops (level : Nat) (kind : TokenKind) : Prop := ∀ k, kind.follow? = some k → k < level

theorem Stops.mono {level level' : Nat} {kind : TokenKind} (le : level ≤ level')
    (stops : Stops level kind) : Stops level' kind :=
  fun k eq => Nat.lt_of_lt_of_le (stops k eq) le

theorem stops_of_none {kind : TokenKind} (none : kind.follow? = none) (level : Nat) :
    Stops level kind := by
  intro k eq
  rw [none] at eq
  cases eq

/-- An expression that is not an assignment or a range leaves no token that could
start a statement and go on with it. -/
theorem Stops.glues {kind : TokenKind} (stops : Stops 2 kind) : kind.glues = false := by
  unfold TokenKind.glues
  split
  · exact absurd (stops 11 rfl) (by decide)
  · exact absurd (stops 3 rfl) (by decide)
  · exact absurd (stops 3 rfl) (by decide)
  · rfl

/-! ### The ladder -/

theorem BinaryOp.level_bounds (op : BinaryOp) : 2 ≤ op.level ∧ op.level ≤ 7 := by
  cases op <;> decide

theorem UnaryOp.level_bounds (op : UnaryOp) : 8 ≤ op.level ∧ op.level ≤ 10 := by
  cases op <;> decide

theorem Expr.level_le (e : Expr) : e.level ≤ 12 := by
  cases e with
  | binary span op left right => exact Nat.le_trans op.level_bounds.2 (by decide)
  | unary span op operand => exact Nat.le_trans op.level_bounds.2 (by decide)
  | _ => simp [Expr.level]

theorem BinaryOp.follow?_piece (op : BinaryOp) : op.piece.kind.follow? = some op.level := by
  cases op <;> rfl

/-- A token that follows like a binary operator is one. -/
theorem exists_op_of_follow? {kind : TokenKind} {k : Nat} (follow : kind.follow? = some k)
    (loose : 2 ≤ k) (tight : k ≤ 7) : ∃ op : BinaryOp, op.piece.kind = kind ∧ op.level = k := by
  unfold TokenKind.follow? at follow
  split at follow <;> cases follow <;> try omega
  · exact ⟨.mul, rfl, rfl⟩
  · exact ⟨.div, rfl, rfl⟩
  · exact ⟨.mod, rfl, rfl⟩
  · exact ⟨.intDiv, rfl, rfl⟩
  · exact ⟨.add, rfl, rfl⟩
  · exact ⟨.sub, rfl, rfl⟩
  · exact ⟨.pow, rfl, rfl⟩
  · exact ⟨.or, rfl, rfl⟩
  · exact ⟨.and, rfl, rfl⟩
  · exact ⟨.eq, rfl, rfl⟩
  · exact ⟨.notEq, rfl, rfl⟩
  · exact ⟨.greater, rfl, rfl⟩
  · exact ⟨.less, rfl, rfl⟩
  · exact ⟨.greaterEq, rfl, rfl⟩
  · exact ⟨.lessEq, rfl, rfl⟩

/-- The tight end of the ladder from the given level on. -/
def Rung (L : Nat) (levels : List Parser.Level) : Prop :=
  levels <:+ Parser.ladder ∧ L + levels.length = 8

namespace Rung

variable {L : Nat} {level : Parser.Level} {tighter : List Parser.Level} {kind : TokenKind}
  {op : BinaryOp}

theorem ladder : Rung 2 Parser.ladder := ⟨List.suffix_rfl, rfl⟩

theorem tail (rung : Rung L (level :: tighter)) : Rung (L + 1) tighter := by
  obtain ⟨suffix, eq⟩ := rung
  rw [List.length_cons] at eq
  exact ⟨(List.suffix_cons ..).trans suffix, by omega⟩

theorem level_le (rung : Rung L (level :: tighter)) : L ≤ 7 := by
  have eq := rung.2
  rw [List.length_cons] at eq
  omega

theorem two_le {levels : List Parser.Level} (rung : Rung L levels) : 2 ≤ L := by
  obtain ⟨suffix, eq⟩ := rung
  have le : levels.length ≤ 6 := suffix.length_le
  omega

/-- Each level with its number. -/
theorem eq (rung : Rung L (level :: tighter)) :
    (L = 2 ∧ level = [(.symbol .star, .mul), (.symbol .slash, .div), (.keyword .mod, .mod),
      (.keyword .div, .intDiv)]) ∨
    (L = 3 ∧ level = [(.symbol .plus, .add), (.symbol .minus, .sub)]) ∨
    (L = 4 ∧ level = [(.symbol .caret, .pow)]) ∨
    (L = 5 ∧ level = [(.keyword .or, .or)]) ∨
    (L = 6 ∧ level = [(.keyword .and, .and)]) ∨
    (L = 7 ∧ level = [(.symbol .equalEqual, .eq), (.symbol .notEqual, .notEq),
      (.symbol .greater, .greater), (.symbol .less, .less), (.symbol .greaterEqual, .greaterEq),
      (.symbol .lessEqual, .lessEq)]) := by
  obtain ⟨suffix, eq⟩ := rung
  simp only [Parser.ladder, List.suffix_cons_iff, List.cons.injEq, List.suffix_nil,
    reduceCtorEq, or_false] at suffix
  rcases suffix with ⟨rfl, rfl⟩ | ⟨rfl, rfl⟩ | ⟨rfl, rfl⟩ | ⟨rfl, rfl⟩ | ⟨rfl, rfl⟩ | ⟨rfl, rfl⟩ <;>
    simp only [List.length_cons, List.length_nil] at eq <;> simp <;> omega

theorem of_lookup (rung : Rung L (level :: tighter)) (found : level.lookup kind = some op) :
    op.piece.kind = kind ∧ op.level = L := by
  have each : ∀ entry ∈ level, entry.2.piece.kind = entry.1 ∧ entry.2.level = L := by
    rcases rung.eq with ⟨rfl, rfl⟩ | ⟨rfl, rfl⟩ | ⟨rfl, rfl⟩ | ⟨rfl, rfl⟩ | ⟨rfl, rfl⟩ | ⟨rfl, rfl⟩ <;>
      decide
  obtain ⟨before, after, rfl, _⟩ := List.lookup_eq_some_iff.mp found
  exact each (kind, op) (by simp)

theorem lookup_piece (rung : Rung L (level :: tighter)) (eq : op.level = L) :
    level.lookup op.piece.kind = some op := by
  rcases rung.eq with ⟨rfl, rfl⟩ | ⟨rfl, rfl⟩ | ⟨rfl, rfl⟩ | ⟨rfl, rfl⟩ | ⟨rfl, rfl⟩ | ⟨rfl, rfl⟩ <;>
    cases op <;> first | rfl | cases eq

/-- A token stops a level when it stops the tighter ones and is no operator of
this one. -/
theorem stops_of_lookup (rung : Rung L (level :: tighter)) (stops : Stops (L + 1) kind)
    (missing : level.lookup kind = none) : Stops L kind := by
  intro k follow
  have le : k ≤ L := Nat.lt_succ_iff.mp (stops k follow)
  refine Nat.lt_of_le_of_ne le ?_
  rintro rfl
  obtain ⟨op, rfl, eq⟩ := exists_op_of_follow? follow rung.two_le rung.level_le
  rw [rung.lookup_piece eq] at missing
  cases missing

theorem lookup_of_stops (rung : Rung L (level :: tighter)) (stops : Stops L kind) :
    level.lookup kind = none := by
  cases found : level.lookup kind with
  | none => rfl
  | some op =>
      obtain ⟨rfl, eq⟩ := rung.of_lookup found
      exact absurd (stops op.level op.follow?_piece) (by omega)

end Rung

end Pseudocode

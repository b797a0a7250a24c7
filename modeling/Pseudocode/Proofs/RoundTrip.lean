import Pseudocode.Proofs.Reading.Statement

/-!
Parsing undoes printing.

A program that was parsed can be written down again, and what is written is read
as the same program up to spans.
-/

namespace Pseudocode

/-! ### Every piece can be written -/

/-- Pieces of which each one can be written. -/
def Writable (ps : List Piece) : Prop := ∀ p ∈ ps, ∃ t : Token, t.Spells p

namespace Writable

variable {p : Piece} {ps qs : List Piece} {strict : Bool}

@[simp] theorem nil : Writable [] := List.forall_mem_nil _

@[simp] theorem cons_iff : Writable (p :: ps) ↔ (∃ t : Token, t.Spells p) ∧ Writable ps :=
  List.forall_mem_cons

@[simp] theorem append_iff : Writable (ps ++ qs) ↔ Writable ps ∧ Writable qs :=
  List.forall_mem_append

@[simp] theorem keyword (k : Keyword) : ∃ t : Token, t.Spells (.keyword k) :=
  ⟨⟨.keyword k, k.text, .unplaced, 0, 0⟩, rfl, rfl⟩

@[simp] theorem symbol (s : Symbol) : ∃ t : Token, t.Spells (.symbol s) :=
  ⟨⟨.symbol s, s.text, .unplaced, 0, 0⟩, rfl, rfl⟩

@[simp] theorem name (n : String) : ∃ t : Token, t.Spells (.name n) :=
  ⟨⟨.identifier, n, .unplaced, 0, 0⟩, rfl, rfl⟩

@[simp] theorem text (content : String) : ∃ t : Token, t.Spells (.text content) :=
  ⟨⟨.text, content, .unplaced, 0, 0⟩, rfl, rfl⟩

theorem integer {value : Int64} {numeral : List Char} (written : Integer.parse? numeral = some value) :
    ∃ t : Token, t.Spells (.integer value) :=
  ⟨⟨.integer, String.ofList numeral, .unplaced, 0, 0⟩, rfl, by simpa using written⟩

theorem float {value : Float} {numeral : List Char}
    (written : Decimal.parseDouble? numeral = some value) : ∃ t : Token, t.Spells (.float value) :=
  ⟨⟨.float, String.ofList numeral, .unplaced, 0, 0⟩, rfl, by simpa using written⟩

@[simp] theorem binary (op : BinaryOp) : ∃ t : Token, t.Spells op.piece := by
  cases op <;> simp [BinaryOp.piece]

@[simp] theorem unary (op : UnaryOp) : ∃ t : Token, t.Spells op.piece := by
  cases op <;> simp [UnaryOp.piece]

@[simp] theorem routineName (n : String) : ∃ t : Token, t.Spells (routineNamePiece n) := by
  unfold routineNamePiece
  split <;> simp

@[simp] theorem parenthesise_iff : Writable (parenthesise ps) ↔ Writable ps := by
  simp [parenthesise]

@[simp] theorem guarded_iff {e : Expr} {level : Nat} :
    Writable (e.guarded level ps) ↔ Writable ps := by
  unfold Expr.guarded
  split <;> simp

@[simp] theorem commas_iff {lists : List (List Piece)} :
    Writable (commas lists) ↔ ∀ ps ∈ lists, Writable ps := by
  induction lists using commas.induct with
  | case1 => simp [commas]
  | case2 qs => simp [commas]
  | case3 qs rest more ih => simp [commas.eq_3 _ _ more, ih]

end Writable

theorem writable_dotted {strict : Bool} {e : Expr} (named : e.isDotted = true) :
    Writable (e.pieces strict) := by
  induction e using Expr.isDotted.induct with
  | case1 span name => simp [Expr.pieces]
  | case2 span object field ih => simpa [Expr.pieces] using ih named
  | case3 e notName notMember =>
      rw [Expr.isDotted.eq_3 e notName notMember] at named
      cases named

theorem writable_of_regular {strict : Bool} {e : Expr} (regular : e.Regular) :
    Writable (e.pieces strict) := by
  induction regular with
  | identifier span name => simp [Expr.pieces]
  | integer span written => simpa [Expr.pieces] using Writable.integer written
  | float span written => simpa [Expr.pieces] using Writable.float written
  | text span value => simp [Expr.pieces]
  | null span => simp [Expr.pieces]
  | assign span _ _ _ left right => simp [Expr.pieces, left, right]
  | binary span op _ _ left right => simp [Expr.pieces, left, right]
  | unary span op _ inner => simp [Expr.pieces, inner]
  | range span _ _ left right => simp [Expr.pieces, left, right]
  | member span field _ inner => simp [Expr.pieces, inner]
  | index span _ _ inner place => simp [Expr.pieces, inner, place]
  | call span _ _ inner each => simpa [Expr.pieces, Expr.piecesOf_eq, inner] using each
  | create span named _ each =>
      simpa [Expr.pieces, Expr.piecesOf_eq, writable_dotted named] using each

theorem writable_block {strict : Bool} {body : List Stmt}
    (each : ∀ s ∈ body, Writable (s.pieces strict)) : Writable (Stmt.piecesOf strict body) := by
  induction body with
  | nil => simp [Stmt.piecesOf]
  | cons s body ih =>
      rw [Stmt.piecesOf, Writable.append_iff]
      exact ⟨each s List.mem_cons_self, ih fun s mem => each s (List.mem_cons_of_mem _ mem)⟩

theorem writable_routine {strict : Bool} {decl : RoutineDecl}
    (each : ∀ s ∈ decl.body, Writable (s.pieces strict)) : Writable (decl.pieces strict) := by
  cases decl
  simp [RoutineDecl.pieces, writable_block each]

theorem writable_members {strict : Bool} {ms : List Member}
    (each : ∀ m ∈ ms, ∀ r ∈ m.routine?, Writable (r.pieces strict)) :
    Writable (Member.piecesOf strict ms) := by
  induction ms with
  | nil => simp [Member.piecesOf]
  | cons m ms ih =>
      rw [Member.piecesOf, Writable.append_iff]
      refine ⟨?_, ih fun m mem => each m (List.mem_cons_of_mem _ mem)⟩
      cases m with
      | field visibility span name => simp [Member.pieces]
      | method visibility span decl => simpa [Member.pieces] using each _ List.mem_cons_self decl rfl

theorem writable_arms {strict : Bool} {cases : List Case}
    (tests : ∀ arm ∈ cases, ∀ e ∈ arm.test, e.Regular)
    (each : ∀ arm ∈ cases, ∀ s ∈ arm.body, Writable (s.pieces strict)) :
    Writable (Case.piecesOf strict cases) := by
  induction cases with
  | nil => simp [Case.piecesOf]
  | cons arm cases ih =>
      rw [Case.piecesOf, Writable.append_iff]
      refine ⟨?_, ih (fun arm mem => tests arm (List.mem_cons_of_mem _ mem))
        fun arm mem => each arm (List.mem_cons_of_mem _ mem)⟩
      obtain ⟨test, body⟩ := arm
      have block : Writable (Stmt.piecesOf strict body) :=
        writable_block (each _ List.mem_cons_self)
      cases test with
      | none => simp [Case.pieces, block]
      | some e =>
          simp [Case.pieces, block, writable_of_regular (tests _ List.mem_cons_self e rfl)]

theorem writable_stmt {strict : Bool} {s : Stmt} (regular : s.Regular strict) :
    Writable (s.pieces strict) := by
  induction regular with
  | declare span name regular => simp [Stmt.pieces, writable_of_regular regular]
  | array span name some each =>
      simpa [Stmt.pieces] using fun d mem => writable_of_regular (each d mem)
  | routine distinct tidy _ each => exact writable_routine each
  | @classDecl decl distinct params tidy _ each =>
      have members : Writable (Member.piecesOf strict decl.members) :=
        writable_members fun m mem r some => writable_routine (each m mem r some)
      obtain ⟨name, parent, members, span⟩ := decl
      cases parent <;> simpa [Stmt.pieces, ClassDecl.pieces] using members
  | @conditional condition yes no regular tidy _ tidyNo _ each eachNo =>
      cases no with
      | none => simp [Stmt.pieces, writable_of_regular regular, writable_block each]
      | some no =>
          simp [Stmt.pieces, writable_of_regular regular, writable_block each,
            writable_block (eachNo no rfl)]
  | switch regular tests tidy _ each =>
      simp [Stmt.pieces, writable_of_regular regular, writable_arms tests each]
  | count span name start stop apart tidy _ each =>
      simp [Stmt.pieces, Expr.piecesAt, writable_of_regular start, writable_of_regular stop,
        writable_block each]
  | whileLoop span regular apart tidy _ each =>
      simp [Stmt.pieces, writable_of_regular regular, writable_block each]
  | untilLoop tidy _ regular each =>
      simp [Stmt.pieces, writable_of_regular regular, writable_block each]
  | @giveBack span value regular =>
      cases value with
      | none => simp [Stmt.pieces]
      | some e => simp [Stmt.pieces, writable_of_regular (regular e rfl)]
  | expression regular => exact writable_of_regular regular

/-! ### Programs -/

/-- A program that was parsed can be written, and however its pieces are spelled,
the tokens are read as the same program up to spans. This holds whether or not a
plus sign after a minus sign is put in parentheses. -/
theorem parse_undoes_printing (source : String) (p : Program) (ok : parse source = .ok p)
    (strict : Bool) :
    (∃ ts, Spelled ts (p.pieces strict)) ∧
      ∀ ts stop, Spelled ts (p.pieces strict) → stop.kind = .endOfInput →
        ∃ q, Program.ofTokens ts stop = .ok q ∧ q.bare = p.bare := by
  have regular : Stmt.RegularBlock strict p.body := regular_of_parse ok
  constructor
  · refine exists_spelled (writable_block ?_)
    exact fun s mem => writable_stmt (regular.each s mem)
  · intro ts stop spelled ends
    have count : ts.length = (Stmt.piecesOf strict p.body).length := spelled.length_eq
    have reads : Reads (Parser.statements (ts.length + 8) (ts.length + 8)) _ _ pure _ :=
      Parser.statements_read regular (by omega) (by omega)
    obtain ⟨body, same, read⟩ := reads ts ⟨stop, []⟩ spelled ends
    rw [← Cursor.start_eq] at read
    exact ⟨⟨body⟩, ofTokens_eq_ok.mpr ⟨_, read⟩, congrArg Program.mk same⟩

/-- A program with needless parentheses. They are not written again, but those
that the signs ask for are. -/
theorem parse_undoes_printing_signs :
    ∃ p, parse "x = ((a + b)) * -+c NOT (d)" = .ok p ∧
      (p.pieces true).map Piece.kind =
        [.identifier, .symbol .equals, .identifier, .symbol .plus, .identifier, .symbol .star,
          .symbol .minus, .symbol .openParen, .symbol .plus, .identifier, .symbol .closeParen,
          .keyword .not, .identifier] ∧
      (∃ ts, Spelled ts (p.pieces true)) ∧
        ∀ ts stop, Spelled ts (p.pieces true) → stop.kind = .endOfInput →
          ∃ q, Program.ofTokens ts stop = .ok q ∧ q.bare = p.bare := by
  have run : (parse "x = ((a + b)) * -+c NOT (d)").toOption.map
      (fun p => (p.pieces true).map Piece.kind) =
        some [.identifier, .symbol .equals, .identifier, .symbol .plus, .identifier, .symbol .star,
          .symbol .minus, .symbol .openParen, .symbol .plus, .identifier, .symbol .closeParen,
          .keyword .not, .identifier] := by
    decide +kernel
  cases ok : parse "x = ((a + b)) * -+c NOT (d)" with
  | error problem =>
      rw [ok] at run
      cases run
  | ok p =>
      rw [ok] at run
      exact ⟨p, rfl, Option.some.inj run, parse_undoes_printing _ p ok true⟩

end Pseudocode

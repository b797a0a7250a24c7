import Mathlib.Data.List.Forall2
import Pseudocode.Program.Parser

/-!
Writing a program down again.

`Program.pieces` gives the tokens of a program without their places, with
parentheses only around an operand that binds less tightly than its place asks
for. A literal is a piece by its value, and `Token.Spells` allows every text that
is read as this value. `bare` takes the spans away, which is what the text of a
program alone decides.
-/

namespace Pseudocode

/-! ### Pieces -/

/-- A token without its place. A number stands for every numeral of its value. -/
inductive Piece where
  | keyword (k : Keyword)
  | symbol (s : Symbol)
  | name (text : String)
  | integer (value : Int64)
  | float (value : Float)
  | text (content : String)

def Piece.kind : Piece → TokenKind
  | keyword k => .keyword k
  | symbol s => .symbol s
  | name _ => .identifier
  | integer _ => .integer
  | float _ => .float
  | text _ => .text

/-- A token that can be written for a piece. -/
def Token.Spells (t : Token) : Piece → Prop
  | .keyword k => t.kind = .keyword k ∧ t.value = k.text
  | .symbol s => t.kind = .symbol s ∧ t.value = s.text
  | .name text => t.kind = .identifier ∧ t.value = text
  | .integer value => t.kind = .integer ∧ Integer.parse? t.value.toList = some value
  | .float value => t.kind = .float ∧ Decimal.parseDouble? t.value.toList = some value
  | .text content => t.kind = .text ∧ t.value = content

theorem Token.Spells.kind_eq {t : Token} {p : Piece} (spells : t.Spells p) : t.kind = p.kind := by
  cases p <;> exact spells.1

/-- Tokens that can be written for pieces, one for each. -/
def Spelled (ts : List Token) (ps : List Piece) : Prop := List.Forall₂ Token.Spells ts ps

namespace Spelled

variable {ts : List Token} {ps qs : List Piece}

theorem length_eq (spelled : Spelled ts ps) : ts.length = ps.length := List.Forall₂.length_eq spelled

theorem split (spelled : Spelled ts (ps ++ qs)) :
    ∃ us vs, ts = us ++ vs ∧ Spelled us ps ∧ Spelled vs qs :=
  ⟨ts.take ps.length, ts.drop ps.length, (List.take_append_drop ..).symm,
    List.forall₂_take_append ts ps qs spelled, List.forall₂_drop_append ts ps qs spelled⟩

end Spelled

/-- Pieces of which every one can be written. -/
theorem exists_spelled {ps : List Piece} (each : ∀ p ∈ ps, ∃ t : Token, t.Spells p) :
    ∃ ts, Spelled ts ps := by
  induction ps with
  | nil => exact ⟨[], .nil⟩
  | cons p ps ih =>
      obtain ⟨t, spells⟩ := each p List.mem_cons_self
      obtain ⟨ts, spelled⟩ := ih fun q mem => each q (List.mem_cons_of_mem p mem)
      exact ⟨t :: ts, .cons spells spelled⟩

/-! ### Precedence

The ladder by numbers, from loose to tight: assignment 0, `to` 1, the binary
operators 2 to 7, `NOT` 8, the signs 9 and 10, call and member suffixes 11, and
12 for what needs no parentheses anywhere. -/

namespace BinaryOp

def level : BinaryOp → Nat
  | mul | div | mod | intDiv => 2
  | add | sub => 3
  | pow => 4
  | or => 5
  | and => 6
  | eq | notEq | greater | less | greaterEq | lessEq => 7

def piece : BinaryOp → Piece
  | add => .symbol .plus | sub => .symbol .minus | mul => .symbol .star | div => .symbol .slash
  | intDiv => .keyword .div | mod => .keyword .mod | pow => .symbol .caret
  | eq => .symbol .equalEqual | notEq => .symbol .notEqual | greater => .symbol .greater
  | less => .symbol .less | greaterEq => .symbol .greaterEqual | lessEq => .symbol .lessEqual
  | and => .keyword .and | or => .keyword .or

end BinaryOp

namespace UnaryOp

def level : UnaryOp → Nat
  | not => 8
  | plus => 9
  | neg => 10

def piece : UnaryOp → Piece
  | not => .keyword .not
  | plus => .symbol .plus
  | neg => .symbol .minus

/-- How tight an operand is. By the ladder alone a plus sign is looser than the
minus sign before it; the reader of a minus sign takes it all the same. `strict`
says which of the two decides on the parentheses. -/
def operandLevel (strict : Bool) : UnaryOp → Nat
  | not => 8
  | plus => 9
  | neg => if strict then 10 else 9

end UnaryOp

/-- How tight an expression is. -/
def Expr.level : Expr → Nat
  | assign .. => 0
  | range .. => 1
  | binary _ op _ _ => op.level
  | unary _ op _ => op.level
  | member .. | index .. | call .. => 11
  | identifier .. | integer .. | float .. | text .. | null .. | create .. => 12

/-! ### Expressions -/

def parenthesise (ps : List Piece) : List Piece := .symbol .openParen :: (ps ++ [.symbol .closeParen])

/-- The pieces of an expression at a place that asks for a level. -/
def Expr.guarded (e : Expr) (level : Nat) (ps : List Piece) : List Piece :=
  if e.level < level then parenthesise ps else ps

/-- Lists of pieces with commas between them. -/
def commas : List (List Piece) → List Piece
  | [] => []
  | [ps] => ps
  | ps :: rest => ps ++ .symbol .comma :: commas rest

theorem length_le_commas {ps : List Piece} {lists : List (List Piece)} (mem : ps ∈ lists) :
    ps.length ≤ (commas lists).length := by
  induction lists using commas.induct with
  | case1 => cases mem
  | case2 qs => exact Nat.le_of_eq (by rw [List.mem_singleton.mp mem, commas])
  | case3 qs rest more ih =>
      rw [commas.eq_3 _ _ more, List.length_append, List.length_cons]
      rcases List.mem_cons.mp mem with rfl | mem
      · omega
      · have := ih mem
        omega

theorem count_le_commas (lists : List (List Piece)) : lists.length ≤ (commas lists).length + 1 := by
  induction lists using commas.induct with
  | case1 => exact Nat.zero_le _
  | case2 qs => exact Nat.le_add_left ..
  | case3 qs rest more ih =>
      rw [commas.eq_3 _ _ more, List.length_append, List.length_cons, List.length_cons]
      omega

namespace Expr

mutual

/-- An expression as it is written where any form is allowed. -/
def pieces (strict : Bool) : Expr → List Piece
  | identifier _ name => [.name name]
  | integer _ value => [.integer value]
  | float _ value => [.float value]
  | text _ value => [.text value]
  | null _ => [.keyword .null]
  | assign _ target value =>
      target.guarded 1 (target.pieces strict) ++ .symbol .equals :: value.pieces strict
  | binary _ op left right =>
      left.guarded op.level (left.pieces strict) ++
        op.piece :: right.guarded (op.level + 1) (right.pieces strict)
  | unary _ op operand =>
      op.piece :: operand.guarded (op.operandLevel strict) (operand.pieces strict)
  | range _ start stop =>
      start.guarded 2 (start.pieces strict) ++
        .keyword .to_ :: stop.guarded 2 (stop.pieces strict)
  | member _ object field =>
      object.guarded 11 (object.pieces strict) ++ [.symbol .dot, .name field]
  | index _ object i =>
      object.guarded 11 (object.pieces strict) ++
        .symbol .openSquare :: (i.pieces strict ++ [.symbol .closeSquare])
  | call _ callee args =>
      callee.guarded 11 (callee.pieces strict) ++ parenthesise (commas (piecesOf strict args))
  | create _ classExpr args =>
      .keyword .new :: (classExpr.pieces strict ++ parenthesise (commas (piecesOf strict args)))

def piecesOf (strict : Bool) : List Expr → List (List Piece)
  | [] => []
  | e :: es => e.pieces strict :: piecesOf strict es

end

/-- An expression as it is written at a place that asks for a level. -/
def piecesAt (strict : Bool) (level : Nat) (e : Expr) : List Piece :=
  e.guarded level (e.pieces strict)

mutual

/-- The same expression without its spans. -/
def bare : Expr → Expr
  | identifier _ name => identifier .unplaced name
  | integer _ value => integer .unplaced value
  | float _ value => float .unplaced value
  | text _ value => text .unplaced value
  | null _ => null .unplaced
  | assign _ target value => assign .unplaced target.bare value.bare
  | binary _ op left right => binary .unplaced op left.bare right.bare
  | unary _ op operand => unary .unplaced op operand.bare
  | range _ start stop => range .unplaced start.bare stop.bare
  | member _ object field => member .unplaced object.bare field
  | index _ object i => index .unplaced object.bare i.bare
  | call _ callee args => call .unplaced callee.bare (bareOf args)
  | create _ classExpr args => create .unplaced classExpr.bare (bareOf args)

def bareOf : List Expr → List Expr
  | [] => []
  | e :: es => e.bare :: bareOf es

end

theorem piecesOf_eq (strict : Bool) (es : List Expr) : piecesOf strict es = es.map (pieces strict) := by
  induction es with
  | nil => rfl
  | cons e es ih => rw [piecesOf, ih, List.map_cons]

theorem bareOf_eq (es : List Expr) : bareOf es = es.map bare := by
  induction es with
  | nil => rfl
  | cons e es ih => rw [bareOf, ih, List.map_cons]

@[simp] theorem bare_withSpan (e : Expr) (s : Span) : (e.withSpan s).bare = e.bare := by
  cases e <;> rfl

theorem isTarget_bare (e : Expr) : e.bare.isTarget = e.isTarget := by
  cases e <;> rfl

end Expr

/-! ### Statements -/

namespace RoutineKind

def opener : RoutineKind → Keyword
  | function => .function
  | procedure => .procedure

def closer : RoutineKind → Keyword
  | function => .endFunction
  | procedure => .endProcedure

end RoutineKind

def Visibility.keyword : Visibility → Keyword
  | everywhere => .public_
  | within => .private_

/-- The name of a routine; that of a constructor is a reserved word. -/
def routineNamePiece (name : String) : Piece :=
  if name = Keyword.new.text then .keyword .new else .name name

mutual

/-- A statement as it is written. An `elseif` is written as a conditional in the
other branch. -/
def Stmt.pieces (strict : Bool) : Stmt → List Piece
  | .declare _ name value =>
      .keyword .let_ :: .name name :: .symbol .equals :: value.pieces strict
  | .array _ name dimensions =>
      .keyword .array :: .name name :: .symbol .openSquare ::
        (commas (dimensions.map (Expr.pieces strict)) ++ [.symbol .closeSquare])
  | .routine decl => decl.pieces strict
  | .classDecl decl => decl.pieces strict
  | .conditional condition yes none =>
      .keyword .if_ :: (condition.pieces strict ++
        .keyword .then_ :: (Stmt.piecesOf strict yes ++ [.keyword .endIf]))
  | .conditional condition yes (some no) =>
      .keyword .if_ :: (condition.pieces strict ++
        .keyword .then_ :: (Stmt.piecesOf strict yes ++
          .keyword .else_ :: (Stmt.piecesOf strict no ++ [.keyword .endIf])))
  | .switch subject cases =>
      .keyword .switch :: (subject.pieces strict ++
        .symbol .colon :: (Case.piecesOf strict cases ++ [.keyword .endSwitch]))
  | .count _ name first last body =>
      .keyword .for_ :: .name name :: .symbol .equals :: (first.piecesAt strict 2 ++
        .keyword .to_ :: (last.piecesAt strict 2 ++
          (Stmt.piecesOf strict body ++ [.keyword .next, .name name])))
  | .whileLoop _ condition body =>
      .keyword .while_ :: (condition.pieces strict ++
        (Stmt.piecesOf strict body ++ [.keyword .endWhile]))
  | .untilLoop body condition =>
      .keyword .do_ :: (Stmt.piecesOf strict body ++ .keyword .until_ :: condition.pieces strict)
  | .giveBack _ none => [.keyword .return_]
  | .giveBack _ (some value) => .keyword .return_ :: value.pieces strict
  | .expression e => e.pieces strict

def Stmt.piecesOf (strict : Bool) : List Stmt → List Piece
  | [] => []
  | s :: ss => s.pieces strict ++ Stmt.piecesOf strict ss

def Case.pieces (strict : Bool) : Case → List Piece
  | ⟨some test, body⟩ =>
      .keyword .case :: (test.pieces strict ++ .symbol .colon :: Stmt.piecesOf strict body)
  | ⟨none, body⟩ => .keyword .default :: .symbol .colon :: Stmt.piecesOf strict body

def Case.piecesOf (strict : Bool) : List Case → List Piece
  | [] => []
  | c :: cs => c.pieces strict ++ Case.piecesOf strict cs

def RoutineDecl.pieces (strict : Bool) : RoutineDecl → List Piece
  | ⟨kind, name, params, body, _⟩ =>
      .keyword kind.opener :: routineNamePiece name :: .symbol .openParen ::
        (commas (params.map fun param => [.name param]) ++
          .symbol .closeParen :: (Stmt.piecesOf strict body ++ [.keyword kind.closer]))

def Member.pieces (strict : Bool) : Member → List Piece
  | .field visibility _ name => [.keyword visibility.keyword, .name name]
  | .method visibility _ decl => .keyword visibility.keyword :: decl.pieces strict

def Member.piecesOf (strict : Bool) : List Member → List Piece
  | [] => []
  | m :: ms => m.pieces strict ++ Member.piecesOf strict ms

def ClassDecl.pieces (strict : Bool) : ClassDecl → List Piece
  | ⟨name, none, members, _⟩ =>
      .keyword .class_ :: .name name :: (Member.piecesOf strict members ++ [.keyword .endClass])
  | ⟨name, some (parent, _), members, _⟩ =>
      .keyword .class_ :: .name name :: .keyword .inherits :: .name parent ::
        (Member.piecesOf strict members ++ [.keyword .endClass])

end

/-- A program as it is written. -/
def Program.pieces (strict : Bool) (p : Program) : List Piece := Stmt.piecesOf strict p.body

mutual

/-- The same statement without its spans. -/
def Stmt.bare : Stmt → Stmt
  | .declare _ name value => .declare .unplaced name value.bare
  | .array _ name dimensions => .array .unplaced name (dimensions.map Expr.bare)
  | .routine decl => .routine decl.bare
  | .classDecl decl => .classDecl decl.bare
  | .conditional condition yes none => .conditional condition.bare (Stmt.bareOf yes) none
  | .conditional condition yes (some no) =>
      .conditional condition.bare (Stmt.bareOf yes) (some (Stmt.bareOf no))
  | .switch subject cases => .switch subject.bare (Case.bareOf cases)
  | .count _ name first last body =>
      .count .unplaced name first.bare last.bare (Stmt.bareOf body)
  | .whileLoop _ condition body => .whileLoop .unplaced condition.bare (Stmt.bareOf body)
  | .untilLoop body condition => .untilLoop (Stmt.bareOf body) condition.bare
  | .giveBack _ value => .giveBack .unplaced (value.map Expr.bare)
  | .expression e => .expression e.bare

def Stmt.bareOf : List Stmt → List Stmt
  | [] => []
  | s :: ss => s.bare :: Stmt.bareOf ss

def Case.bare : Case → Case
  | ⟨test, body⟩ => ⟨test.map Expr.bare, Stmt.bareOf body⟩

def Case.bareOf : List Case → List Case
  | [] => []
  | c :: cs => c.bare :: Case.bareOf cs

def RoutineDecl.bare : RoutineDecl → RoutineDecl
  | ⟨kind, name, params, body, _⟩ => ⟨kind, name, params, Stmt.bareOf body, .unplaced⟩

def Member.bare : Member → Member
  | .field visibility _ name => .field visibility .unplaced name
  | .method visibility _ decl => .method visibility .unplaced decl.bare

def Member.bareOf : List Member → List Member
  | [] => []
  | m :: ms => m.bare :: Member.bareOf ms

def ClassDecl.bare : ClassDecl → ClassDecl
  | ⟨name, parent, members, _⟩ =>
      ⟨name, parent.map fun p => (p.1, .unplaced), Member.bareOf members, .unplaced⟩

end

/-- The same program without its spans. -/
def Program.bare (p : Program) : Program := ⟨Stmt.bareOf p.body⟩

theorem Member.name_bare (m : Member) : m.bare.name = m.name := by
  cases m with
  | field visibility span name => rfl
  | method visibility span decl =>
      cases decl
      rfl

end Pseudocode

import Pseudocode.Text.Span

/-!
Programs: expressions and statements with the spans of their source text.

An expression carries its span in every node. Parentheses leave no node; they
only widen the span of what they enclose. Of the statements, those that can be
the place of an error carry a span.
-/

namespace Pseudocode

inductive BinaryOp where
  | add | sub | mul | div | intDiv | mod | pow
  | eq | notEq | greater | less | greaterEq | lessEq
  | and | or
  deriving DecidableEq, Repr

/-- The operator as it is written in a program. -/
def BinaryOp.symbol : BinaryOp → String
  | add => "+" | sub => "-" | mul => "*" | div => "/" | intDiv => "DIV" | mod => "MOD" | pow => "^"
  | eq => "==" | notEq => "!=" | greater => ">" | less => "<" | greaterEq => ">=" | lessEq => "<="
  | and => "AND" | or => "OR"

inductive UnaryOp where
  | not | plus | neg
  deriving DecidableEq, Repr

def UnaryOp.symbol : UnaryOp → String
  | not => "NOT" | plus => "+" | neg => "-"

inductive Expr where
  | identifier (span : Span) (name : String)
  | integer (span : Span) (value : Int64)
  | float (span : Span) (value : Float)
  | text (span : Span) (value : String)
  | null (span : Span)
  | assign (span : Span) (target value : Expr)
  | binary (span : Span) (op : BinaryOp) (left right : Expr)
  | unary (span : Span) (op : UnaryOp) (operand : Expr)
  | range (span : Span) (start stop : Expr)
  | member (span : Span) (object : Expr) (field : String)
  | index (span : Span) (object index : Expr)
  | call (span : Span) (callee : Expr) (args : List Expr)
  /-- A new object of a class. -/
  | create (span : Span) (classExpr : Expr) (args : List Expr)
  deriving Inhabited

namespace Expr

def span : Expr → Span
  | identifier s _ | integer s _ | float s _ | text s _ | null s | assign s _ _ | binary s _ _ _
  | unary s _ _ | range s _ _ | member s _ _ | index s _ _ | call s _ _ | create s _ _ => s

/-- The same expression at another span. -/
def withSpan (e : Expr) (s : Span) : Expr :=
  match e with
  | identifier _ name => identifier s name
  | integer _ value => integer s value
  | float _ value => float s value
  | text _ value => text s value
  | null _ => null s
  | assign _ target value => assign s target value
  | binary _ op left right => binary s op left right
  | unary _ op operand => unary s op operand
  | range _ start stop => range s start stop
  | member _ object field => member s object field
  | index _ object i => index s object i
  | call _ callee args => call s callee args
  | create _ classExpr args => create s classExpr args

@[simp] theorem span_withSpan (e : Expr) (s : Span) : (e.withSpan s).span = s := by
  cases e <;> rfl

/-- Variables, members and indices can stand on the left of an assignment. -/
def isTarget : Expr → Bool
  | identifier .. | member .. | index .. => true
  | _ => false

end Expr

inductive RoutineKind where
  | function
  /-- Its calls have no value. -/
  | procedure
  deriving DecidableEq, Repr

inductive Visibility where
  | everywhere
  /-- Visible to the methods of the class only. -/
  | within
  deriving DecidableEq, Repr

mutual

inductive Stmt where
  /-- A new variable. -/
  | declare (span : Span) (name : String) (value : Expr)
  /-- A new array of one or more dimensions. -/
  | array (span : Span) (name : String) (dimensions : List Expr)
  | routine (decl : RoutineDecl)
  | classDecl (decl : ClassDecl)
  | conditional (condition : Expr) (yes : List Stmt) (no : Option (List Stmt))
  | switch (subject : Expr) (cases : List Case)
  /-- Counts a variable from one bound to another, both included. -/
  | count (span : Span) (name : String) (first last : Expr) (body : List Stmt)
  | whileLoop (span : Span) (condition : Expr) (body : List Stmt)
  | untilLoop (body : List Stmt) (condition : Expr)
  | giveBack (span : Span) (value : Option Expr)
  | expression (e : Expr)

/-- One arm of a switch; the default arm has no test. -/
structure Case where
  test : Option Expr
  body : List Stmt

/-- A function or procedure as declared. -/
structure RoutineDecl where
  kind : RoutineKind
  name : String
  params : List String
  body : List Stmt
  span : Span

inductive Member where
  | field (visibility : Visibility) (span : Span) (name : String)
  | method (visibility : Visibility) (span : Span) (decl : RoutineDecl)

/-- A class as declared, with the name and place of its parent. -/
structure ClassDecl where
  name : String
  parent : Option (String × Span)
  members : List Member
  span : Span

end

instance : Inhabited Stmt := ⟨.expression default⟩

namespace Member

def name : Member → String
  | field _ _ name => name
  | method _ _ decl => decl.name

def visibility : Member → Visibility
  | field v _ _ => v
  | method v _ _ => v

def span : Member → Span
  | field _ s _ => s
  | method _ s _ => s

def isMethod : Member → Bool
  | field .. => false
  | method .. => true

end Member

/-- The member that a class itself declares under a name. -/
def ClassDecl.member? (c : ClassDecl) (name : String) : Option Member :=
  c.members.find? fun m => m.name == name

/-- A program is a sequence of statements. -/
structure Program where
  body : List Stmt

end Pseudocode

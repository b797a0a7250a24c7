import Pseudocode.Program.Basic
import Pseudocode.Document

/-!
A program as a document: every node with its kind and its parts, without spans.
-/

namespace Pseudocode

/-- A node of the given kind. The keys before and after `kind` are given
separately, each part in alphabetical order. -/
def Document.ofKind (kind : String) (before after : List (String × Document)) : Document :=
  .node (before ++ ("kind", .text kind) :: after)

namespace Expr

mutual

def document : Expr → Document
  | identifier _ name => .ofKind "Identifier" [] [("symbol", .text name)]
  | integer _ value => .ofKind "NumericLiteral" [] [("value", .integer value)]
  | float _ value => .ofKind "FloatLiteral" [] [("value", .ofFloat value)]
  | text _ value => .ofKind "StringLiteral" [] [("value", .text value)]
  | null _ => .ofKind "NullLiteral" [] []
  | assign _ target value =>
      .ofKind "AssignmentExpression" [("assign_to", target.document)] [("value", value.document)]
  | binary _ op left right =>
      .ofKind "BinaryExpression" []
        [("left", left.document), ("operator", .text op.symbol), ("right", right.document)]
  | unary _ op operand =>
      .ofKind "UnaryExpression" [] [("operand", operand.document), ("operator", .text op.symbol)]
  | range _ start stop =>
      .ofKind "RangeExpression" [("end", stop.document)] [("start", start.document)]
  | member _ object field =>
      .ofKind "MemberExpression" [("computed", .boolean false)]
        [("object", object.document),
         ("property", .ofKind "Identifier" [] [("symbol", .text field)])]
  | index _ object i =>
      .ofKind "MemberExpression" [("computed", .boolean true)]
        [("object", object.document), ("property", i.document)]
  | call _ callee args =>
      .ofKind "CallExpression" [("arguments", .list (documents args)), ("caller", callee.document)] []
  | create _ classExpr args =>
      .ofKind "NewExpression" [("arguments", .list (documents args)), ("class", classExpr.document)] []

def documents : List Expr → List Document
  | [] => []
  | e :: es => e.document :: documents es

end

end Expr

def Visibility.document : Visibility → Document
  | everywhere => .text "public"
  | within => .text "private"

def RoutineKind.title : RoutineKind → String
  | function => "FunctionDeclaration"
  | procedure => "ProcedureDeclaration"

mutual

def Stmt.document : Stmt → Document
  | .declare _ name value =>
      .ofKind "VariableDeclaration" [("identifier", .text name)] [("value", value.document)]
  | .array _ name dimensions =>
      .ofKind "ArrayDeclaration"
        [("dimensions", .list (Expr.documents dimensions)), ("identifier", .text name)] []
  | .routine decl => decl.document []
  | .classDecl decl => decl.document
  | .conditional condition yes none =>
      .ofKind "IfStatement" [("condition", condition.document), ("else", .null)]
        [("then", .list (Stmt.documents yes))]
  | .conditional condition yes (some no) =>
      .ofKind "IfStatement"
        [("condition", condition.document), ("else", .list (Stmt.documents no))]
        [("then", .list (Stmt.documents yes))]
  | .switch subject cases =>
      .ofKind "SwitchStatement"
        [("cases", .list (Case.documents cases)), ("discriminant", subject.document)] []
  | .count _ name first last body =>
      .ofKind "ForLoop"
        [("body", .list (Stmt.documents body)), ("end_value", last.document),
         ("initial_value", first.document)]
        [("variable", .text name)]
  | .whileLoop _ condition body =>
      .ofKind "WhileLoop"
        [("body", .list (Stmt.documents body)), ("condition", condition.document)] []
  | .untilLoop body condition =>
      .ofKind "DoUntilLoop"
        [("body", .list (Stmt.documents body)), ("condition", condition.document)] []
  | .giveBack _ value => .ofKind "ReturnStatement" [] [("value", .ofOption Expr.document value)]
  | .expression e => e.document

def Stmt.documents : List Stmt → List Document
  | [] => []
  | s :: ss => s.document :: Stmt.documents ss

def Case.document : Case → Document
  | ⟨test, body⟩ =>
      .ofKind "CaseStatement" []
        [("test", .ofOption Expr.document test), ("then", .list (Stmt.documents body))]

def Case.documents : List Case → List Document
  | [] => []
  | c :: cs => c.document :: Case.documents cs

/-- A routine; as a member of a class it also shows its visibility. -/
def RoutineDecl.document (extra : List (String × Document)) : RoutineDecl → Document
  | ⟨kind, name, params, body, _⟩ =>
      .ofKind kind.title [("body", .list (Stmt.documents body)), ("identifier", .text name)]
        (("parameters", .list (params.map .text)) :: extra)

def Member.document : Member → Document
  | .field visibility _ name =>
      .ofKind "Attribute" [("identifier", .text name)] [("visibility", visibility.document)]
  | .method visibility _ decl => decl.document [("visibility", visibility.document)]

def Member.documents : List Member → List Document
  | [] => []
  | m :: ms => m.document :: Member.documents ms

def ClassDecl.document : ClassDecl → Document
  | ⟨name, parent, members, _⟩ =>
      .ofKind "ClassDeclaration" [("identifier", .text name)]
        [("members", .list (Member.documents members)),
         ("parent", .ofOption (fun p => .text p.1) parent)]

end

/-- The document of a program. -/
def Program.document (p : Program) : Document :=
  .ofKind "Program" [("body", .list (Stmt.documents p.body))] []

end Pseudocode

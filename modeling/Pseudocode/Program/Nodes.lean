import Pseudocode.Program.Basic

/-!
The nodes of a program: everything in it that has a span, in the order in which
it starts to be written down.
-/

namespace Pseudocode

inductive NodeKind where
  | declare | array | function | procedure | classDecl | parent | member
  | count | whileLoop | giveBack
  | identifier | integer | float | text | null | assign | binary | unary | range
  | fieldAccess | index | call | create
  deriving DecidableEq, Repr

/-- A node of a program: what it is and where. -/
structure Node where
  kind : NodeKind
  span : Span
  deriving DecidableEq, Repr

def RoutineKind.node : RoutineKind → NodeKind
  | function => .function
  | procedure => .procedure

namespace Expr

def kind : Expr → NodeKind
  | identifier .. => .identifier
  | integer .. => .integer
  | float .. => .float
  | text .. => .text
  | null .. => .null
  | assign .. => .assign
  | binary .. => .binary
  | unary .. => .unary
  | range .. => .range
  | member .. => .fieldAccess
  | index .. => .index
  | call .. => .call
  | create .. => .create

mutual

/-- The nodes of an expression: itself, then those of its parts. -/
def nodes : Expr → List Node
  | e@(assign _ target value) => ⟨e.kind, e.span⟩ :: (target.nodes ++ value.nodes)
  | e@(binary _ _ left right) => ⟨e.kind, e.span⟩ :: (left.nodes ++ right.nodes)
  | e@(unary _ _ operand) => ⟨e.kind, e.span⟩ :: operand.nodes
  | e@(range _ start stop) => ⟨e.kind, e.span⟩ :: (start.nodes ++ stop.nodes)
  | e@(member _ object _) => ⟨e.kind, e.span⟩ :: object.nodes
  | e@(index _ object i) => ⟨e.kind, e.span⟩ :: (object.nodes ++ i.nodes)
  | e@(call _ callee args) => ⟨e.kind, e.span⟩ :: (callee.nodes ++ nodesOf args)
  | e@(create _ classExpr args) => ⟨e.kind, e.span⟩ :: (classExpr.nodes ++ nodesOf args)
  | e => [⟨e.kind, e.span⟩]

def nodesOf : List Expr → List Node
  | [] => []
  | e :: es => e.nodes ++ nodesOf es

end

end Expr

/-- The nodes of an expression that may be missing. -/
def optionalNodes : Option Expr → List Node
  | none => []
  | some e => e.nodes

mutual

/-- The nodes of a statement. Conditionals, switches, `until` loops and
expressions as statements have none of their own. -/
def Stmt.nodes : Stmt → List Node
  | .declare span _ value => ⟨.declare, span⟩ :: value.nodes
  | .array span _ dimensions => ⟨.array, span⟩ :: Expr.nodesOf dimensions
  | .routine decl => decl.nodes
  | .classDecl decl => decl.nodes
  | .conditional condition yes none => condition.nodes ++ Stmt.nodesOf yes
  | .conditional condition yes (some no) =>
      condition.nodes ++ Stmt.nodesOf yes ++ Stmt.nodesOf no
  | .switch subject cases => subject.nodes ++ Case.nodesOf cases
  | .count span _ first last body =>
      ⟨.count, span⟩ :: (first.nodes ++ last.nodes ++ Stmt.nodesOf body)
  | .whileLoop span condition body =>
      ⟨.whileLoop, span⟩ :: (condition.nodes ++ Stmt.nodesOf body)
  | .untilLoop body condition => Stmt.nodesOf body ++ condition.nodes
  | .giveBack span value => ⟨.giveBack, span⟩ :: optionalNodes value
  | .expression e => e.nodes

def Stmt.nodesOf : List Stmt → List Node
  | [] => []
  | s :: ss => s.nodes ++ Stmt.nodesOf ss

def Case.nodes : Case → List Node
  | ⟨test, body⟩ => optionalNodes test ++ Stmt.nodesOf body

def Case.nodesOf : List Case → List Node
  | [] => []
  | c :: cs => c.nodes ++ Case.nodesOf cs

def RoutineDecl.nodes : RoutineDecl → List Node
  | ⟨kind, _, _, body, span⟩ => ⟨kind.node, span⟩ :: Stmt.nodesOf body

def Member.nodes : Member → List Node
  | .field _ span _ => [⟨.member, span⟩]
  | .method _ span decl => ⟨.member, span⟩ :: decl.nodes

def Member.nodesOf : List Member → List Node
  | [] => []
  | m :: ms => m.nodes ++ Member.nodesOf ms

def ClassDecl.nodes : ClassDecl → List Node
  | ⟨_, none, members, span⟩ => ⟨.classDecl, span⟩ :: Member.nodesOf members
  | ⟨_, some (_, at_), members, span⟩ =>
      ⟨.classDecl, span⟩ :: ⟨.parent, at_⟩ :: Member.nodesOf members

end

/-- The nodes of a program. -/
def Program.nodes (p : Program) : List Node := Stmt.nodesOf p.body

end Pseudocode

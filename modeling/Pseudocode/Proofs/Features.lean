import Pseudocode.Object

/-!
Features: what a piece of code does, wherever in it, that matters to statements
about its runs.

`features` lists, for expressions, statements and whole programs, the variables
that are assigned to, the variables that counting loops count, the loops without a
cap, and the flaws that no text is read with. Bodies of nested routines and methods are
searched too. A property `P` of features is a permission: code is permitted when all its
features satisfy `P`.
-/

namespace Pseudocode

inductive Feature where
  /-- An assignment expression whose target is a variable. -/
  | assigns (name : String)
  /-- A counting loop over a variable. -/
  | counts (name : String)
  /-- A loop without a cap on its rounds. -/
  | repeats
  /-- An assignment to something that cannot be assigned to, a routine with two
  parameters of one name, or a field that is called like the constructor. -/
  | flaw
  deriving DecidableEq, Repr

/-- Code is flawed unless a condition holds. -/
def flawUnless (condition : Prop) [Decidable condition] : List Feature :=
  if condition then [] else [.flaw]

namespace Expr

/-- The feature of an assignment to the given target. -/
def targetFeatures : Expr → List Feature
  | identifier _ name => [.assigns name]
  | target => flawUnless (target.isTarget = true)

mutual

def features : Expr → List Feature
  | identifier .. | integer .. | float .. | text .. | null _ => []
  | assign _ target value => target.targetFeatures ++ target.features ++ value.features
  | binary _ _ left right => left.features ++ right.features
  | unary _ _ operand => operand.features
  | range _ start stop => start.features ++ stop.features
  | member _ object _ => object.features
  | index _ object i => object.features ++ i.features
  | call _ callee args => callee.features ++ featuresAll args
  | create _ classExpr args => classExpr.features ++ featuresAll args

def featuresAll : List Expr → List Feature
  | [] => []
  | e :: es => e.features ++ featuresAll es

end

end Expr

mutual

def Stmt.features : Stmt → List Feature
  | .declare _ _ value => value.features
  | .array _ _ dimensions => Expr.featuresAll dimensions
  | .routine decl => decl.features
  | .classDecl decl => decl.features
  | .conditional test yes no => test.features ++ Stmt.featuresAll yes ++ Stmt.featuresElse no
  | .switch subject cases => subject.features ++ Case.featuresAll cases
  | .count _ name first last body =>
      .counts name :: first.features ++ last.features ++ Stmt.featuresAll body
  | .whileLoop _ test body => test.features ++ Stmt.featuresAll body
  | .untilLoop body test => .repeats :: Stmt.featuresAll body ++ test.features
  | .giveBack _ (some value) => value.features
  | .giveBack _ none => []
  | .expression e => e.features

def Stmt.featuresAll : List Stmt → List Feature
  | [] => []
  | stmt :: rest => stmt.features ++ Stmt.featuresAll rest

def Stmt.featuresElse : Option (List Stmt) → List Feature
  | none => []
  | some no => Stmt.featuresAll no

def Case.featuresAll : List Case → List Feature
  | [] => []
  | ⟨some test, body⟩ :: rest =>
      test.features ++ Stmt.featuresAll body ++ Case.featuresAll rest
  | ⟨none, body⟩ :: rest => Stmt.featuresAll body ++ Case.featuresAll rest

def RoutineDecl.features : RoutineDecl → List Feature
  | ⟨_, _, params, body, _⟩ => flawUnless params.Nodup ++ Stmt.featuresAll body

def Member.features : Member → List Feature
  | .field _ _ name => flawUnless (name ≠ Heap.constructorName)
  | .method _ _ decl => decl.features

def Member.featuresAll : List Member → List Feature
  | [] => []
  | m :: ms => m.features ++ Member.featuresAll ms

def ClassDecl.features : ClassDecl → List Feature
  | ⟨_, _, members, _⟩ => Member.featuresAll members

end

def Program.features (p : Program) : List Feature := Stmt.featuresAll p.body

end Pseudocode

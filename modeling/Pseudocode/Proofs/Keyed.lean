import Pseudocode.Program.Document

/-!
Documents with their keys in order, and documents of any make.

A document of whatever type is made from its top: a scalar, a list of documents, or a node
with documents under keys. All that is relied on is that documents made from different tops
are different, if the keys of nodes are in order (`Document.Maker`). The documents of programs
have their keys in order (`Program.document_keyed`), so those of one make are equal exactly when
those of another are (`Program.build_document_eq_iff`).
-/

namespace Pseudocode

namespace Document

/-! ### Keys in order -/

/-- The first text comes before the second one in alphabetical order. -/
def Precedes (s t : String) : Prop :=
  s.toList.lex t.toList (fun c d => decide (c.toNat < d.toNat)) = true

instance (s t : String) : Decidable (Precedes s t) :=
  inferInstanceAs (Decidable (_ = true))

/-- Every node has its keys in alphabetical order, each of them once. -/
inductive Keyed : Document → Prop
  | null : Keyed .null
  | boolean (value : Bool) : Keyed (.boolean value)
  | integer (value : Int64) : Keyed (.integer value)
  | float (value : Float) : Keyed (.float value)
  | text (value : String) : Keyed (.text value)
  | list {items : List Document} (each : ∀ d ∈ items, Keyed d) : Keyed (.list items)
  | node {fields : List (String × Document)} (keys : (fields.map Prod.fst).Pairwise Precedes)
      (each : ∀ f ∈ fields, Keyed f.2) : Keyed (.node fields)

theorem Keyed.ofFloat (x : Float) : Keyed (.ofFloat x) := by
  unfold Document.ofFloat
  split
  · exact .float x
  · exact .null

theorem Keyed.ofOption {α : Type} {f : α → Document} {value : Option α}
    (keyed : ∀ a ∈ value, Keyed (f a)) : Keyed (.ofOption f value) := by
  cases value with
  | none => exact .null
  | some a => exact keyed a rfl

theorem Keyed.texts (texts : List String) : Keyed (.list (texts.map .text)) := by
  refine .list fun d mem => ?_
  obtain ⟨t, -, rfl⟩ := List.mem_map.mp mem
  exact .text t

theorem Keyed.ofKind {kind : String} {before behind : List (String × Document)}
    (keys : (before.map Prod.fst ++ "kind" :: behind.map Prod.fst).Pairwise Precedes)
    (each : ∀ f ∈ before ++ behind, Keyed f.2) : Keyed (.ofKind kind before behind) := by
  refine .node (by rwa [List.map_append, List.map_cons]) fun f mem => ?_
  rcases List.mem_append.mp mem with earlier | later
  · exact each f (List.mem_append_left _ earlier)
  · rcases List.mem_cons.mp later with rfl | later
    · exact .text kind
    · exact each f (List.mem_append_right _ later)

/-! ### Makers -/

/-- What a document of type `D` is made from. -/
inductive Top (D : Type) where
  | null
  | boolean (value : Bool)
  | integer (value : Int64)
  | float (value : Float)
  | text (value : String)
  | list (items : List D)
  | node (fields : List (String × D))

def Top.Ordered {D : Type} : Top D → Prop
  | node fields => (fields.map Prod.fst).Pairwise Precedes
  | _ => True

/-- What is relied on of documents: they are different when they are made from different tops. -/
structure Maker (D : Type) where
  make : Top D → D
  make_inj : ∀ {t t' : Top D}, t.Ordered → t'.Ordered → make t = make t' → t = t'

/-- The documents here. -/
def maker : Maker Document where
  make
    | .null => null
    | .boolean value => boolean value
    | .integer value => integer value
    | .float value => float value
    | .text value => text value
    | .list items => list items
    | .node fields => node fields
  make_inj {t t'} _ _ same := by cases t <;> cases t' <;> cases same <;> rfl

section Build

variable {D : Type} (maker : Maker D)

mutual

/-- The top of the same document of another make. -/
def top : Document → Top D
  | null => .null
  | boolean value => .boolean value
  | integer value => .integer value
  | float value => .float value
  | text value => .text value
  | list items => .list (buildAll items)
  | node fields => .node (buildFields fields)

def buildAll : List Document → List D
  | [] => []
  | d :: ds => maker.make (top d) :: buildAll ds

def buildFields : List (String × Document) → List (String × D)
  | [] => []
  | (key, d) :: fields => (key, maker.make (top d)) :: buildFields fields

end

/-- The same document of another make. -/
def build (d : Document) : D := maker.make (top maker d)

variable {maker}

theorem buildAll_eq (ds : List Document) : buildAll maker ds = ds.map (build maker) := by
  induction ds with
  | nil => rfl
  | cons d ds ih => rw [buildAll, ih, List.map_cons, build]

theorem buildFields_eq (fields : List (String × Document)) :
    buildFields maker fields = fields.map fun f => (f.1, build maker f.2) := by
  induction fields with
  | nil => rfl
  | cons f fields ih => rw [buildFields, ih, List.map_cons, build]

theorem Keyed.ordered {d : Document} (keyed : d.Keyed) : (top maker d).Ordered := by
  cases keyed with
  | node keys =>
      rw [top, Top.Ordered, buildFields_eq, List.map_map]
      exact keys
  | _ => trivial

/-- Lists are the same when their images are, if no different elements of them have one image. -/
theorem eq_of_map_eq {α β : Type} {f : α → β} {xs ys : List α}
    (each : ∀ x ∈ xs, ∀ y ∈ ys, f x = f y → x = y) (same : xs.map f = ys.map f) : xs = ys := by
  induction xs generalizing ys with
  | nil => exact (List.map_eq_nil_iff.mp same.symm).symm
  | cons x xs ih =>
      obtain ⟨y, ys, rfl, first, rest⟩ := List.map_eq_cons_iff.mp same.symm
      rw [each x List.mem_cons_self y List.mem_cons_self first.symm, ih (fun x mem y mem' =>
        each x (List.mem_cons_of_mem _ mem) y (List.mem_cons_of_mem _ mem')) rest.symm]

theorem Keyed.top_eq {d d' : Document} (keyed : d.Keyed) (keyed' : d'.Keyed)
    (same : d.build maker = d'.build maker) : top maker d = top maker d' :=
  maker.make_inj keyed.ordered keyed'.ordered same

/-- What is made of a document determines it. -/
theorem eq_of_build {d d' : Document} (keyed : d.Keyed) (keyed' : d'.Keyed)
    (same : d.build maker = d'.build maker) : d = d' := by
  have tops := keyed.top_eq keyed' same
  clear same
  induction keyed generalizing d' with
  | null | boolean | integer | float | text =>
      cases d' <;> cases tops
      rfl
  | list each ih =>
      cases keyed' with
      | list each' =>
          have items := Top.list.inj tops
          rw [buildAll_eq, buildAll_eq] at items
          refine congrArg list (eq_of_map_eq (fun d mem d' mem' same => ?_) items)
          exact ih d mem (each' d' mem') ((each d mem).top_eq (each' d' mem') same)
      | _ => cases tops
  | node _ each ih =>
      cases keyed' with
      | node _ each' =>
          have fields := Top.node.inj tops
          rw [buildFields_eq, buildFields_eq] at fields
          refine congrArg node (eq_of_map_eq (fun f mem f' mem' same => ?_) fields)
          obtain ⟨key, value⟩ := Prod.mk.inj same
          exact Prod.ext key (ih f mem (each' f' mem') ((each f mem).top_eq (each' f' mem') value))
      | _ => cases tops

end Build

mutual

theorem top_maker : ∀ d : Document, maker.make (top maker d) = d
  | null | boolean _ | integer _ | float _ | text _ => rfl
  | list items => congrArg list (buildAll_maker items)
  | node fields => congrArg node (buildFields_maker fields)

theorem buildAll_maker : ∀ ds : List Document, buildAll maker ds = ds
  | [] => rfl
  | d :: ds => by rw [buildAll, top_maker d, buildAll_maker ds]

theorem buildFields_maker : ∀ fields : List (String × Document), buildFields maker fields = fields
  | [] => rfl
  | (key, d) :: fields => by rw [buildFields, top_maker d, buildFields_maker fields]

end

/-- The documents here are of their own make. -/
theorem build_maker (d : Document) : d.build maker = d := top_maker d

end Document

/-! ### The documents of programs -/

open Document

mutual

theorem Expr.document_keyed : ∀ e : Expr, e.document.Keyed
  | .identifier _ name =>
      .ofKind (by decide : ["kind", "symbol"].Pairwise Precedes) (by simp [Keyed.text])
  | .integer _ value =>
      .ofKind (by decide : ["kind", "value"].Pairwise Precedes) (by simp [Keyed.integer])
  | .float _ value =>
      .ofKind (by decide : ["kind", "value"].Pairwise Precedes) (by simp [Keyed.ofFloat])
  | .text _ value =>
      .ofKind (by decide : ["kind", "value"].Pairwise Precedes) (by simp [Keyed.text])
  | .null _ => .ofKind (by decide) (by simp)
  | .assign _ target value =>
      .ofKind (by decide : ["assign_to", "kind", "value"].Pairwise Precedes)
        (by simp [document_keyed target, document_keyed value])
  | .binary _ op left right =>
      .ofKind (by decide : ["kind", "left", "operator", "right"].Pairwise Precedes)
        (by simp [Keyed.text, document_keyed left, document_keyed right])
  | .unary _ op operand =>
      .ofKind (by decide : ["kind", "operand", "operator"].Pairwise Precedes)
        (by simp [Keyed.text, document_keyed operand])
  | .range _ start stop =>
      .ofKind (by decide : ["end", "kind", "start"].Pairwise Precedes)
        (by simp [document_keyed start, document_keyed stop])
  | .member _ object field => by
      have property : (Document.ofKind "Identifier" [] [("symbol", .text field)]).Keyed :=
        .ofKind (by decide : ["kind", "symbol"].Pairwise Precedes) (by simp [Keyed.text])
      exact .ofKind (by decide : ["computed", "kind", "object", "property"].Pairwise Precedes)
        (by simp [Keyed.boolean, document_keyed object, property])
  | .index _ object i =>
      .ofKind (by decide : ["computed", "kind", "object", "property"].Pairwise Precedes)
        (by simp [Keyed.boolean, document_keyed object, document_keyed i])
  | .call _ callee args =>
      .ofKind (by decide : ["arguments", "caller", "kind"].Pairwise Precedes)
        (by simp [Keyed.list (documents_keyed args), document_keyed callee])
  | .create _ classExpr args =>
      .ofKind (by decide : ["arguments", "class", "kind"].Pairwise Precedes)
        (by simp [Keyed.list (documents_keyed args), document_keyed classExpr])

theorem Expr.documents_keyed : ∀ es : List Expr, ∀ d ∈ documents es, d.Keyed
  | [] => nofun
  | e :: es => List.forall_mem_cons.mpr ⟨document_keyed e, documents_keyed es⟩

end

theorem Visibility.document_keyed (v : Visibility) : v.document.Keyed := by
  cases v <;> exact .text _

mutual

theorem Stmt.document_keyed : ∀ s : Stmt, s.document.Keyed
  | .declare _ name value =>
      .ofKind (by decide : ["identifier", "kind", "value"].Pairwise Precedes)
        (by simp [Keyed.text, value.document_keyed])
  | .array _ name dimensions =>
      .ofKind (by decide : ["dimensions", "identifier", "kind"].Pairwise Precedes)
        (by simp [Keyed.text, Keyed.list (Expr.documents_keyed dimensions)])
  | .routine decl => decl.document_keyed.1
  | .classDecl decl => decl.document_keyed
  | .conditional condition yes none =>
      .ofKind (by decide : ["condition", "else", "kind", "then"].Pairwise Precedes)
        (by simp [Keyed.null, condition.document_keyed, Keyed.list (Stmt.documents_keyed yes)])
  | .conditional condition yes (some no) =>
      .ofKind (by decide : ["condition", "else", "kind", "then"].Pairwise Precedes)
        (by simp [condition.document_keyed, Keyed.list (Stmt.documents_keyed yes),
          Keyed.list (Stmt.documents_keyed no)])
  | .switch subject cases =>
      .ofKind (by decide : ["cases", "discriminant", "kind"].Pairwise Precedes)
        (by simp [subject.document_keyed, Keyed.list (Case.documents_keyed cases)])
  | .count _ name first last body =>
      .ofKind (by decide :
          ["body", "end_value", "initial_value", "kind", "variable"].Pairwise Precedes)
        (by simp [Keyed.text, first.document_keyed, last.document_keyed,
          Keyed.list (Stmt.documents_keyed body)])
  | .whileLoop _ condition body | .untilLoop body condition =>
      .ofKind (by decide : ["body", "condition", "kind"].Pairwise Precedes)
        (by simp [condition.document_keyed, Keyed.list (Stmt.documents_keyed body)])
  | .giveBack _ value =>
      .ofKind (by decide : ["kind", "value"].Pairwise Precedes)
        (by simp [Keyed.ofOption fun e (_ : e ∈ value) => e.document_keyed])
  | .expression e => e.document_keyed

theorem Stmt.documents_keyed : ∀ ss : List Stmt, ∀ d ∈ Stmt.documents ss, d.Keyed
  | [] => nofun
  | s :: ss => List.forall_mem_cons.mpr ⟨s.document_keyed, Stmt.documents_keyed ss⟩

theorem Case.document_keyed : ∀ c : Case, c.document.Keyed
  | ⟨test, body⟩ =>
      .ofKind (by decide : ["kind", "test", "then"].Pairwise Precedes)
        (by simp [Keyed.list (Stmt.documents_keyed body),
          Keyed.ofOption fun e (_ : e ∈ test) => e.document_keyed])

theorem Case.documents_keyed : ∀ cs : List Case, ∀ d ∈ Case.documents cs, d.Keyed
  | [] => nofun
  | c :: cs => List.forall_mem_cons.mpr ⟨c.document_keyed, Case.documents_keyed cs⟩

/-- As a member of a class, a routine shows one key more. -/
theorem RoutineDecl.document_keyed : ∀ decl : RoutineDecl, (decl.document []).Keyed ∧
    ∀ v : Visibility, (decl.document [("visibility", v.document)]).Keyed
  | ⟨kind, name, params, body, _⟩ => by
      have inside := Keyed.list (Stmt.documents_keyed body)
      constructor
      · exact .ofKind (by decide : ["body", "identifier", "kind", "parameters"].Pairwise Precedes)
          (by simp [Keyed.text, Keyed.texts, inside])
      · intro v
        exact .ofKind (by decide :
            ["body", "identifier", "kind", "parameters", "visibility"].Pairwise Precedes)
          (by simp [Keyed.text, Keyed.texts, inside, v.document_keyed])

theorem Member.document_keyed : ∀ m : Member, m.document.Keyed
  | .field visibility _ name =>
      .ofKind (by decide : ["identifier", "kind", "visibility"].Pairwise Precedes)
        (by simp [Keyed.text, visibility.document_keyed])
  | .method visibility _ decl => decl.document_keyed.2 visibility

theorem Member.documents_keyed : ∀ ms : List Member, ∀ d ∈ Member.documents ms, d.Keyed
  | [] => nofun
  | m :: ms => List.forall_mem_cons.mpr ⟨m.document_keyed, Member.documents_keyed ms⟩

theorem ClassDecl.document_keyed : ∀ decl : ClassDecl, decl.document.Keyed
  | ⟨name, parent, members, _⟩ =>
      .ofKind (by decide : ["identifier", "kind", "members", "parent"].Pairwise Precedes)
        (by simp [Keyed.text, Keyed.list (Member.documents_keyed members),
          Keyed.ofOption fun p (_ : p ∈ parent) => Keyed.text p.1])

end

theorem Program.document_keyed (p : Program) : p.document.Keyed :=
  .ofKind (by decide : ["body", "kind"].Pairwise Precedes)
    (by simp [Keyed.list (Stmt.documents_keyed p.body)])

/-- Programs have the same document of one make exactly when they have the same of another. -/
theorem Program.build_document_eq_iff {D : Type} (maker : Maker D) (p q : Program) :
    p.document.build maker = q.document.build maker ↔ p.document = q.document :=
  ⟨eq_of_build p.document_keyed q.document_keyed, congrArg (Document.build maker)⟩

end Pseudocode

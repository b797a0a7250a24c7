import Pseudocode.Program.Document
import Pseudocode.Proofs.Literals

/-!
The document of a program determines the program.

Every node shows its kind and all its parts, so programs with the same document are the
same up to their spans (`document_eq_iff`). An infinite float is shown as null; no other
float of a program is, since floats have no sign (`unsigned_of_parse`).
-/

namespace Pseudocode

/-! ### Floats -/

theorem Document.eq_of_ofFloat {x y : Float} (left : Binary64.Unsigned x)
    (right : Binary64.Unsigned y) (same : ofFloat x = ofFloat y) : x = y := by
  unfold ofFloat at same
  rcases left with ⟨m, e, here⟩ | here <;> rcases right with ⟨m', e', there⟩ | there <;>
    rw [here, there] at same
  · exact Document.float.inj same
  · cases same
  · cases same
  · exact Binary64.shape_injective (here.trans there.symm)

namespace Expr

/-- All floats in an expression are numbers without a sign. -/
def Unsigned (e : Expr) : Prop := ∀ x, e.HasFloat x → Binary64.Unsigned x

theorem HasNode.under {e part : Expr} (mem : part ∈ e.parts) {outer : Option Expr} {n : Expr}
    (node : part.HasNode outer n) : ∃ outer', e.HasNode outer' n := by
  induction node with
  | root => exact ⟨some e, .part .root mem⟩
  | part _ mem' ih =>
      obtain ⟨outer', node⟩ := ih
      exact ⟨_, .part node mem'⟩

theorem Unsigned.part {e part : Expr} (plain : e.Unsigned) (mem : part ∈ e.parts) : part.Unsigned := by
  rintro x ⟨outer, span, node⟩
  obtain ⟨outer', node⟩ := node.under mem
  exact plain x ⟨outer', span, node⟩

namespace Unsigned

variable {e x y : Expr} {xs : List Expr}

theorem first (plain : e.Unsigned) (parts : e.parts = x :: xs) : x.Unsigned :=
  plain.part (by simp [parts])

theorem second (plain : e.Unsigned) (parts : e.parts = x :: y :: xs) : y.Unsigned :=
  plain.part (by simp [parts])

theorem rest (plain : e.Unsigned) (parts : e.parts = x :: xs) : ∀ y ∈ xs, y.Unsigned :=
  fun _ mem => plain.part (by simp [parts, mem])

theorem float {span : Span} {x : Float} (plain : (Expr.float span x).Unsigned) :
    Binary64.Unsigned x :=
  plain x ⟨none, span, .root⟩

end Unsigned

end Expr

theorem BinaryOp.symbol_injective : Function.Injective BinaryOp.symbol := by
  intro op op'
  cases op <;> cases op' <;> simp [symbol]

theorem UnaryOp.symbol_injective : Function.Injective UnaryOp.symbol := by
  intro op op'
  cases op <;> cases op' <;> simp [symbol]

/-! ### Kinds -/

/-- What a node shows under a key. -/
def Document.field? : Document → String → Option Document
  | node fields, key => fields.lookup key
  | _, _ => none

/-- The text that a node shows as its kind. -/
def Document.kind? (d : Document) : Option String :=
  match d.field? "kind" with
  | some (.text k) => some k
  | _ => none

/-! ### Expressions -/

namespace Expr

/-- What an expression is, by its document: only fields and indices are of one kind there. -/
def kindOf (d : Document) : NodeKind :=
  match d.kind? with
  | some "Identifier" => .identifier
  | some "NumericLiteral" => .integer
  | some "FloatLiteral" => .float
  | some "StringLiteral" => .text
  | some "NullLiteral" => .null
  | some "AssignmentExpression" => .assign
  | some "BinaryExpression" => .binary
  | some "UnaryExpression" => .unary
  | some "RangeExpression" => .range
  | some "MemberExpression" => match d.field? "computed" with
    | some (.boolean true) => .index
    | _ => .fieldAccess
  | some "CallExpression" => .call
  | _ => .create

theorem kindOf_document (e : Expr) : kindOf e.document = e.kind := by
  cases e <;> rfl

theorem kind_eq {e e' : Expr} (same : e.document = e'.document) : e.kind = e'.kind := by
  rw [← kindOf_document, ← kindOf_document, same]

mutual

/-- Expressions with the same document are the same up to their spans: a node of another
kind has another document, and a node of the same kind shows all its parts. -/
theorem bare_eq_of_document : ∀ {e e' : Expr}, e.Unsigned → e'.Unsigned →
    e.document = e'.document → e.bare = e'.bare
  | .identifier .., e', _, _, same => by
      cases e' with
      | identifier =>
          have name := by simpa [document, Document.ofKind] using same
          rw [bare, bare, name]
      | _ => cases kind_eq same
  | .integer .., e', _, _, same => by
      cases e' with
      | integer =>
          have value := by simpa [document, Document.ofKind] using same
          rw [bare, bare, value]
      | _ => cases kind_eq same
  | .float .., e', plain, plain', same => by
      cases e' with
      | float =>
          have value := by simpa [document, Document.ofKind] using same
          rw [bare, bare, Document.eq_of_ofFloat plain.float plain'.float value]
      | _ => cases kind_eq same
  | .text .., e', _, _, same => by
      cases e' with
      | text =>
          have value := by simpa [document, Document.ofKind] using same
          rw [bare, bare, value]
      | _ => cases kind_eq same
  | .null _, e', _, _, same => by
      cases e' with
      | null => rfl
      | _ => cases kind_eq same
  | .assign .., e', plain, plain', same => by
      cases e' with
      | assign =>
          obtain ⟨target, value⟩ := by simpa [document, Document.ofKind] using same
          rw [bare, bare, bare_eq_of_document (plain.first rfl) (plain'.first rfl) target,
            bare_eq_of_document (plain.second rfl) (plain'.second rfl) value]
      | _ => cases kind_eq same
  | .binary .., e', plain, plain', same => by
      cases e' with
      | binary =>
          obtain ⟨left, symbol, right⟩ := by simpa [document, Document.ofKind] using same
          rw [bare, bare, BinaryOp.symbol_injective symbol,
            bare_eq_of_document (plain.first rfl) (plain'.first rfl) left,
            bare_eq_of_document (plain.second rfl) (plain'.second rfl) right]
      | _ => cases kind_eq same
  | .unary .., e', plain, plain', same => by
      cases e' with
      | unary =>
          obtain ⟨operand, symbol⟩ := by simpa [document, Document.ofKind] using same
          rw [bare, bare, UnaryOp.symbol_injective symbol,
            bare_eq_of_document (plain.first rfl) (plain'.first rfl) operand]
      | _ => cases kind_eq same
  | .range .., e', plain, plain', same => by
      cases e' with
      | range =>
          obtain ⟨stop, start⟩ := by simpa [document, Document.ofKind] using same
          rw [bare, bare, bare_eq_of_document (plain.first rfl) (plain'.first rfl) start,
            bare_eq_of_document (plain.second rfl) (plain'.second rfl) stop]
      | _ => cases kind_eq same
  | .member .., e', plain, plain', same => by
      cases e' with
      | member =>
          obtain ⟨object, field⟩ := by simpa [document, Document.ofKind] using same
          rw [bare, bare, bare_eq_of_document (plain.first rfl) (plain'.first rfl) object, field]
      | _ => cases kind_eq same
  | .index .., e', plain, plain', same => by
      cases e' with
      | index =>
          obtain ⟨object, place⟩ := by simpa [document, Document.ofKind] using same
          rw [bare, bare, bare_eq_of_document (plain.first rfl) (plain'.first rfl) object,
            bare_eq_of_document (plain.second rfl) (plain'.second rfl) place]
      | _ => cases kind_eq same
  | .call .., e', plain, plain', same => by
      cases e' with
      | call =>
          obtain ⟨args, callee⟩ := by simpa [document, Document.ofKind] using same
          rw [bare, bare, bare_eq_of_document (plain.first rfl) (plain'.first rfl) callee,
            bareOf_eq_of_documents (plain.rest rfl) (plain'.rest rfl) args]
      | _ => cases kind_eq same
  | .create .., e', plain, plain', same => by
      cases e' with
      | create =>
          obtain ⟨args, created⟩ := by simpa [document, Document.ofKind] using same
          rw [bare, bare, bare_eq_of_document (plain.first rfl) (plain'.first rfl) created,
            bareOf_eq_of_documents (plain.rest rfl) (plain'.rest rfl) args]
      | _ => cases kind_eq same

theorem bareOf_eq_of_documents : ∀ {es es' : List Expr}, (∀ e ∈ es, e.Unsigned) →
    (∀ e ∈ es', e.Unsigned) → documents es = documents es' → bareOf es = bareOf es'
  | [], [], _, _, _ => rfl
  | [], _ :: _, _, _, same => by simp [documents] at same
  | _ :: _, [], _, _, same => by simp [documents] at same
  | _ :: _, _ :: _, plain, plain', same => by
      obtain ⟨first, rest⟩ := List.forall_mem_cons.mp plain
      obtain ⟨first', rest'⟩ := List.forall_mem_cons.mp plain'
      obtain ⟨here, more⟩ := List.cons.inj same
      rw [bareOf, bareOf, bare_eq_of_document first first' here,
        bareOf_eq_of_documents rest rest' more]

end

end Expr

/-- No expression is shown as null, so a missing one is not mistaken for one. -/
theorem Expr.bare_eq_of_ofOption {v v' : Option Expr} (plain : ∀ e ∈ v, e.Unsigned)
    (plain' : ∀ e ∈ v', e.Unsigned)
    (same : Document.ofOption Expr.document v = Document.ofOption Expr.document v') :
    v.map Expr.bare = v'.map Expr.bare := by
  have shown (e : Expr) : e.document ≠ .null := by cases e <;> exact nofun
  cases v with
  | none =>
      cases v' with
      | none => rfl
      | some e' => exact absurd same.symm (shown e')
  | some e =>
      cases v' with
      | none => exact absurd same (shown e)
      | some e' => exact congrArg some (Expr.bare_eq_of_document (plain e rfl) (plain' e' rfl) same)

/-! ### Statements and declarations -/

/-- What a statement is, by the kind that its document shows. -/
inductive StmtForm where
  | declare | array | routine | classDecl | conditional | switch | count | whileLoop | untilLoop
  | giveBack | expression

def Stmt.form : Stmt → StmtForm
  | .declare .. => .declare
  | .array .. => .array
  | .routine _ => .routine
  | .classDecl _ => .classDecl
  | .conditional .. => .conditional
  | .switch .. => .switch
  | .count .. => .count
  | .whileLoop .. => .whileLoop
  | .untilLoop .. => .untilLoop
  | .giveBack .. => .giveBack
  | .expression _ => .expression

/-- The form of the statements that show a kind: expressions have no wrapper. -/
def StmtForm.ofKind : Option String → StmtForm
  | some "VariableDeclaration" => .declare
  | some "ArrayDeclaration" => .array
  | some "FunctionDeclaration" => .routine
  | some "ProcedureDeclaration" => .routine
  | some "ClassDeclaration" => .classDecl
  | some "IfStatement" => .conditional
  | some "SwitchStatement" => .switch
  | some "ForLoop" => .count
  | some "WhileLoop" => .whileLoop
  | some "DoUntilLoop" => .untilLoop
  | some "ReturnStatement" => .giveBack
  | _ => .expression

theorem Stmt.ofKind_document (s : Stmt) : StmtForm.ofKind s.document.kind? = s.form := by
  cases s with
  | routine decl =>
      obtain ⟨kind, name, params, body, span⟩ := decl
      cases kind <;> rfl
  | classDecl decl =>
      obtain ⟨name, parent, members, span⟩ := decl
      rfl
  | conditional condition yes no => cases no <;> rfl
  | expression e => cases e <;> rfl
  | _ => rfl

theorem Stmt.form_eq {s s' : Stmt} (same : s.document = s'.document) : s.form = s'.form := by
  rw [← ofKind_document, ← ofKind_document, same]

theorem RoutineKind.title_injective : Function.Injective RoutineKind.title := by
  intro kind kind'
  cases kind <;> cases kind' <;> simp [title]

theorem Visibility.document_injective : Function.Injective Visibility.document := by
  intro v v'
  cases v <;> cases v' <;> simp [document]

theorem Document.texts_injective : Function.Injective (List.map Document.text) :=
  List.map_injective_iff.mpr fun _ _ => Document.text.inj

/-- The name of a parent class is all that is shown of it. -/
theorem ClassDecl.parent_bare_eq {parent parent' : Option (String × Span)}
    (same : Document.ofOption (fun p => .text p.1) parent =
      Document.ofOption (fun p => .text p.1) parent') :
    parent.map (fun p => (p.1, Span.unplaced)) = parent'.map fun p => (p.1, Span.unplaced) := by
  cases parent with
  | none =>
      cases parent' with
      | none => rfl
      | some _ => cases same
  | some p =>
      cases parent' with
      | none => cases same
      | some p' => simp only [Option.map_some, Document.text.inj same]

mutual

theorem Stmt.bare_eq_of_document : ∀ {s s' : Stmt}, (∀ e ∈ s.exprs, e.Unsigned) →
    (∀ e ∈ s'.exprs, e.Unsigned) → s.document = s'.document → s.bare = s'.bare
  | .declare .., s', plain, plain', same => by
      cases s' with
      | declare =>
          obtain ⟨name, value⟩ := by simpa [Stmt.document, Document.ofKind] using same
          simp only [Stmt.exprs, List.forall_mem_singleton] at plain plain'
          rw [Stmt.bare, Stmt.bare, name, Expr.bare_eq_of_document plain plain' value]
      | _ => cases Stmt.form_eq same
  | .array .., s', plain, plain', same => by
      cases s' with
      | array =>
          obtain ⟨dimensions, name⟩ := by simpa [Stmt.document, Document.ofKind] using same
          simp only [Stmt.exprs] at plain plain'
          rw [Stmt.bare, Stmt.bare, name, ← Expr.bareOf_eq, ← Expr.bareOf_eq,
            Expr.bareOf_eq_of_documents plain plain' dimensions]
      | _ => cases Stmt.form_eq same
  | .routine _, s', plain, plain', same => by
      cases s' with
      | routine =>
          rw [Stmt.bare, Stmt.bare, (RoutineDecl.bare_eq_of_document plain plain' same).1]
      | _ => cases Stmt.form_eq same
  | .classDecl _, s', plain, plain', same => by
      cases s' with
      | classDecl => rw [Stmt.bare, Stmt.bare, ClassDecl.bare_eq_of_document plain plain' same]
      | _ => cases Stmt.form_eq same
  | .conditional _ _ none, s', plain, plain', same => by
      cases s' with
      | conditional _ _ no' =>
          cases no' with
          | none =>
              obtain ⟨test, yes⟩ := by simpa [Stmt.document, Document.ofKind] using same
              simp only [Stmt.exprs, List.forall_mem_cons] at plain plain'
              rw [Stmt.bare, Stmt.bare, Expr.bare_eq_of_document plain.1 plain'.1 test,
                Stmt.bareOf_eq_of_documents plain.2 plain'.2 yes]
          | some _ => simp [Stmt.document, Document.ofKind] at same
      | _ => cases Stmt.form_eq same
  | .conditional _ _ (some _), s', plain, plain', same => by
      cases s' with
      | conditional _ _ no' =>
          cases no' with
          | none => simp [Stmt.document, Document.ofKind] at same
          | some _ =>
              obtain ⟨test, no, yes⟩ := by simpa [Stmt.document, Document.ofKind] using same
              simp only [Stmt.exprs, List.forall_mem_cons, List.forall_mem_append] at plain plain'
              rw [Stmt.bare, Stmt.bare, Expr.bare_eq_of_document plain.1 plain'.1 test,
                Stmt.bareOf_eq_of_documents plain.2.1 plain'.2.1 yes,
                Stmt.bareOf_eq_of_documents plain.2.2 plain'.2.2 no]
      | _ => cases Stmt.form_eq same
  | .switch .., s', plain, plain', same => by
      cases s' with
      | switch =>
          obtain ⟨arms, subject⟩ := by simpa [Stmt.document, Document.ofKind] using same
          simp only [Stmt.exprs, List.forall_mem_cons] at plain plain'
          rw [Stmt.bare, Stmt.bare, Expr.bare_eq_of_document plain.1 plain'.1 subject,
            Case.bareOf_eq_of_documents plain.2 plain'.2 arms]
      | _ => cases Stmt.form_eq same
  | .count .., s', plain, plain', same => by
      cases s' with
      | count =>
          obtain ⟨body, last, first, name⟩ := by simpa [Stmt.document, Document.ofKind] using same
          simp only [Stmt.exprs, List.forall_mem_cons] at plain plain'
          rw [Stmt.bare, Stmt.bare, name, Expr.bare_eq_of_document plain.1 plain'.1 first,
            Expr.bare_eq_of_document plain.2.1 plain'.2.1 last,
            Stmt.bareOf_eq_of_documents plain.2.2 plain'.2.2 body]
      | _ => cases Stmt.form_eq same
  | .whileLoop .., s', plain, plain', same => by
      cases s' with
      | whileLoop =>
          obtain ⟨body, test⟩ := by simpa [Stmt.document, Document.ofKind] using same
          simp only [Stmt.exprs, List.forall_mem_cons] at plain plain'
          rw [Stmt.bare, Stmt.bare, Expr.bare_eq_of_document plain.1 plain'.1 test,
            Stmt.bareOf_eq_of_documents plain.2 plain'.2 body]
      | _ => cases Stmt.form_eq same
  | .untilLoop .., s', plain, plain', same => by
      cases s' with
      | untilLoop =>
          obtain ⟨body, test⟩ := by simpa [Stmt.document, Document.ofKind] using same
          simp only [Stmt.exprs, List.forall_mem_append, List.forall_mem_singleton] at plain plain'
          rw [Stmt.bare, Stmt.bare, Expr.bare_eq_of_document plain.2 plain'.2 test,
            Stmt.bareOf_eq_of_documents plain.1 plain'.1 body]
      | _ => cases Stmt.form_eq same
  | .giveBack .., s', plain, plain', same => by
      cases s' with
      | giveBack =>
          have value := by simpa [Stmt.document, Document.ofKind] using same
          simp only [Stmt.exprs, Option.mem_toList] at plain plain'
          rw [Stmt.bare, Stmt.bare, Expr.bare_eq_of_ofOption plain plain' value]
      | _ => cases Stmt.form_eq same
  | .expression _, s', plain, plain', same => by
      cases s' with
      | expression =>
          simp only [Stmt.exprs, List.forall_mem_singleton] at plain plain'
          rw [Stmt.bare, Stmt.bare, Expr.bare_eq_of_document plain plain' same]
      | _ => cases Stmt.form_eq same
termination_by structural x => x

theorem Stmt.bareOf_eq_of_documents : ∀ {ss ss' : List Stmt},
    (∀ e ∈ Stmt.exprsOf ss, e.Unsigned) → (∀ e ∈ Stmt.exprsOf ss', e.Unsigned) →
    Stmt.documents ss = Stmt.documents ss' → Stmt.bareOf ss = Stmt.bareOf ss'
  | [], [], _, _, _ => rfl
  | [], _ :: _, _, _, same => by simp [Stmt.documents] at same
  | _ :: _, [], _, _, same => by simp [Stmt.documents] at same
  | _ :: _, _ :: _, plain, plain', same => by
      simp only [Stmt.exprsOf, List.forall_mem_append] at plain plain'
      obtain ⟨here, more⟩ := List.cons.inj same
      rw [Stmt.bareOf, Stmt.bareOf, Stmt.bare_eq_of_document plain.1 plain'.1 here,
        Stmt.bareOf_eq_of_documents plain.2 plain'.2 more]
termination_by structural x => x

theorem Case.bareOf_eq_of_documents : ∀ {cs cs' : List Case},
    (∀ e ∈ Case.exprsOf cs, e.Unsigned) → (∀ e ∈ Case.exprsOf cs', e.Unsigned) →
    Case.documents cs = Case.documents cs' → Case.bareOf cs = Case.bareOf cs'
  | [], [], _, _, _ => rfl
  | [], _ :: _, _, _, same => by simp [Case.documents] at same
  | _ :: _, [], _, _, same => by simp [Case.documents] at same
  | ⟨_, _⟩ :: _, ⟨_, _⟩ :: _, plain, plain', same => by
      simp only [Case.exprsOf, Case.exprs, List.forall_mem_append, Option.mem_toList] at plain plain'
      obtain ⟨here, more⟩ := List.cons.inj same
      obtain ⟨test, body⟩ := by simpa [Case.document, Document.ofKind] using here
      rw [Case.bareOf, Case.bareOf, Case.bare, Case.bare,
        Expr.bare_eq_of_ofOption plain.1.1 plain'.1.1 test,
        Stmt.bareOf_eq_of_documents plain.1.2 plain'.1.2 body,
        Case.bareOf_eq_of_documents plain.2 plain'.2 more]
termination_by structural x => x

/-- What a routine shows besides is the visibility of a member. -/
theorem RoutineDecl.bare_eq_of_document : ∀ {decl decl' : RoutineDecl}
    {extra extra' : List (String × Document)}, (∀ e ∈ decl.exprs, e.Unsigned) →
    (∀ e ∈ decl'.exprs, e.Unsigned) → decl.document extra = decl'.document extra' →
    decl.bare = decl'.bare ∧ extra = extra'
  | ⟨_, _, _, _, _⟩, ⟨_, _, _, _, _⟩, _, _, plain, plain', same => by
      obtain ⟨body, name, kind, params, shown⟩ := by
        simpa [RoutineDecl.document, Document.ofKind] using same
      rw [RoutineDecl.bare, RoutineDecl.bare, name, RoutineKind.title_injective kind,
        Document.texts_injective params, Stmt.bareOf_eq_of_documents plain plain' body]
      exact ⟨rfl, shown⟩
termination_by structural x => x

theorem Member.bareOf_eq_of_documents : ∀ {ms ms' : List Member},
    (∀ e ∈ Member.exprsOf ms, e.Unsigned) → (∀ e ∈ Member.exprsOf ms', e.Unsigned) →
    Member.documents ms = Member.documents ms' → Member.bareOf ms = Member.bareOf ms'
  | [], [], _, _, _ => rfl
  | [], _ :: _, _, _, same => by simp [Member.documents] at same
  | _ :: _, [], _, _, same => by simp [Member.documents] at same
  | .field .. :: _, .field .. :: _, plain, plain', same => by
      simp only [Member.exprsOf, List.forall_mem_append] at plain plain'
      obtain ⟨here, more⟩ := List.cons.inj same
      obtain ⟨name, visibility⟩ := by simpa [Member.document, Document.ofKind] using here
      rw [Member.bareOf, Member.bareOf, Member.bare, Member.bare, name,
        Visibility.document_injective visibility, Member.bareOf_eq_of_documents plain.2 plain'.2 more]
  | .field .. :: _, .method _ _ decl :: _, _, _, same => by
      obtain ⟨here, _⟩ := List.cons.inj same
      cases decl
      simp [Member.document, RoutineDecl.document, Document.ofKind] at here
  | .method _ _ decl :: _, .field .. :: _, _, _, same => by
      obtain ⟨here, _⟩ := List.cons.inj same
      cases decl
      simp [Member.document, RoutineDecl.document, Document.ofKind] at here
  | .method _ _ _ :: _, .method _ _ _ :: _, plain, plain', same => by
      simp only [Member.exprsOf, List.forall_mem_append] at plain plain'
      obtain ⟨here, more⟩ := List.cons.inj same
      obtain ⟨decl, shown⟩ := RoutineDecl.bare_eq_of_document plain.1 plain'.1 here
      have visibility := by simpa using shown
      rw [Member.bareOf, Member.bareOf, Member.bare, Member.bare, decl,
        Visibility.document_injective visibility, Member.bareOf_eq_of_documents plain.2 plain'.2 more]
termination_by structural x => x

theorem ClassDecl.bare_eq_of_document : ∀ {decl decl' : ClassDecl},
    (∀ e ∈ decl.exprs, e.Unsigned) → (∀ e ∈ decl'.exprs, e.Unsigned) →
    decl.document = decl'.document → decl.bare = decl'.bare
  | ⟨_, _, _, _⟩, ⟨_, _, _, _⟩, plain, plain', same => by
      obtain ⟨name, members, parent⟩ := by simpa [ClassDecl.document, Document.ofKind] using same
      rw [ClassDecl.bare, ClassDecl.bare, name, ClassDecl.parent_bare_eq parent,
        Member.bareOf_eq_of_documents plain plain' members]
termination_by structural x => x

end

/-! ### Documents without spans -/

mutual

theorem Expr.document_bare : ∀ e : Expr, e.bare.document = e.document
  | .identifier .. => rfl
  | .integer .. => rfl
  | .float .. => rfl
  | .text .. => rfl
  | .null _ => rfl
  | .assign _ target value => by
      rw [bare, document, document, document_bare target, document_bare value]
  | .binary _ _ left right => by
      rw [bare, document, document, document_bare left, document_bare right]
  | .unary _ _ operand => by rw [bare, document, document, document_bare operand]
  | .range _ start stop => by
      rw [bare, document, document, document_bare start, document_bare stop]
  | .member _ object _ => by rw [bare, document, document, document_bare object]
  | .index _ object i => by rw [bare, document, document, document_bare object, document_bare i]
  | .call _ callee args => by
      rw [bare, document, document, document_bare callee, documents_bareOf args]
  | .create _ classExpr args => by
      rw [bare, document, document, document_bare classExpr, documents_bareOf args]

theorem Expr.documents_bareOf : ∀ es : List Expr, documents (bareOf es) = documents es
  | [] => rfl
  | e :: es => by rw [bareOf, documents, documents, document_bare e, documents_bareOf es]

end

theorem Expr.ofOption_bare (v : Option Expr) :
    Document.ofOption Expr.document (v.map Expr.bare) = Document.ofOption Expr.document v := by
  cases v with
  | none => rfl
  | some e => exact e.document_bare

mutual

theorem Stmt.document_bare : ∀ s : Stmt, s.bare.document = s.document
  | .declare _ _ value => by rw [Stmt.bare, Stmt.document, Stmt.document, value.document_bare]
  | .array _ _ dimensions => by
      rw [Stmt.bare, Stmt.document, Stmt.document, ← Expr.bareOf_eq, Expr.documents_bareOf]
  | .routine decl => RoutineDecl.document_bare decl []
  | .classDecl decl => ClassDecl.document_bare decl
  | .conditional condition yes none => by
      rw [Stmt.bare, Stmt.document, Stmt.document, condition.document_bare, Stmt.documents_bareOf yes]
  | .conditional condition yes (some no) => by
      rw [Stmt.bare, Stmt.document, Stmt.document, condition.document_bare, Stmt.documents_bareOf yes,
        Stmt.documents_bareOf no]
  | .switch subject cases => by
      rw [Stmt.bare, Stmt.document, Stmt.document, subject.document_bare, Case.documents_bareOf cases]
  | .count _ _ first last body => by
      rw [Stmt.bare, Stmt.document, Stmt.document, first.document_bare, last.document_bare,
        Stmt.documents_bareOf body]
  | .whileLoop _ condition body => by
      rw [Stmt.bare, Stmt.document, Stmt.document, condition.document_bare, Stmt.documents_bareOf body]
  | .untilLoop body condition => by
      rw [Stmt.bare, Stmt.document, Stmt.document, condition.document_bare, Stmt.documents_bareOf body]
  | .giveBack _ value => by rw [Stmt.bare, Stmt.document, Stmt.document, Expr.ofOption_bare value]
  | .expression e => e.document_bare

theorem Stmt.documents_bareOf : ∀ ss : List Stmt, Stmt.documents (Stmt.bareOf ss) = Stmt.documents ss
  | [] => rfl
  | s :: ss => by
      rw [Stmt.bareOf, Stmt.documents, Stmt.documents, Stmt.document_bare s, Stmt.documents_bareOf ss]

theorem Case.documents_bareOf : ∀ cs : List Case, Case.documents (Case.bareOf cs) = Case.documents cs
  | [] => rfl
  | ⟨test, body⟩ :: cs => by
      rw [Case.bareOf, Case.bare, Case.documents, Case.documents, Case.document, Case.document,
        Expr.ofOption_bare test, Stmt.documents_bareOf body, Case.documents_bareOf cs]

theorem RoutineDecl.document_bare : ∀ (decl : RoutineDecl) (extra : List (String × Document)),
    decl.bare.document extra = decl.document extra
  | ⟨_, _, _, body, _⟩, _ => by
      rw [RoutineDecl.bare, RoutineDecl.document, RoutineDecl.document, Stmt.documents_bareOf body]

theorem Member.documents_bareOf :
    ∀ ms : List Member, Member.documents (Member.bareOf ms) = Member.documents ms
  | [] => rfl
  | .field .. :: ms => by
      rw [Member.bareOf, Member.documents, Member.documents, Member.documents_bareOf ms]
      rfl
  | .method _ _ decl :: ms => by
      rw [Member.bareOf, Member.bare, Member.documents, Member.documents, Member.document,
        Member.document, RoutineDecl.document_bare decl, Member.documents_bareOf ms]

theorem ClassDecl.document_bare : ∀ decl : ClassDecl, decl.bare.document = decl.document
  | ⟨_, parent, members, _⟩ => by
      rw [ClassDecl.bare, ClassDecl.document, ClassDecl.document, Member.documents_bareOf members]
      cases parent <;> rfl

end

/-! ### Programs -/

/-- The documents of two programs that were read are equal exactly when the programs are the
same up to their spans. Their floats are compared as numbers: two of them that are equal are
the same double, and one that is too large for a double is infinite. -/
theorem document_eq_iff {source source' : String} {p q : Program} (parsed : parse source = .ok p)
    (parsed' : parse source' = .ok q) :
    (p.document = q.document ↔ p.bare = q.bare) ∧
      ∀ e ∈ p.exprs, ∀ e' ∈ q.exprs, ∀ x y, e.HasFloat x → e'.HasFloat y →
        ((x == y) = true ↔ x = y) := by
  have plain := unsigned_of_parse parsed
  have plain' := unsigned_of_parse parsed'
  refine ⟨⟨?_, ?_⟩, ?_⟩
  · intro same
    have bodies := by simpa [Program.document, Document.ofKind] using same
    exact congrArg Program.mk (Stmt.bareOf_eq_of_documents plain plain' bodies)
  · intro same
    have bodies : Stmt.bareOf p.body = Stmt.bareOf q.body := congrArg Program.body same
    rw [Program.document, Program.document, ← Stmt.documents_bareOf p.body, bodies,
      Stmt.documents_bareOf]
  · intro e mem e' mem' x y here there
    exact (plain e mem x here).beq_iff (plain' e' mem' y there)

/-- The name and the integer of an assignment of an integer to a variable. -/
def Stmt.assigned? : Stmt → Option (String × Int64)
  | .expression (.assign _ (.identifier _ name) (.integer _ n)) => some (name, n)
  | _ => none

theorem Stmt.bare_of_assigned? {s : Stmt} {name : String} {n : Int64} (assigned : s.assigned? = some (name, n)) :
    s.bare = .expression (.assign .unplaced (.identifier .unplaced name) (.integer .unplaced n)) := by
  unfold assigned? at assigned
  split at assigned
  · cases assigned
    rfl
  · cases assigned

/-- The same assignment twice, with other spaces and another numeral. -/
theorem document_eq_iff_assignment :
    ∃ p q, parse "x = 10" = .ok p ∧ parse " x=1_0" = .ok q ∧ p.bare = q.bare ∧
      p.document = q.document := by
  have bare : ∀ source, (parse source).toOption.map (fun p => p.body.map Stmt.assigned?) = some [some ("x", 10)] →
      ∃ p, parse source = .ok p ∧ p.bare =
        ⟨[.expression (.assign .unplaced (.identifier .unplaced "x") (.integer .unplaced 10))]⟩ := by
    intro source run
    obtain ⟨p, read, one⟩ := Option.map_eq_some_iff.mp run
    obtain ⟨s, body, assigned⟩ := List.map_eq_singleton_iff.mp one
    cases parsed : parse source with
    | error problem =>
        rw [parsed] at read
        cases read
    | ok q =>
        rw [parsed] at read
        cases read
        refine ⟨p, rfl, ?_⟩
        rw [Program.bare, body, Stmt.bareOf, Stmt.bareOf, Stmt.bare_of_assigned? assigned]
  obtain ⟨p, parsed, same⟩ := bare "x = 10" (by decide +kernel)
  obtain ⟨q, parsed', same'⟩ := bare " x=1_0" (by decide +kernel)
  have alike : p.bare = q.bare := same.trans same'.symm
  exact ⟨p, q, parsed, parsed', alike, (document_eq_iff parsed parsed').1.mpr alike⟩

end Pseudocode

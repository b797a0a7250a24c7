import Mathlib.Data.List.Forall2
import Pseudocode.Program.Nodes
import Pseudocode.Proofs.Printing

/-!
Syntax that agrees up to its spans.

`Agree ρ` relates two pieces of syntax that are the same but for their spans, and
whose spans are related by `ρ` place by place. The spans of class members are left
out: nothing that happens when a program runs is placed there. With the relation
that always holds this is equality up to spans (`Program.agree_iff_bare`), and
syntax agrees with itself as far as the spans of its nodes are related to themselves
(`Program.agree_self`).
-/

namespace Pseudocode

inductive Expr.Agree (ρ : Span → Span → Prop) : Expr → Expr → Prop where
  | identifier {s s' : Span} (placed : ρ s s') (name : String) :
      Agree ρ (.identifier s name) (.identifier s' name)
  | integer {s s' : Span} (placed : ρ s s') (n : Int64) : Agree ρ (.integer s n) (.integer s' n)
  | float {s s' : Span} (placed : ρ s s') (x : Float) : Agree ρ (.float s x) (.float s' x)
  | text {s s' : Span} (placed : ρ s s') (t : String) : Agree ρ (.text s t) (.text s' t)
  | null {s s' : Span} (placed : ρ s s') : Agree ρ (.null s) (.null s')
  | assign {s s' : Span} {target target' value value' : Expr} (placed : ρ s s')
      (left : Agree ρ target target') (right : Agree ρ value value') :
      Agree ρ (.assign s target value) (.assign s' target' value')
  | binary {s s' : Span} (op : BinaryOp) {l l' r r' : Expr} (placed : ρ s s')
      (left : Agree ρ l l') (right : Agree ρ r r') :
      Agree ρ (.binary s op l r) (.binary s' op l' r')
  | unary {s s' : Span} (op : UnaryOp) {e e' : Expr} (placed : ρ s s') (inner : Agree ρ e e') :
      Agree ρ (.unary s op e) (.unary s' op e')
  | range {s s' : Span} {a a' b b' : Expr} (placed : ρ s s') (first : Agree ρ a a')
      (last : Agree ρ b b') : Agree ρ (.range s a b) (.range s' a' b')
  | member {s s' : Span} {e e' : Expr} (placed : ρ s s') (inner : Agree ρ e e') (field : String) :
      Agree ρ (.member s e field) (.member s' e' field)
  | index {s s' : Span} {e e' i i' : Expr} (placed : ρ s s') (inner : Agree ρ e e')
      (position : Agree ρ i i') : Agree ρ (.index s e i) (.index s' e' i')
  | call {s s' : Span} {e e' : Expr} {args args' : List Expr} (placed : ρ s s')
      (callee : Agree ρ e e') (given : List.Forall₂ (Agree ρ) args args') :
      Agree ρ (.call s e args) (.call s' e' args')
  | create {s s' : Span} {e e' : Expr} {args args' : List Expr} (placed : ρ s s')
      (created : Agree ρ e e') (given : List.Forall₂ (Agree ρ) args args') :
      Agree ρ (.create s e args) (.create s' e' args')

mutual

inductive Stmt.Agree (ρ : Span → Span → Prop) : Stmt → Stmt → Prop where
  | declare {s s' : Span} (name : String) {e e' : Expr} (placed : ρ s s') (value : e.Agree ρ e') :
      Stmt.Agree ρ (.declare s name e) (.declare s' name e')
  | array {s s' : Span} (name : String) {es es' : List Expr} (placed : ρ s s')
      (sizes : List.Forall₂ (Expr.Agree ρ) es es') :
      Stmt.Agree ρ (.array s name es) (.array s' name es')
  | routine {decl decl' : RoutineDecl} (same : RoutineDecl.Agree ρ decl decl') :
      Stmt.Agree ρ (.routine decl) (.routine decl')
  | classDecl {decl decl' : ClassDecl} (same : ClassDecl.Agree ρ decl decl') :
      Stmt.Agree ρ (.classDecl decl) (.classDecl decl')
  | once {e e' : Expr} {yes yes' : List Stmt} (test : e.Agree ρ e')
      (then_ : List.Forall₂ (Stmt.Agree ρ) yes yes') :
      Stmt.Agree ρ (.conditional e yes none) (.conditional e' yes' none)
  | either {e e' : Expr} {yes yes' no no' : List Stmt} (test : e.Agree ρ e')
      (then_ : List.Forall₂ (Stmt.Agree ρ) yes yes') (else_ : List.Forall₂ (Stmt.Agree ρ) no no') :
      Stmt.Agree ρ (.conditional e yes (some no)) (.conditional e' yes' (some no'))
  | switch {e e' : Expr} {cases cases' : List Case} (subject : e.Agree ρ e')
      (arms : List.Forall₂ (Case.Agree ρ) cases cases') :
      Stmt.Agree ρ (.switch e cases) (.switch e' cases')
  | count {s s' : Span} (name : String) {a a' b b' : Expr} {body body' : List Stmt} (placed : ρ s s')
      (first : a.Agree ρ a') (last : b.Agree ρ b') (inside : List.Forall₂ (Stmt.Agree ρ) body body') :
      Stmt.Agree ρ (.count s name a b body) (.count s' name a' b' body')
  | whileLoop {s s' : Span} {e e' : Expr} {body body' : List Stmt} (placed : ρ s s')
      (test : e.Agree ρ e') (inside : List.Forall₂ (Stmt.Agree ρ) body body') :
      Stmt.Agree ρ (.whileLoop s e body) (.whileLoop s' e' body')
  | untilLoop {e e' : Expr} {body body' : List Stmt} (inside : List.Forall₂ (Stmt.Agree ρ) body body')
      (test : e.Agree ρ e') : Stmt.Agree ρ (.untilLoop body e) (.untilLoop body' e')
  | giveBack {s s' : Span} {v v' : Option Expr} (placed : ρ s s')
      (value : Option.Rel (Expr.Agree ρ) v v') : Stmt.Agree ρ (.giveBack s v) (.giveBack s' v')
  | expression {e e' : Expr} (same : e.Agree ρ e') : Stmt.Agree ρ (.expression e) (.expression e')

inductive Case.Agree (ρ : Span → Span → Prop) : Case → Case → Prop where
  | arm {test test' : Option Expr} {body body' : List Stmt}
      (tested : Option.Rel (Expr.Agree ρ) test test')
      (inside : List.Forall₂ (Stmt.Agree ρ) body body') : Case.Agree ρ ⟨test, body⟩ ⟨test', body'⟩

inductive RoutineDecl.Agree (ρ : Span → Span → Prop) : RoutineDecl → RoutineDecl → Prop where
  | decl (kind : RoutineKind) (name : String) (params : List String) {body body' : List Stmt}
      {s s' : Span} (inside : List.Forall₂ (Stmt.Agree ρ) body body') (placed : ρ s s') :
      RoutineDecl.Agree ρ ⟨kind, name, params, body, s⟩ ⟨kind, name, params, body', s'⟩

inductive Member.Agree (ρ : Span → Span → Prop) : Member → Member → Prop where
  | field (visibility : Visibility) (s s' : Span) (name : String) :
      Member.Agree ρ (.field visibility s name) (.field visibility s' name)
  | method (visibility : Visibility) (s s' : Span) {decl decl' : RoutineDecl}
      (same : RoutineDecl.Agree ρ decl decl') :
      Member.Agree ρ (.method visibility s decl) (.method visibility s' decl')

inductive ClassDecl.Agree (ρ : Span → Span → Prop) : ClassDecl → ClassDecl → Prop where
  | decl (name : String) {parent parent' : Option (String × Span)} {members members' : List Member}
      {s s' : Span} (above : Option.Rel (fun p p' => p'.1 = p.1 ∧ ρ p.2 p'.2) parent parent')
      (inside : List.Forall₂ (Member.Agree ρ) members members') (placed : ρ s s') :
      ClassDecl.Agree ρ ⟨name, parent, members, s⟩ ⟨name, parent', members', s'⟩

end

def Program.Agree (ρ : Span → Span → Prop) (p p' : Program) : Prop :=
  List.Forall₂ (Stmt.Agree ρ) p.body p'.body

variable {ρ : Span → Span → Prop}

/-! ### Parts -/

namespace Expr.Agree

variable {e e' : Expr}

theorem span (agree : e.Agree ρ e') : ρ e.span e'.span := by
  cases agree <;> assumption

theorem withSpan (agree : e.Agree ρ e') {s s' : Span} (placed : ρ s s') :
    (e.withSpan s).Agree ρ (e'.withSpan s') := by
  cases agree with
  | identifier _ name => exact .identifier placed name
  | integer _ n => exact .integer placed n
  | float _ x => exact .float placed x
  | text _ t => exact .text placed t
  | null _ => exact .null placed
  | assign _ left right => exact .assign placed left right
  | binary op _ left right => exact .binary op placed left right
  | unary op _ inner => exact .unary op placed inner
  | range _ first last => exact .range placed first last
  | member _ inner field => exact .member placed inner field
  | index _ inner position => exact .index placed inner position
  | call _ callee given => exact .call placed callee given
  | create _ created given => exact .create placed created given

theorem isTarget (agree : e.Agree ρ e') : e'.isTarget = e.isTarget := by
  cases agree <;> rfl

end Expr.Agree

namespace Member.Agree

variable {m m' : Member}

theorem name (agree : m.Agree ρ m') : m'.name = m.name := by
  cases agree with
  | field => rfl
  | method _ _ _ same => cases same; rfl

theorem visibility (agree : m.Agree ρ m') : m'.visibility = m.visibility := by
  cases agree <;> rfl

theorem isMethod (agree : m.Agree ρ m') : m'.isMethod = m.isMethod := by
  cases agree <;> rfl

end Member.Agree

/-! ### Equality up to spans -/

mutual

theorem Expr.bare_eq_of_agree : ∀ {e e' : Expr}, e.Agree ρ e' → e'.bare = e.bare
  | .identifier .., _, .identifier .. => rfl
  | .integer .., _, .integer .. => rfl
  | .float .., _, .float .. => rfl
  | .text .., _, .text .. => rfl
  | .null _, _, .null _ => rfl
  | .assign .., _, .assign _ left right => by
      rw [Expr.bare, Expr.bare, bare_eq_of_agree left, bare_eq_of_agree right]
  | .binary .., _, .binary _ _ left right => by
      rw [Expr.bare, Expr.bare, bare_eq_of_agree left, bare_eq_of_agree right]
  | .unary .., _, .unary _ _ inner => by rw [Expr.bare, Expr.bare, bare_eq_of_agree inner]
  | .range .., _, .range _ first last => by
      rw [Expr.bare, Expr.bare, bare_eq_of_agree first, bare_eq_of_agree last]
  | .member .., _, .member _ inner _ => by rw [Expr.bare, Expr.bare, bare_eq_of_agree inner]
  | .index .., _, .index _ inner position => by
      rw [Expr.bare, Expr.bare, bare_eq_of_agree inner, bare_eq_of_agree position]
  | .call .., _, .call _ callee given => by
      rw [Expr.bare, Expr.bare, bare_eq_of_agree callee, bareOf_eq_of_agree given]
  | .create .., _, .create _ created given => by
      rw [Expr.bare, Expr.bare, bare_eq_of_agree created, bareOf_eq_of_agree given]

theorem Expr.bareOf_eq_of_agree :
    ∀ {es es' : List Expr}, List.Forall₂ (Expr.Agree ρ) es es' → Expr.bareOf es' = Expr.bareOf es
  | [], _, .nil => rfl
  | _ :: _, _, .cons first rest => by
      rw [Expr.bareOf, Expr.bareOf, bare_eq_of_agree first, bareOf_eq_of_agree rest]

end

theorem Expr.rel_bare_of_agree {v v' : Option Expr} (agree : Option.Rel (Expr.Agree ρ) v v') :
    v'.map Expr.bare = v.map Expr.bare := by
  cases agree with
  | none => rfl
  | some same => exact congrArg some (Expr.bare_eq_of_agree same)

mutual

theorem Stmt.bare_eq_of_agree : ∀ {s s' : Stmt}, s.Agree ρ s' → s'.bare = s.bare
  | .declare .., _, .declare _ _ value => by
      rw [Stmt.bare, Stmt.bare, Expr.bare_eq_of_agree value]
  | .array .., _, .array _ _ sizes => by
      rw [Stmt.bare, Stmt.bare, ← Expr.bareOf_eq, ← Expr.bareOf_eq, Expr.bareOf_eq_of_agree sizes]
  | .routine _, _, .routine same => by
      rw [Stmt.bare, Stmt.bare, RoutineDecl.bare_eq_of_agree same]
  | .classDecl _, _, .classDecl same => by
      rw [Stmt.bare, Stmt.bare, ClassDecl.bare_eq_of_agree same]
  | .conditional _ _ none, _, .once test then_ => by
      rw [Stmt.bare, Stmt.bare, Expr.bare_eq_of_agree test, Stmt.bareOf_eq_of_agree then_]
  | .conditional _ _ (some _), _, .either test then_ else_ => by
      rw [Stmt.bare, Stmt.bare, Expr.bare_eq_of_agree test, Stmt.bareOf_eq_of_agree then_,
        Stmt.bareOf_eq_of_agree else_]
  | .switch .., _, .switch subject arms => by
      rw [Stmt.bare, Stmt.bare, Expr.bare_eq_of_agree subject, Case.bareOf_eq_of_agree arms]
  | .count .., _, .count _ _ first last inside => by
      rw [Stmt.bare, Stmt.bare, Expr.bare_eq_of_agree first, Expr.bare_eq_of_agree last,
        Stmt.bareOf_eq_of_agree inside]
  | .whileLoop .., _, .whileLoop _ test inside => by
      rw [Stmt.bare, Stmt.bare, Expr.bare_eq_of_agree test, Stmt.bareOf_eq_of_agree inside]
  | .untilLoop .., _, .untilLoop inside test => by
      rw [Stmt.bare, Stmt.bare, Expr.bare_eq_of_agree test, Stmt.bareOf_eq_of_agree inside]
  | .giveBack .., _, .giveBack _ value => by
      rw [Stmt.bare, Stmt.bare, Expr.rel_bare_of_agree value]
  | .expression _, _, .expression same => by
      rw [Stmt.bare, Stmt.bare, Expr.bare_eq_of_agree same]
termination_by structural x => x

theorem Stmt.bareOf_eq_of_agree :
    ∀ {ss ss' : List Stmt}, List.Forall₂ (Stmt.Agree ρ) ss ss' → Stmt.bareOf ss' = Stmt.bareOf ss
  | [], _, .nil => rfl
  | _ :: _, _, .cons first rest => by
      rw [Stmt.bareOf, Stmt.bareOf, Stmt.bare_eq_of_agree first, Stmt.bareOf_eq_of_agree rest]
termination_by structural x => x

theorem Case.bareOf_eq_of_agree :
    ∀ {cs cs' : List Case}, List.Forall₂ (Case.Agree ρ) cs cs' → Case.bareOf cs' = Case.bareOf cs
  | [], _, .nil => rfl
  | ⟨_, _⟩ :: _, _, .cons (.arm tested inside) rest => by
      rw [Case.bareOf, Case.bareOf, Case.bare, Case.bare, Expr.rel_bare_of_agree tested,
        Stmt.bareOf_eq_of_agree inside, Case.bareOf_eq_of_agree rest]
termination_by structural x => x

theorem RoutineDecl.bare_eq_of_agree :
    ∀ {decl decl' : RoutineDecl}, decl.Agree ρ decl' → decl'.bare = decl.bare
  | ⟨_, _, _, _, _⟩, _, .decl _ _ _ inside _ => by
      rw [RoutineDecl.bare, RoutineDecl.bare, Stmt.bareOf_eq_of_agree inside]
termination_by structural x => x

theorem Member.bareOf_eq_of_agree : ∀ {ms ms' : List Member},
    List.Forall₂ (Member.Agree ρ) ms ms' → Member.bareOf ms' = Member.bareOf ms
  | [], _, .nil => rfl
  | .field .. :: _, _, .cons (.field ..) rest => by
      rw [Member.bareOf, Member.bareOf, Member.bareOf_eq_of_agree rest]
      rfl
  | .method _ _ _ :: _, _, .cons (.method _ _ _ same) rest => by
      rw [Member.bareOf, Member.bareOf, Member.bare, Member.bare, RoutineDecl.bare_eq_of_agree same,
        Member.bareOf_eq_of_agree rest]
termination_by structural x => x

theorem ClassDecl.bare_eq_of_agree :
    ∀ {decl decl' : ClassDecl}, decl.Agree ρ decl' → decl'.bare = decl.bare
  | ⟨_, _, _, _⟩, _, .decl _ above inside _ => by
      rw [ClassDecl.bare, ClassDecl.bare, Member.bareOf_eq_of_agree inside]
      cases above with
      | none => rfl
      | some same => rw [Option.map_some, Option.map_some, same.1]
termination_by structural x => x

end

mutual

theorem Expr.agree_of_bare_eq : ∀ {e e' : Expr}, e'.bare = e.bare → e.Agree (fun _ _ => True) e'
  | .identifier _ name, e', same => by
      cases e' with
      | identifier => cases same; exact .identifier trivial name
      | _ => cases same
  | .integer _ n, e', same => by
      cases e' with
      | integer => cases same; exact .integer trivial n
      | _ => cases same
  | .float _ x, e', same => by
      cases e' with
      | float => cases same; exact .float trivial x
      | _ => cases same
  | .text _ t, e', same => by
      cases e' with
      | text => cases same; exact .text trivial t
      | _ => cases same
  | .null _, e', same => by
      cases e' with
      | null => exact .null trivial
      | _ => cases same
  | .assign .., e', same => by
      cases e' with
      | assign =>
          obtain ⟨-, left, right⟩ := Expr.assign.inj same
          exact .assign trivial (agree_of_bare_eq left) (agree_of_bare_eq right)
      | _ => cases same
  | .binary .., e', same => by
      cases e' with
      | binary _ op _ _ =>
          obtain ⟨-, rfl, left, right⟩ := Expr.binary.inj same
          exact .binary op trivial (agree_of_bare_eq left) (agree_of_bare_eq right)
      | _ => cases same
  | .unary .., e', same => by
      cases e' with
      | unary _ op _ =>
          obtain ⟨-, rfl, inner⟩ := Expr.unary.inj same
          exact .unary op trivial (agree_of_bare_eq inner)
      | _ => cases same
  | .range .., e', same => by
      cases e' with
      | range =>
          obtain ⟨-, first, last⟩ := Expr.range.inj same
          exact .range trivial (agree_of_bare_eq first) (agree_of_bare_eq last)
      | _ => cases same
  | .member .., e', same => by
      cases e' with
      | member _ _ field =>
          obtain ⟨-, inner, rfl⟩ := Expr.member.inj same
          exact .member trivial (agree_of_bare_eq inner) field
      | _ => cases same
  | .index .., e', same => by
      cases e' with
      | index =>
          obtain ⟨-, inner, position⟩ := Expr.index.inj same
          exact .index trivial (agree_of_bare_eq inner) (agree_of_bare_eq position)
      | _ => cases same
  | .call .., e', same => by
      cases e' with
      | call =>
          obtain ⟨-, callee, given⟩ := Expr.call.inj same
          exact .call trivial (agree_of_bare_eq callee) (agree_of_bareOf_eq given)
      | _ => cases same
  | .create .., e', same => by
      cases e' with
      | create =>
          obtain ⟨-, created, given⟩ := Expr.create.inj same
          exact .create trivial (agree_of_bare_eq created) (agree_of_bareOf_eq given)
      | _ => cases same

theorem Expr.agree_of_bareOf_eq : ∀ {es es' : List Expr}, Expr.bareOf es' = Expr.bareOf es →
    List.Forall₂ (Expr.Agree fun _ _ => True) es es'
  | [], es', same => by
      cases es' with
      | nil => exact .nil
      | cons => cases same
  | _ :: _, es', same => by
      cases es' with
      | nil => cases same
      | cons =>
          obtain ⟨first, rest⟩ := List.cons.inj same
          exact .cons (agree_of_bare_eq first) (agree_of_bareOf_eq rest)

end

theorem Expr.rel_agree_of_bare {v v' : Option Expr} (same : v'.map Expr.bare = v.map Expr.bare) :
    Option.Rel (Expr.Agree fun _ _ => True) v v' := by
  cases v <;> cases v'
  · exact .none
  · cases same
  · cases same
  · exact .some (Expr.agree_of_bare_eq (Option.some.inj same))

mutual

theorem Stmt.agree_of_bare_eq : ∀ {s s' : Stmt}, s'.bare = s.bare → s.Agree (fun _ _ => True) s'
  | .declare .., s', same => by
      cases s' with
      | declare _ name _ =>
          obtain ⟨-, rfl, value⟩ := Stmt.declare.inj same
          exact .declare name trivial (Expr.agree_of_bare_eq value)
      | conditional _ _ no => cases no <;> cases same
      | _ => cases same
  | .array .., s', same => by
      cases s' with
      | array _ name _ =>
          obtain ⟨-, rfl, sizes⟩ := Stmt.array.inj same
          rw [← Expr.bareOf_eq, ← Expr.bareOf_eq] at sizes
          exact .array name trivial (Expr.agree_of_bareOf_eq sizes)
      | conditional _ _ no => cases no <;> cases same
      | _ => cases same
  | .routine _, s', same => by
      cases s' with
      | routine => exact .routine (RoutineDecl.agree_of_bare_eq (Stmt.routine.inj same))
      | conditional _ _ no => cases no <;> cases same
      | _ => cases same
  | .classDecl _, s', same => by
      cases s' with
      | classDecl => exact .classDecl (ClassDecl.agree_of_bare_eq (Stmt.classDecl.inj same))
      | conditional _ _ no => cases no <;> cases same
      | _ => cases same
  | .conditional _ _ none, s', same => by
      cases s' with
      | conditional _ _ no =>
          cases no with
          | none =>
              obtain ⟨test, then_, -⟩ := Stmt.conditional.inj same
              exact .once (Expr.agree_of_bare_eq test) (Stmt.agree_of_bareOf_eq then_)
          | some => cases (Stmt.conditional.inj same).2.2
      | _ => cases same
  | .conditional _ _ (some _), s', same => by
      cases s' with
      | conditional _ _ no =>
          cases no with
          | none => cases (Stmt.conditional.inj same).2.2
          | some =>
              obtain ⟨test, then_, else_⟩ := Stmt.conditional.inj same
              exact .either (Expr.agree_of_bare_eq test) (Stmt.agree_of_bareOf_eq then_)
                (Stmt.agree_of_bareOf_eq (Option.some.inj else_))
      | _ => cases same
  | .switch .., s', same => by
      cases s' with
      | switch =>
          obtain ⟨subject, arms⟩ := Stmt.switch.inj same
          exact .switch (Expr.agree_of_bare_eq subject) (Case.agree_of_bareOf_eq arms)
      | conditional _ _ no => cases no <;> cases same
      | _ => cases same
  | .count .., s', same => by
      cases s' with
      | count _ name _ _ _ =>
          obtain ⟨-, rfl, first, last, inside⟩ := Stmt.count.inj same
          exact .count name trivial (Expr.agree_of_bare_eq first) (Expr.agree_of_bare_eq last)
            (Stmt.agree_of_bareOf_eq inside)
      | conditional _ _ no => cases no <;> cases same
      | _ => cases same
  | .whileLoop .., s', same => by
      cases s' with
      | whileLoop =>
          obtain ⟨-, test, inside⟩ := Stmt.whileLoop.inj same
          exact .whileLoop trivial (Expr.agree_of_bare_eq test) (Stmt.agree_of_bareOf_eq inside)
      | conditional _ _ no => cases no <;> cases same
      | _ => cases same
  | .untilLoop .., s', same => by
      cases s' with
      | untilLoop =>
          obtain ⟨inside, test⟩ := Stmt.untilLoop.inj same
          exact .untilLoop (Stmt.agree_of_bareOf_eq inside) (Expr.agree_of_bare_eq test)
      | conditional _ _ no => cases no <;> cases same
      | _ => cases same
  | .giveBack .., s', same => by
      cases s' with
      | giveBack =>
          obtain ⟨-, value⟩ := Stmt.giveBack.inj same
          exact .giveBack trivial (Expr.rel_agree_of_bare value)
      | conditional _ _ no => cases no <;> cases same
      | _ => cases same
  | .expression _, s', same => by
      cases s' with
      | expression => exact .expression (Expr.agree_of_bare_eq (Stmt.expression.inj same))
      | conditional _ _ no => cases no <;> cases same
      | _ => cases same
termination_by structural x => x

theorem Stmt.agree_of_bareOf_eq : ∀ {ss ss' : List Stmt}, Stmt.bareOf ss' = Stmt.bareOf ss →
    List.Forall₂ (Stmt.Agree fun _ _ => True) ss ss'
  | [], ss', same => by
      cases ss' with
      | nil => exact .nil
      | cons => cases same
  | _ :: _, ss', same => by
      cases ss' with
      | nil => cases same
      | cons =>
          obtain ⟨first, rest⟩ := List.cons.inj same
          exact .cons (Stmt.agree_of_bare_eq first) (Stmt.agree_of_bareOf_eq rest)
termination_by structural x => x

theorem Case.agree_of_bareOf_eq : ∀ {cs cs' : List Case}, Case.bareOf cs' = Case.bareOf cs →
    List.Forall₂ (Case.Agree fun _ _ => True) cs cs'
  | [], cs', same => by
      cases cs' with
      | nil => exact .nil
      | cons => cases same
  | ⟨_, _⟩ :: _, cs', same => by
      cases cs' with
      | nil => cases same
      | cons c' =>
          obtain ⟨_, _⟩ := c'
          obtain ⟨first, rest⟩ := List.cons.inj same
          obtain ⟨tested, inside⟩ := Case.mk.inj first
          exact .cons (.arm (Expr.rel_agree_of_bare tested) (Stmt.agree_of_bareOf_eq inside))
            (Case.agree_of_bareOf_eq rest)
termination_by structural x => x

theorem RoutineDecl.agree_of_bare_eq : ∀ {decl decl' : RoutineDecl}, decl'.bare = decl.bare →
    decl.Agree (fun _ _ => True) decl'
  | ⟨_, _, _, _, _⟩, ⟨kind, name, params, _, _⟩, same => by
      obtain ⟨rfl, rfl, rfl, inside, -⟩ := RoutineDecl.mk.inj same
      exact .decl kind name params (Stmt.agree_of_bareOf_eq inside) trivial
termination_by structural x => x

theorem Member.agree_of_bareOf_eq : ∀ {ms ms' : List Member}, Member.bareOf ms' = Member.bareOf ms →
    List.Forall₂ (Member.Agree fun _ _ => True) ms ms'
  | [], ms', same => by
      cases ms' with
      | nil => exact .nil
      | cons => cases same
  | .field _ s _ :: _, ms', same => by
      cases ms' with
      | nil => cases same
      | cons m' =>
          obtain ⟨first, rest⟩ := List.cons.inj same
          cases m' with
          | field visibility s' name =>
              obtain ⟨rfl, -, rfl⟩ := Member.field.inj first
              exact .cons (.field visibility s s' name) (Member.agree_of_bareOf_eq rest)
          | method => cases first
  | .method _ s _ :: _, ms', same => by
      cases ms' with
      | nil => cases same
      | cons m' =>
          obtain ⟨first, rest⟩ := List.cons.inj same
          cases m' with
          | field => cases first
          | method visibility s' _ =>
              obtain ⟨rfl, -, same⟩ := Member.method.inj first
              exact .cons (.method visibility s s' (RoutineDecl.agree_of_bare_eq same))
                (Member.agree_of_bareOf_eq rest)
termination_by structural x => x

theorem ClassDecl.agree_of_bare_eq : ∀ {decl decl' : ClassDecl}, decl'.bare = decl.bare →
    decl.Agree (fun _ _ => True) decl'
  | ⟨_, parent, _, _⟩, ⟨name, parent', _, _⟩, same => by
      obtain ⟨rfl, above, inside, -⟩ := ClassDecl.mk.inj same
      refine .decl name ?_ (Member.agree_of_bareOf_eq inside) trivial
      cases parent <;> cases parent'
      · exact .none
      · cases above
      · cases above
      · have named := congrArg (Option.map Prod.fst) above
        exact .some ⟨Option.some.inj named, trivial⟩
termination_by structural x => x

end

theorem RoutineDecl.agree_iff_bare {decl decl' : RoutineDecl} :
    decl.Agree (fun _ _ => True) decl' ↔ decl'.bare = decl.bare :=
  ⟨RoutineDecl.bare_eq_of_agree, RoutineDecl.agree_of_bare_eq⟩

theorem ClassDecl.agree_iff_bare {decl decl' : ClassDecl} :
    decl.Agree (fun _ _ => True) decl' ↔ decl'.bare = decl.bare :=
  ⟨ClassDecl.bare_eq_of_agree, ClassDecl.agree_of_bare_eq⟩

theorem Program.agree_iff_bare {p p' : Program} :
    p.Agree (fun _ _ => True) p' ↔ p'.bare = p.bare := by
  rw [Program.bare, Program.bare, Program.mk.injEq]
  exact ⟨Stmt.bareOf_eq_of_agree, Stmt.agree_of_bareOf_eq⟩

/-! ### Syntax and its nodes -/

/-- The relation holds of the span of every node that is not a class member. -/
def Covers (ρ : Span → Span → Prop) (nodes : List Node) : Prop :=
  ∀ n ∈ nodes, n.kind ≠ .member → ρ n.span n.span

@[simp] theorem covers_nil : Covers ρ [] := by
  intro n mem
  cases mem

@[simp] theorem covers_cons {n : Node} {nodes : List Node} :
    Covers ρ (n :: nodes) ↔ (n.kind ≠ .member → ρ n.span n.span) ∧ Covers ρ nodes :=
  List.forall_mem_cons

@[simp] theorem covers_append {nodes nodes' : List Node} :
    Covers ρ (nodes ++ nodes') ↔ Covers ρ nodes ∧ Covers ρ nodes' :=
  List.forall_mem_append

mutual

theorem Expr.agree_self : ∀ {e : Expr}, Covers ρ e.nodes → e.Agree ρ e
  | .identifier _ name, covers => .identifier (covers _ List.mem_cons_self nofun) name
  | .integer _ n, covers => .integer (covers _ List.mem_cons_self nofun) n
  | .float _ x, covers => .float (covers _ List.mem_cons_self nofun) x
  | .text _ t, covers => .text (covers _ List.mem_cons_self nofun) t
  | .null _, covers => .null (covers _ List.mem_cons_self nofun)
  | .assign .., covers => by
      simp only [Expr.nodes, covers_cons, covers_append] at covers
      exact .assign (covers.1 nofun) (agree_self covers.2.1) (agree_self covers.2.2)
  | .binary _ op _ _, covers => by
      simp only [Expr.nodes, covers_cons, covers_append] at covers
      exact .binary op (covers.1 nofun) (agree_self covers.2.1) (agree_self covers.2.2)
  | .unary _ op _, covers => by
      simp only [Expr.nodes, covers_cons] at covers
      exact .unary op (covers.1 nofun) (agree_self covers.2)
  | .range .., covers => by
      simp only [Expr.nodes, covers_cons, covers_append] at covers
      exact .range (covers.1 nofun) (agree_self covers.2.1) (agree_self covers.2.2)
  | .member _ _ field, covers => by
      simp only [Expr.nodes, covers_cons] at covers
      exact .member (covers.1 nofun) (agree_self covers.2) field
  | .index .., covers => by
      simp only [Expr.nodes, covers_cons, covers_append] at covers
      exact .index (covers.1 nofun) (agree_self covers.2.1) (agree_self covers.2.2)
  | .call .., covers => by
      simp only [Expr.nodes, covers_cons, covers_append] at covers
      exact .call (covers.1 nofun) (agree_self covers.2.1) (agreeAll_self covers.2.2)
  | .create .., covers => by
      simp only [Expr.nodes, covers_cons, covers_append] at covers
      exact .create (covers.1 nofun) (agree_self covers.2.1) (agreeAll_self covers.2.2)

theorem Expr.agreeAll_self :
    ∀ {es : List Expr}, Covers ρ (Expr.nodesOf es) → List.Forall₂ (Expr.Agree ρ) es es
  | [], _ => .nil
  | _ :: _, covers => by
      simp only [Expr.nodesOf, covers_append] at covers
      exact .cons (agree_self covers.1) (agreeAll_self covers.2)

end

theorem Expr.rel_agree_self {v : Option Expr} (covers : Covers ρ (optionalNodes v)) :
    Option.Rel (Expr.Agree ρ) v v := by
  cases v with
  | none => exact .none
  | some e => exact .some (Expr.agree_self covers)

mutual

theorem Stmt.agree_self : ∀ {s : Stmt}, Covers ρ s.nodes → s.Agree ρ s
  | .declare _ name _, covers => by
      simp only [Stmt.nodes, covers_cons] at covers
      exact .declare name (covers.1 nofun) (Expr.agree_self covers.2)
  | .array _ name _, covers => by
      simp only [Stmt.nodes, covers_cons] at covers
      exact .array name (covers.1 nofun) (Expr.agreeAll_self covers.2)
  | .routine _, covers => by
      simp only [Stmt.nodes] at covers
      exact .routine (RoutineDecl.agree_self covers)
  | .classDecl _, covers => by
      simp only [Stmt.nodes] at covers
      exact .classDecl (ClassDecl.agree_self covers)
  | .conditional _ _ none, covers => by
      simp only [Stmt.nodes, covers_append] at covers
      exact .once (Expr.agree_self covers.1) (Stmt.agreeAll_self covers.2)
  | .conditional _ _ (some _), covers => by
      simp only [Stmt.nodes, covers_append] at covers
      exact .either (Expr.agree_self covers.1.1) (Stmt.agreeAll_self covers.1.2)
        (Stmt.agreeAll_self covers.2)
  | .switch .., covers => by
      simp only [Stmt.nodes, covers_append] at covers
      exact .switch (Expr.agree_self covers.1) (Case.agreeAll_self covers.2)
  | .count _ name _ _ _, covers => by
      simp only [Stmt.nodes, covers_cons, covers_append] at covers
      exact .count name (covers.1 nofun) (Expr.agree_self covers.2.1.1) (Expr.agree_self covers.2.1.2)
        (Stmt.agreeAll_self covers.2.2)
  | .whileLoop .., covers => by
      simp only [Stmt.nodes, covers_cons, covers_append] at covers
      exact .whileLoop (covers.1 nofun) (Expr.agree_self covers.2.1) (Stmt.agreeAll_self covers.2.2)
  | .untilLoop .., covers => by
      simp only [Stmt.nodes, covers_append] at covers
      exact .untilLoop (Stmt.agreeAll_self covers.1) (Expr.agree_self covers.2)
  | .giveBack .., covers => by
      simp only [Stmt.nodes, covers_cons] at covers
      exact .giveBack (covers.1 nofun) (Expr.rel_agree_self covers.2)
  | .expression _, covers => by
      simp only [Stmt.nodes] at covers
      exact .expression (Expr.agree_self covers)

theorem Stmt.agreeAll_self :
    ∀ {ss : List Stmt}, Covers ρ (Stmt.nodesOf ss) → List.Forall₂ (Stmt.Agree ρ) ss ss
  | [], _ => .nil
  | _ :: _, covers => by
      simp only [Stmt.nodesOf, covers_append] at covers
      exact .cons (Stmt.agree_self covers.1) (Stmt.agreeAll_self covers.2)

theorem Case.agreeAll_self :
    ∀ {cs : List Case}, Covers ρ (Case.nodesOf cs) → List.Forall₂ (Case.Agree ρ) cs cs
  | [], _ => .nil
  | ⟨_, _⟩ :: _, covers => by
      simp only [Case.nodesOf, Case.nodes, covers_append] at covers
      exact .cons (.arm (Expr.rel_agree_self covers.1.1) (Stmt.agreeAll_self covers.1.2))
        (Case.agreeAll_self covers.2)

theorem RoutineDecl.agree_self : ∀ {decl : RoutineDecl}, Covers ρ decl.nodes → decl.Agree ρ decl
  | ⟨kind, name, params, _, _⟩, covers => by
      simp only [RoutineDecl.nodes, covers_cons] at covers
      refine .decl kind name params (Stmt.agreeAll_self covers.2) (covers.1 ?_)
      cases kind <;> exact nofun

theorem Member.agreeAll_self :
    ∀ {ms : List Member}, Covers ρ (Member.nodesOf ms) → List.Forall₂ (Member.Agree ρ) ms ms
  | [], _ => .nil
  | .field visibility s name :: _, covers => by
      simp only [Member.nodesOf, Member.nodes, covers_append] at covers
      exact .cons (.field visibility s s name) (Member.agreeAll_self covers.2)
  | .method visibility s _ :: _, covers => by
      simp only [Member.nodesOf, Member.nodes, covers_cons, covers_append] at covers
      exact .cons (.method visibility s s (RoutineDecl.agree_self covers.1.2))
        (Member.agreeAll_self covers.2)

theorem ClassDecl.agree_self : ∀ {decl : ClassDecl}, Covers ρ decl.nodes → decl.Agree ρ decl
  | ⟨name, none, _, _⟩, covers => by
      simp only [ClassDecl.nodes, covers_cons] at covers
      exact .decl name .none (Member.agreeAll_self covers.2) (covers.1 nofun)
  | ⟨name, some (_, _), _, _⟩, covers => by
      simp only [ClassDecl.nodes, covers_cons] at covers
      exact .decl name (.some ⟨rfl, covers.2.1 nofun⟩) (Member.agreeAll_self covers.2.2)
        (covers.1 nofun)

end

/-- A program agrees with itself as far as its nodes do. -/
theorem Program.agree_self {p : Program} (covers : Covers ρ p.nodes) : p.Agree ρ p :=
  Stmt.agreeAll_self covers

end Pseudocode

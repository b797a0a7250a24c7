import Pseudocode.Proofs.Flawless
import Pseudocode.Proofs.Parsed.Statement

/-!
Code as it is read.

A statement is `Proper` when it is like those that are read: the members of each class in
it have different names, and a member that is called like the constructor is a routine.
The statements inside a proper one are proper, those of routines included. So proper
statements are a kind of `Code`, as all statements are.
-/

namespace Pseudocode

/-- A statement like those that are read. -/
structure Stmt.Proper (s : Stmt) : Prop where
  regular : s.Regular true
  flawless : Permits Flawless s.features

def RoutineDecl.Proper (decl : RoutineDecl) : Prop := ∀ s ∈ decl.body, s.Proper

structure ClassDecl.Proper (decl : ClassDecl) : Prop where
  distinct : (decl.members.map Member.name).Nodup
  /-- No field is called like the constructor. -/
  fields : ∀ m ∈ decl.members, m.routine? = none → m.name ≠ Heap.constructorName
  methods : ∀ m ∈ decl.members, ∀ r ∈ m.routine?, r.Proper

section Permits

variable {P : Feature → Prop}

theorem permits_featuresAll {ss : List Stmt} :
    Permits P (Stmt.featuresAll ss) ↔ ∀ s ∈ ss, Permits P s.features := by
  induction ss with
  | nil => simp [Stmt.featuresAll]
  | cons s ss ih => simp [Stmt.featuresAll, ih]

theorem permits_members {ms : List Member} :
    Permits P (Member.featuresAll ms) ↔ ∀ m ∈ ms, Permits P m.features := by
  induction ms with
  | nil => simp [Member.featuresAll]
  | cons m ms ih => simp [Member.featuresAll, ih]

theorem permits_cases {cases : List Case} : Permits P (Case.featuresAll cases) ↔
    ∀ arm ∈ cases, (∀ e ∈ arm.test, Permits P e.features) ∧ Permits P (Stmt.featuresAll arm.body) := by
  induction cases with
  | nil => simp [Case.featuresAll]
  | cons arm cases ih =>
      obtain ⟨test, body⟩ := arm
      cases test <;> simp [Case.featuresAll, ih, and_assoc]

end Permits

theorem Stmt.proper_of_block {ss : List Stmt} (regular : ∀ s ∈ ss, s.Regular true)
    (flawless : Permits Flawless (Stmt.featuresAll ss)) : ∀ s ∈ ss, s.Proper :=
  fun s mem => ⟨regular s mem, permits_featuresAll.mp flawless s mem⟩

namespace Stmt.Proper

variable {body block : List Stmt} {other : Option (List Stmt)} {test subject first last : Expr}
  {cases : List Case} {span : Span} {name : String}

theorem routine {decl : RoutineDecl} (proper : (Stmt.routine decl).Proper) : decl.Proper := by
  obtain ⟨regular, flawless⟩ := proper
  cases regular with
  | routine _ _ each =>
      rw [features] at flawless
      exact proper_of_block each (permits_routine.mp flawless).2

theorem classDecl {decl : ClassDecl} (proper : (Stmt.classDecl decl).Proper) : decl.Proper := by
  obtain ⟨regular, flawless⟩ := proper
  have inMembers : ∀ m ∈ decl.members, Permits Flawless m.features := by
    obtain ⟨name, parent, members, span⟩ := decl
    rw [features, ClassDecl.features] at flawless
    exact permits_members.mp flawless
  cases regular with
  | classDecl distinct _ _ each =>
      constructor
      case distinct => exact distinct
      case fields =>
        intro m mem isField
        have free := inMembers m mem
        cases m with
        | field visibility span name => exact permits_flawless_unless.mp free
        | method visibility span decl => cases isField
      case methods =>
        intro m mem r isMethod
        have inside := inMembers m mem
        cases m with
        | field visibility span name => cases isMethod
        | method visibility span routine =>
            cases isMethod
            rw [Member.features] at inside
            exact proper_of_block (each _ mem r rfl) (permits_routine.mp inside).2

theorem yes (proper : (Stmt.conditional test body other).Proper) : ∀ s ∈ body, s.Proper := by
  obtain ⟨regular, flawless⟩ := proper
  simp only [features, permits_append] at flawless
  cases regular with
  | conditional _ _ each _ _ => exact proper_of_block each flawless.1.2

theorem no (proper : (Stmt.conditional test body (some block)).Proper) : ∀ s ∈ block, s.Proper := by
  obtain ⟨regular, flawless⟩ := proper
  simp only [features, featuresElse, permits_append] at flawless
  cases regular with
  | conditional _ _ _ _ each => exact proper_of_block (each block rfl) flawless.2

theorem arms (proper : (Stmt.switch subject cases).Proper) :
    ∀ arm ∈ cases, ∀ s ∈ arm.body, s.Proper := by
  obtain ⟨regular, flawless⟩ := proper
  simp only [features, permits_append] at flawless
  cases regular with
  | switch _ _ _ each =>
      intro arm mem
      exact proper_of_block (each arm mem) (permits_cases.mp flawless.2 arm mem).2

theorem count (proper : (Stmt.count span name first last body).Proper) : ∀ s ∈ body, s.Proper := by
  obtain ⟨regular, flawless⟩ := proper
  simp only [features, List.cons_append, permits_cons, permits_append] at flawless
  cases regular with
  | count _ _ _ _ _ _ each => exact proper_of_block each flawless.2.2

theorem whileLoop (proper : (Stmt.whileLoop span test body).Proper) : ∀ s ∈ body, s.Proper := by
  obtain ⟨regular, flawless⟩ := proper
  simp only [features, permits_append] at flawless
  cases regular with
  | whileLoop _ _ _ _ each => exact proper_of_block each flawless.2

theorem untilLoop (proper : (Stmt.untilLoop body test).Proper) : ∀ s ∈ body, s.Proper := by
  obtain ⟨regular, flawless⟩ := proper
  simp only [features, List.cons_append, permits_cons, permits_append] at flawless
  cases regular with
  | untilLoop _ each _ => exact proper_of_block each flawless.2.1

end Stmt.Proper

/-! ### Kinds of code -/

/-- The second statement stands in a block of the first, or in the body of the routine that the
first declares. -/
inductive Stmt.Encloses : Stmt → Stmt → Prop where
  | routine {decl : RoutineDecl} {t : Stmt} (mem : t ∈ decl.body) : Encloses (.routine decl) t
  | yes {test : Expr} {body : List Stmt} {other : Option (List Stmt)} {t : Stmt} (mem : t ∈ body) :
      Encloses (.conditional test body other) t
  | no {test : Expr} {body block : List Stmt} {t : Stmt} (mem : t ∈ block) :
      Encloses (.conditional test body (some block)) t
  | arm {subject : Expr} {cases : List Case} {arm : Case} {t : Stmt} (isArm : arm ∈ cases)
      (mem : t ∈ arm.body) : Encloses (.switch subject cases) t
  | count {span : Span} {name : String} {first last : Expr} {body : List Stmt} {t : Stmt} (mem : t ∈ body) :
      Encloses (.count span name first last body) t
  | whileLoop {span : Span} {test : Expr} {body : List Stmt} {t : Stmt} (mem : t ∈ body) :
      Encloses (.whileLoop span test body) t
  | untilLoop {body : List Stmt} {test : Expr} {t : Stmt} (mem : t ∈ body) :
      Encloses (.untilLoop body test) t

/-- A kind of code that a program does not leave when parts of it are run. -/
structure Code where
  stmt : Stmt → Prop
  classDecl : ClassDecl → Prop
  inside : ∀ {s t : Stmt}, stmt s → s.Encloses t → stmt t
  declares : ∀ {decl : ClassDecl}, stmt (.classDecl decl) → classDecl decl
  methods : ∀ {decl : ClassDecl}, classDecl decl → ∀ m ∈ decl.members, ∀ r ∈ m.routine?, ∀ s ∈ r.body, stmt s

namespace Code

/-- The body of the routine is code of this kind. -/
def routine (C : Code) (decl : RoutineDecl) : Prop := ∀ s ∈ decl.body, C.stmt s

/-- All code. -/
def any : Code where
  stmt _ := True
  classDecl _ := True
  inside _ _ := trivial
  declares _ := trivial
  methods _ _ _ _ _ _ _ := trivial

def proper : Code where
  stmt := Stmt.Proper
  classDecl := ClassDecl.Proper
  inside isProper encloses := by
    cases encloses with
    | routine mem => exact isProper.routine _ mem
    | yes mem => exact isProper.yes _ mem
    | no mem => exact isProper.no _ mem
    | arm isArm mem => exact isProper.arms _ isArm _ mem
    | count mem => exact isProper.count _ mem
    | whileLoop mem => exact isProper.whileLoop _ mem
    | untilLoop mem => exact isProper.untilLoop _ mem
  declares := Stmt.Proper.classDecl
  methods := ClassDecl.Proper.methods

end Code

/-- All statements of a program that was read are proper. -/
theorem proper_of_parse {source : String} {p : Program} (parsed : parse source = .ok p) :
    ∀ s ∈ p.body, s.Proper :=
  Stmt.proper_of_block (regular_of_parse parsed).each (flawless_of_parse parsed)

end Pseudocode

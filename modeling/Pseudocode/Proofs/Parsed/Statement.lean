import Pseudocode.Proofs.Parsed.Expression

/-!
What a statement is like that was read.

Above all, the text of a statement never goes on with the text of the next one.
A statement that was read after an expression does not start with a parenthesis
or a sign, for the expression would have taken it, and neither does what is
written for the statement.
-/

namespace Pseudocode

/-! ### Statements -/

/-- The routine that a member of a class is, if it is one. -/
def Member.routine? : Member → Option RoutineDecl
  | .field .. => none
  | .method _ _ decl => some decl

namespace Stmt

/-- Tokens that can stand after a statement. A bare `return` ends its block, and
nothing goes on with an expression at the end of a statement. -/
def Leaves (kind : TokenKind) : Stmt → Prop
  | .giveBack _ none => Parser.endsBlock kind = true
  | .declare .. | .giveBack _ (some _) | .untilLoop .. | .expression _ => kind.glues = false
  | _ => True

/-- Statements of which none goes on with the one before it. -/
def Tidy (strict : Bool) (block : List Stmt) : Prop :=
  block.IsChain fun s s' => s.Leaves (firstKind (s'.pieces strict) .endOfInput)

/-- Statements that do not go on with an expression before them. -/
def Apart (strict : Bool) (block : List Stmt) : Prop :=
  (firstKind (Stmt.piecesOf strict block) .endOfInput).glues = false

theorem Apart.head {strict : Bool} {s : Stmt} {block : List Stmt} (apart : Apart strict (s :: block)) :
    (firstKind (s.pieces strict) .endOfInput).glues = false := by
  rw [Apart, Stmt.piecesOf, firstKind_append] at apart
  cases eq : s.pieces strict with
  | nil => rfl
  | cons p ps => rwa [eq] at apart

/-- What holds of every statement that was read. -/
inductive Regular (strict : Bool) : Stmt → Prop where
  | declare (span : Span) (name : String) {value : Expr} (regular : value.Regular) :
      Regular strict (.declare span name value)
  | array (span : Span) (name : String) {dimensions : List Expr} (some : dimensions ≠ [])
      (each : ∀ d ∈ dimensions, d.Regular) : Regular strict (.array span name dimensions)
  | routine {decl : RoutineDecl} (distinct : decl.params.Nodup) (tidy : Tidy strict decl.body)
      (each : ∀ s ∈ decl.body, Regular strict s) : Regular strict (.routine decl)
  | classDecl {decl : ClassDecl} (distinct : (decl.members.map Member.name).Nodup)
      (params : ∀ m ∈ decl.members, ∀ r ∈ m.routine?, r.params.Nodup)
      (tidy : ∀ m ∈ decl.members, ∀ r ∈ m.routine?, Tidy strict r.body)
      (each : ∀ m ∈ decl.members, ∀ r ∈ m.routine?, ∀ s ∈ r.body, Regular strict s) :
      Regular strict (.classDecl decl)
  | conditional {condition : Expr} {yes : List Stmt} {no : Option (List Stmt)}
      (regular : condition.Regular) (tidy : Tidy strict yes) (each : ∀ s ∈ yes, Regular strict s)
      (tidyNo : ∀ block ∈ no, Tidy strict block)
      (eachNo : ∀ block ∈ no, ∀ s ∈ block, Regular strict s) :
      Regular strict (.conditional condition yes no)
  | switch {subject : Expr} {cases : List Case} (regular : subject.Regular)
      (tests : ∀ arm ∈ cases, ∀ e ∈ arm.test, e.Regular)
      (tidy : ∀ arm ∈ cases, Tidy strict arm.body)
      (each : ∀ arm ∈ cases, ∀ s ∈ arm.body, Regular strict s) :
      Regular strict (.switch subject cases)
  | count (span : Span) (name : String) {first last : Expr} {body : List Stmt}
      (start : first.Regular) (stop : last.Regular) (apart : Apart strict body)
      (tidy : Tidy strict body) (each : ∀ s ∈ body, Regular strict s) :
      Regular strict (.count span name first last body)
  | whileLoop (span : Span) {condition : Expr} {body : List Stmt} (regular : condition.Regular)
      (apart : Apart strict body) (tidy : Tidy strict body) (each : ∀ s ∈ body, Regular strict s) :
      Regular strict (.whileLoop span condition body)
  | untilLoop {body : List Stmt} {condition : Expr} (tidy : Tidy strict body)
      (each : ∀ s ∈ body, Regular strict s) (regular : condition.Regular) :
      Regular strict (.untilLoop body condition)
  | giveBack (span : Span) {value : Option Expr} (regular : ∀ e ∈ value, e.Regular) :
      Regular strict (.giveBack span value)
  | expression {e : Expr} (regular : e.Regular) : Regular strict (.expression e)

/-- What holds of the statements of every block that was read. -/
structure RegularBlock (strict : Bool) (block : List Stmt) : Prop where
  tidy : Tidy strict block
  each : ∀ s ∈ block, Regular strict s

theorem RegularBlock.single {strict : Bool} {s : Stmt} (regular : s.Regular strict) :
    RegularBlock strict [s] :=
  ⟨.singleton s, fun _ mem => List.mem_singleton.mp mem ▸ regular⟩

/-- What can stand after a statement can be replaced by the start of a statement
that was read there. -/
theorem Leaves.replace {s : Stmt} {kind kind' : TokenKind} (leaves : s.Leaves kind)
    (begins : Parser.endsBlock kind = false) (plain : kind.glues = false → kind'.glues = false) :
    s.Leaves kind' := by
  unfold Leaves at leaves ⊢
  split at leaves
  · rw [begins] at leaves
    cases leaves
  all_goals first | exact plain leaves | trivial

end Stmt

namespace Parser

open Stmt

/-- What is known of a statement after it was read. -/
structure StmtYields (strict : Bool) (c : Cursor) (s : Stmt) (c' : Cursor) : Prop where
  begins : endsBlock c.next.kind = false
  regular : s.Regular strict
  plain : c.next.kind.glues = false → ∀ after, (firstKind (s.pieces strict) after).glues = false
  leaves : s.Leaves c'.next.kind

/-- What is known of a block after it was read. -/
structure BlockYields (strict : Bool) (c : Cursor) (body : List Stmt) : Prop where
  begins : body ≠ [] → endsBlock c.next.kind = false
  regular : RegularBlock strict body
  apart : c.next.kind.glues = false → Apart strict body

variable {strict : Bool} {c c' : Cursor} {s : Stmt} {depth : Nat}

theorem declaration_yields (begins : endsBlock c.next.kind = false)
    (ok : declaration depth c = .ok (s, c')) : StmtYields strict c s c' := by
  rw [declaration, eat_bind, expect_bind_eq_ok, expect_bind_eq_ok] at ok
  obtain ⟨_, _, ok⟩ := ok
  rcases bind_eq_ok.mp ok with ⟨value, c₁, read, ok⟩
  obtain ⟨rfl, rfl⟩ := pure_eq_ok.mp ok
  have yields : Yields strict 0 _ value c₁ := expression_yields read
  exact ⟨begins, .declare _ _ yields.settled.regular, fun _ _ => rfl, yields.stops.glues⟩

theorem arrayDeclaration_yields (begins : endsBlock c.next.kind = false)
    (ok : arrayDeclaration depth c = .ok (s, c')) : StmtYields strict c s c' := by
  rw [arrayDeclaration, eat_bind, expect_bind_eq_ok, expect_bind_eq_ok] at ok
  obtain ⟨_, _, ok⟩ := ok
  rcases bind_eq_ok.mp ok with ⟨dimensions, c₁, read, ok⟩
  rw [expect_bind_eq_ok] at ok
  obtain ⟨rfl, rfl⟩ := pure_eq_ok.mp ok.2
  obtain ⟨some, each⟩ := commaSeparated_yields regular_of_expression read
  exact ⟨begins, .array _ _ some each, fun _ _ => rfl, trivial⟩

theorem returnStatement_yields (begins : endsBlock c.next.kind = false)
    (ok : returnStatement depth c = .ok (s, c')) : StmtYields strict c s c' := by
  rw [returnStatement, eat_bind, peek_bind] at ok
  split at ok
  · rename_i ends
    obtain ⟨rfl, rfl⟩ := pure_eq_ok.mp ok
    exact ⟨begins, .giveBack _ nofun, fun _ _ => rfl, ends⟩
  · rcases bind_eq_ok.mp ok with ⟨value, c₁, read, ok⟩
    obtain ⟨rfl, rfl⟩ := pure_eq_ok.mp ok
    have yields : Yields strict 0 _ value c₁ := expression_yields read
    refine ⟨begins, .giveBack _ ?_, fun _ _ => rfl, yields.stops.glues⟩
    intro e mem
    cases mem
    exact yields.settled.regular

theorem parameters_yield {routine : String} {b : Nat} {earlier names : List String}
    (ok : parameters routine b earlier c = .ok (names, c')) (distinct : earlier.Nodup) :
    names.Nodup := by
  induction b generalizing c earlier with
  | zero => exact (exhausted_eq_ok.mp ok).elim
  | succ b ih =>
      rw [parameters, expect_bind_eq_ok] at ok
      obtain ⟨_, ok⟩ := ok
      split at ok
      · exact (throw_eq_ok.mp ok).elim
      · rename_i new
        have distinct' : (earlier ++ [c.next.value]).Nodup := by
          simpa [List.nodup_append, distinct, List.forall_mem_ne'] using new
        rw [nextIs_bind] at ok
        split at ok
        · exact ih ok distinct'
        · obtain ⟨rfl, rfl⟩ := pure_eq_ok.mp ok
          exact distinct'

def routineKind (kind : TokenKind) : RoutineKind :=
  if kind = .keyword .function then .function else .procedure

/-- A routine after its parameters. -/
def routineRest (block : BlockParser) (keyword : Token) (name : String) (params : List String) :
    Parser RoutineDecl := do
  let kind := routineKind keyword.kind
  let _ ← expect (.symbol .closeParen)
  let body ← block [kind.closer] keyword
  let close ← expect (.keyword kind.closer)
  return ⟨kind, name, params, body, keyword.span.merge close.span⟩

theorem routine_eq (block : BlockParser) (depth : Nat) :
    routine block depth = (do
      let keyword ← eat
      let name ← routineName
      let _ ← expect (.symbol .openParen)
      if ← nextIs (.symbol .closeParen) then routineRest block keyword name []
      else routineRest block keyword name (← parameters name depth [])) := by
  unfold routine routineRest routineKind
  congr 1
  funext keyword
  by_cases function : keyword.kind = .keyword .function
  · simp only [if_pos function]
    rfl
  · simp only [if_neg function]
    rfl

/-- A class after its name and parent. -/
def classRest (block : BlockParser) (depth : Nat) (keyword name : Token)
    (parent : Option (String × Span)) : Parser Stmt := do
  let ms ← members block depth keyword name.value depth []
  let close ← expect (.keyword .endClass)
  return .classDecl ⟨name.value, parent, ms, keyword.span.merge close.span⟩

theorem classDeclaration_eq (block : BlockParser) (depth : Nat) :
    classDeclaration block depth = (do
      let keyword ← eat
      let name ← expect .identifier
      if ← nextIs (.keyword .inherits) then
        let _ ← eat
        let parent ← expect .identifier
        classRest block depth keyword name (some (parent.value, parent.span))
      else classRest block depth keyword name none) := rfl

section

variable {block : BlockParser}
  (blocks : ∀ {closers opener c body c'}, block closers opener c = .ok (body, c') →
    BlockYields strict c body)
include blocks

theorem routineRest_yields {keyword : Token} {name : String} {params : List String}
    {decl : RoutineDecl} (ok : routineRest block keyword name params c = .ok (decl, c'))
    (distinct : params.Nodup) : decl.params.Nodup ∧ RegularBlock strict decl.body := by
  rw [routineRest, expect_bind_eq_ok] at ok
  rcases bind_eq_ok.mp ok.2 with ⟨body, c₁, read, ok⟩
  rw [expect_bind_eq_ok] at ok
  obtain ⟨rfl, rfl⟩ := pure_eq_ok.mp ok.2
  exact ⟨distinct, (blocks read).regular⟩

theorem routine_yields {decl : RoutineDecl} (ok : routine block depth c = .ok (decl, c')) :
    decl.params.Nodup ∧ RegularBlock strict decl.body := by
  rw [routine_eq, eat_bind] at ok
  rcases bind_eq_ok.mp ok with ⟨name, c₁, _, ok⟩
  rw [expect_bind_eq_ok] at ok
  obtain ⟨_, ok⟩ := ok
  rw [nextIs_bind] at ok
  split at ok
  · exact routineRest_yields blocks ok List.nodup_nil
  · rcases bind_eq_ok.mp ok with ⟨params, c₂, read, ok⟩
    exact routineRest_yields blocks ok (parameters_yield read List.nodup_nil)

theorem member_yields {visibility : Visibility} {modifier : Token} {m : Member}
    (ok : member block depth visibility modifier c = .ok (m, c')) :
    ∀ r ∈ m.routine?, r.params.Nodup ∧ RegularBlock strict r.body := by
  rw [member, peek_bind] at ok
  have method (ok : (routine block depth >>= fun decl =>
      pure (Member.method visibility (modifier.span.merge decl.span) decl)) c = .ok (m, c')) :
      ∀ r ∈ m.routine?, r.params.Nodup ∧ RegularBlock strict r.body := by
    rcases bind_eq_ok.mp ok with ⟨decl, c₁, read, ok⟩
    obtain ⟨rfl, rfl⟩ := pure_eq_ok.mp ok
    rintro r ⟨⟩
    exact routine_yields blocks read
  generalize c.next.kind = kind at ok
  split at ok
  · exact method ok
  · exact method ok
  · rw [eat_bind] at ok
    obtain ⟨rfl, rfl⟩ := pure_eq_ok.mp ok
    rintro r ⟨⟩
  · exact (fail_eq_ok.mp ok).elim

theorem members_yield {keyword : Token} {className : String} {b : Nat} {earlier ms : List Member}
    (ok : members block depth keyword className b earlier c = .ok (ms, c'))
    (distinct : (earlier.map Member.name).Nodup)
    (each : ∀ m ∈ earlier, ∀ r ∈ m.routine?, r.params.Nodup ∧ RegularBlock strict r.body) :
    (ms.map Member.name).Nodup ∧
      ∀ m ∈ ms, ∀ r ∈ m.routine?, r.params.Nodup ∧ RegularBlock strict r.body := by
  induction b generalizing c earlier with
  | zero => exact (exhausted_eq_ok.mp ok).elim
  | succ b ih =>
      rw [members, peek_bind] at ok
      generalize visibility? c.next.kind = found at ok
      split at ok
      · rw [eat_bind] at ok
        rcases bind_eq_ok.mp ok with ⟨m, c₁, read, ok⟩
        split at ok
        · exact (throw_eq_ok.mp ok).elim
        · rename_i new
          refine ih ok ?_ ?_
          · simpa [List.nodup_append, distinct] using new
          · intro m' mem
            rcases List.mem_append.mp mem with mem | mem
            · exact each m' mem
            · rw [List.mem_singleton.mp mem]
              exact member_yields blocks read
      · split at ok
        · obtain ⟨rfl, rfl⟩ := pure_eq_ok.mp ok
          exact ⟨distinct, each⟩
        · split at ok
          · exact (throw_eq_ok.mp ok).elim
          · exact (fail_eq_ok.mp ok).elim

theorem classRest_yields {keyword name : Token} {parent : Option (String × Span)} {c₀ : Cursor}
    (begins : endsBlock c₀.next.kind = false)
    (ok : classRest block depth keyword name parent c = .ok (s, c')) : StmtYields strict c₀ s c' := by
  rcases bind_eq_ok.mp ok with ⟨ms, c₁, read, ok⟩
  rw [expect_bind_eq_ok] at ok
  obtain ⟨rfl, rfl⟩ := pure_eq_ok.mp ok.2
  obtain ⟨distinct, each⟩ := members_yield blocks read List.nodup_nil (List.forall_mem_nil _)
  refine ⟨begins, .classDecl distinct ?_ ?_ ?_, ?_, trivial⟩
  · exact fun m mem r some => (each m mem r some).1
  · exact fun m mem r some => (each m mem r some).2.tidy
  · exact fun m mem r some => (each m mem r some).2.each
  · cases parent <;> exact fun _ _ => rfl

theorem classDeclaration_yields (begins : endsBlock c.next.kind = false)
    (ok : classDeclaration block depth c = .ok (s, c')) : StmtYields strict c s c' := by
  rw [classDeclaration_eq, eat_bind, expect_bind_eq_ok] at ok
  obtain ⟨_, ok⟩ := ok
  rw [nextIs_bind] at ok
  split at ok
  · rw [eat_bind, expect_bind_eq_ok] at ok
    exact classRest_yields blocks begins ok.2
  · exact classRest_yields blocks begins ok

theorem conditional_yields {b : Nat} {keyword : Token}
    (ok : conditional block depth b keyword c = .ok (s, c')) :
    s.Regular strict ∧ ∃ condition yes no, s = .conditional condition yes no := by
  induction b generalizing c s keyword with
  | zero => exact (exhausted_eq_ok.mp ok).elim
  | succ b ih =>
      rcases bind_eq_ok.mp ok with ⟨condition, c₁, first, ok⟩
      rw [expect_bind_eq_ok] at ok
      rcases bind_eq_ok.mp ok.2 with ⟨yes, c₂, second, ok⟩
      -- What is left is the other branch, of one of three forms.
      have done (no : Option (List Stmt)) (regular : ∀ block ∈ no, RegularBlock strict block) :
          (Stmt.conditional condition yes no).Regular strict :=
        .conditional (regular_of_expression first) (blocks second).regular.tidy
          (blocks second).regular.each (fun block mem => (regular block mem).tidy)
          fun block mem => (regular block mem).each
      rw [peek_bind] at ok
      generalize c₂.next.kind = kind at ok
      split at ok
      · rw [eat_bind] at ok
        rcases bind_eq_ok.mp ok with ⟨inner, c₃, third, ok⟩
        obtain ⟨rfl, rfl⟩ := pure_eq_ok.mp ok
        refine ⟨done _ ?_, _, _, _, rfl⟩
        rintro block ⟨⟩
        exact .single (ih third).1
      · rw [eat_bind] at ok
        rcases bind_eq_ok.mp ok with ⟨no, c₃, third, ok⟩
        rw [expect_bind_eq_ok] at ok
        obtain ⟨rfl, rfl⟩ := pure_eq_ok.mp ok.2
        refine ⟨done _ ?_, _, _, _, rfl⟩
        rintro block ⟨⟩
        exact (blocks third).regular
      · rw [expect_bind_eq_ok] at ok
        obtain ⟨rfl, rfl⟩ := pure_eq_ok.mp ok.2
        exact ⟨done none nofun, _, _, _, rfl⟩

theorem arms_yield {keyword : Token} {b : Nat} {earlier arms' : List Case}
    (ok : arms block depth keyword b earlier c = .ok (arms', c'))
    (each : ∀ arm ∈ earlier, (∀ e ∈ arm.test, e.Regular) ∧ RegularBlock strict arm.body) :
    ∀ arm ∈ arms', (∀ e ∈ arm.test, e.Regular) ∧ RegularBlock strict arm.body := by
  induction b generalizing c earlier with
  | zero => exact (exhausted_eq_ok.mp ok).elim
  | succ b ih =>
      have further (arm : Case) (test : ∀ e ∈ arm.test, e.Regular)
          (body : RegularBlock strict arm.body) : ∀ arm' ∈ earlier ++ [arm],
          (∀ e ∈ arm'.test, e.Regular) ∧ RegularBlock strict arm'.body := by
        intro arm' mem
        rcases List.mem_append.mp mem with mem | mem
        · exact each arm' mem
        · rw [List.mem_singleton.mp mem]
          exact ⟨test, body⟩
      rw [arms, peek_bind] at ok
      generalize c.next.kind = kind at ok
      split at ok
      · rw [eat_bind] at ok
        rcases bind_eq_ok.mp ok with ⟨test, c₁, first, ok⟩
        rw [expect_bind_eq_ok] at ok
        rcases bind_eq_ok.mp ok.2 with ⟨body, c₂, second, ok⟩
        refine ih ok (further _ ?_ (blocks second).regular)
        rintro e ⟨⟩
        exact regular_of_expression first
      · rw [eat_bind, expect_bind_eq_ok] at ok
        rcases bind_eq_ok.mp ok.2 with ⟨body, c₁, read, ok⟩
        exact ih ok (further ⟨none, body⟩ nofun (blocks read).regular)
      · rw [eat_bind] at ok
        obtain ⟨rfl, rfl⟩ := pure_eq_ok.mp ok
        exact each
      · exact (throw_eq_ok.mp ok).elim
      · exact (fail_eq_ok.mp ok).elim

theorem switchStatement_yields (begins : endsBlock c.next.kind = false)
    (ok : switchStatement block depth c = .ok (s, c')) : StmtYields strict c s c' := by
  rw [switchStatement, eat_bind] at ok
  rcases bind_eq_ok.mp ok with ⟨subject, c₁, first, ok⟩
  rw [expect_bind_eq_ok] at ok
  rcases bind_eq_ok.mp ok.2 with ⟨cases, c₂, second, ok⟩
  obtain ⟨rfl, rfl⟩ := pure_eq_ok.mp ok
  have each := arms_yield blocks second (List.forall_mem_nil _)
  exact ⟨begins, .switch (regular_of_expression first) (fun arm mem => (each arm mem).1)
    (fun arm mem => (each arm mem).2.tidy) (fun arm mem => (each arm mem).2.each),
    fun _ _ => rfl, trivial⟩

theorem countingLoop_yields (begins : endsBlock c.next.kind = false)
    (ok : countingLoop block depth c = .ok (s, c')) : StmtYields strict c s c' := by
  rw [countingLoop, eat_bind, expect_bind_eq_ok, expect_bind_eq_ok] at ok
  obtain ⟨_, _, ok⟩ := ok
  rcases bind_eq_ok.mp ok with ⟨first, c₁, start, ok⟩
  rw [expect_bind_eq_ok] at ok
  rcases bind_eq_ok.mp ok.2 with ⟨last, c₂, stop, ok⟩
  rcases bind_eq_ok.mp ok with ⟨body, c₃, read, ok⟩
  rw [expect_bind_eq_ok, expect_bind_eq_ok] at ok
  obtain ⟨_, _, ok⟩ := ok
  split at ok
  · obtain ⟨rfl, rfl⟩ := pure_eq_ok.mp ok
    have lower : Yields strict 2 _ first c₁ := bound_yields start
    have upper : Yields strict 2 _ last c₂ := bound_yields stop
    have body := blocks read
    exact ⟨begins, .count _ _ lower.settled.regular upper.settled.regular
      (body.apart upper.stops.glues) body.regular.tidy body.regular.each, fun _ _ => rfl, trivial⟩
  · exact (throw_eq_ok.mp ok).elim

theorem whileLoop_yields (begins : endsBlock c.next.kind = false)
    (ok : whileLoop block depth c = .ok (s, c')) : StmtYields strict c s c' := by
  rw [whileLoop, eat_bind] at ok
  rcases bind_eq_ok.mp ok with ⟨condition, c₁, first, ok⟩
  rcases bind_eq_ok.mp ok with ⟨body, c₂, second, ok⟩
  rw [expect_bind_eq_ok] at ok
  obtain ⟨rfl, rfl⟩ := pure_eq_ok.mp ok.2
  have yields : Yields strict 0 _ condition c₁ := expression_yields first
  have body := blocks second
  exact ⟨begins, .whileLoop _ yields.settled.regular (body.apart yields.stops.glues)
    body.regular.tidy body.regular.each, fun _ _ => rfl, trivial⟩

theorem untilLoop_yields (begins : endsBlock c.next.kind = false)
    (ok : untilLoop block depth c = .ok (s, c')) : StmtYields strict c s c' := by
  rw [untilLoop, eat_bind] at ok
  rcases bind_eq_ok.mp ok with ⟨body, c₁, first, ok⟩
  rw [expect_bind_eq_ok] at ok
  rcases bind_eq_ok.mp ok.2 with ⟨condition, c₂, second, ok⟩
  obtain ⟨rfl, rfl⟩ := pure_eq_ok.mp ok
  have yields : Yields strict 0 _ condition c₂ := expression_yields second
  have body := blocks first
  exact ⟨begins, .untilLoop body.regular.tidy body.regular.each yields.settled.regular,
    fun _ _ => rfl, yields.stops.glues⟩

theorem statement_yields (ok : statement block depth c = .ok (s, c')) :
    StmtYields strict c s c' := by
  rw [statement, peek_bind] at ok
  have routines (begins : endsBlock c.next.kind = false)
      (ok : (routine block depth >>= fun decl => pure (Stmt.routine decl)) c = .ok (s, c')) :
      StmtYields strict c s c' := by
    rcases bind_eq_ok.mp ok with ⟨decl, c₁, read, ok⟩
    obtain ⟨rfl, rfl⟩ := pure_eq_ok.mp ok
    obtain ⟨distinct, body⟩ := routine_yields blocks read
    exact ⟨begins, .routine distinct body.tidy body.each, fun _ _ => by cases decl; rfl, trivial⟩
  generalize next : c.next.kind = kind at ok
  split at ok
  · exact declaration_yields (by rw [next]; rfl) ok
  · exact arrayDeclaration_yields (by rw [next]; rfl) ok
  · exact routines (by rw [next]; rfl) ok
  · exact routines (by rw [next]; rfl) ok
  · exact classDeclaration_yields blocks (by rw [next]; rfl) ok
  · exact returnStatement_yields (by rw [next]; rfl) ok
  · rw [eat_bind] at ok
    obtain ⟨regular, condition, yes, no, rfl⟩ := conditional_yields blocks ok
    exact ⟨by rw [next]; rfl, regular, fun _ _ => by cases no <;> rfl, trivial⟩
  · exact switchStatement_yields blocks (by rw [next]; rfl) ok
  · exact countingLoop_yields blocks (by rw [next]; rfl) ok
  · exact whileLoop_yields blocks (by rw [next]; rfl) ok
  · exact untilLoop_yields blocks (by rw [next]; rfl) ok
  · rcases bind_eq_ok.mp ok with ⟨e, c₁, read, ok⟩
    obtain ⟨rfl, rfl⟩ := pure_eq_ok.mp ok
    have yields : Yields strict 0 c e c₁ := expression_yields read
    exact ⟨yields.begins, .expression yields.settled.regular, yields.settled.plain,
      yields.stops.glues⟩

end

/-- A statement before the rest of its block. -/
theorem StmtYields.cons {body : List Stmt} (first : StmtYields strict c s c')
    (rest : BlockYields strict c' body) : BlockYields strict c (s :: body) := by
  refine ⟨fun _ => first.begins, ⟨?_, ?_⟩, ?_⟩
  · cases body with
    | nil => exact .singleton s
    | cons s' body =>
        refine .cons_cons ?_ rest.regular.tidy
        refine first.leaves.replace (rest.begins (by simp)) ?_
        exact fun plain => (rest.apart plain).head
  · intro s' mem
    rcases List.mem_cons.mp mem with rfl | mem
    · exact first.regular
    · exact rest.regular.each s' mem
  · intro plain
    rw [Apart, Stmt.piecesOf, firstKind_append]
    exact first.plain plain _

theorem BlockYields.nil : BlockYields strict c [] :=
  ⟨fun some => absurd rfl some, ⟨.nil, List.forall_mem_nil _⟩, fun _ => rfl⟩

theorem block_yields {closers : List Keyword} {opener : Token} {body : List Stmt}
    (ok : block depth closers opener c = .ok (body, c')) : BlockYields strict c body := by
  induction depth generalizing closers opener c c' body with
  | zero => exact (exhausted_eq_ok.mp ok).elim
  | succ depth ih =>
      rw [block, peek_bind] at ok
      split at ok
      · obtain ⟨rfl, rfl⟩ := pure_eq_ok.mp ok
        exact .nil
      · split at ok
        · exact (throw_eq_ok.mp ok).elim
        · rcases bind_eq_ok.mp ok with ⟨s, c₁, first, ok⟩
          rcases bind_eq_ok.mp ok with ⟨rest, c₂, second, ok⟩
          obtain ⟨rfl, rfl⟩ := pure_eq_ok.mp ok
          exact (statement_yields ih first).cons (ih second)

theorem statements_yield {b : Nat} {body : List Stmt}
    (ok : statements depth b c = .ok (body, c')) : BlockYields strict c body := by
  induction b generalizing c c' body with
  | zero => exact (exhausted_eq_ok.mp ok).elim
  | succ b ih =>
      rw [statements, nextIs_bind] at ok
      split at ok
      · obtain ⟨rfl, rfl⟩ := pure_eq_ok.mp ok
        exact .nil
      · rcases bind_eq_ok.mp ok with ⟨s, c₁, first, ok⟩
        rcases bind_eq_ok.mp ok with ⟨rest, c₂, second, ok⟩
        obtain ⟨rfl, rfl⟩ := pure_eq_ok.mp ok
        exact (statement_yields block_yields first).cons (ih second)

end Parser

/-- The statements of a program that was read. -/
theorem regular_of_parse {strict : Bool} {source : String} {p : Program}
    (ok : parse source = .ok p) : Stmt.RegularBlock strict p.body := by
  unfold parse at ok
  cases tokens : tokenizeChars source.toList with
  | error problem =>
      rw [tokens] at ok
      cases ok
  | ok r =>
      rw [tokens] at ok
      obtain ⟨c, read⟩ := ofTokens_eq_ok.mp ok
      exact (Parser.statements_yield read).regular

end Pseudocode

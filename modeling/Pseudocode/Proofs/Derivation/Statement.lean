import Pseudocode.Proofs.Derivation.Expression

/-!
The grammar of statements, with spans.

`Sentence.Written` relates statements, blocks and declarations to the tokens that are
read as them, by one rule for each form of syntax. A block goes up to the word that
closes it, which belongs to the construct around it.
-/

namespace Pseudocode

/-- Parameter names with commas between them; at least one. -/
inductive Parameters : List String → List Token → Prop where
  | one {t : Token} (named : t.kind = .identifier) : Parameters [t.value] [t]
  | cons {t comma : Token} {names : List String} {us : List Token} (named : t.kind = .identifier)
      (parts : comma.kind = .symbol .comma) (rest : Parameters names us) :
      Parameters (t.value :: names) (t :: comma :: us)

/-- The words that open and close a routine of some kind. -/
def RoutineKind.Encloses (kind : RoutineKind) (opening close : Token) : Prop :=
  match kind with
  | .function => opening.kind = .keyword .function ∧ close.kind = .keyword .endFunction
  | .procedure => opening.kind = .keyword .procedure ∧ close.kind = .keyword .endProcedure

/-- What the tokens of a statement, or of a part of one, are read as. -/
inductive Sentence where
  | stmt (s : Stmt)
  | block (ss : List Stmt)
  /-- A conditional after its `if` or `elseif`. -/
  | conditional (s : Stmt)
  /-- The arms of a switch and the word that closes it. -/
  | arms (cases : List Case)
  | routine (decl : RoutineDecl)
  | member (m : Member)
  | members (ms : List Member)

inductive Sentence.Written : Sentence → List Token → Prop where
  | declare {keyword name equals : Token} {us : List Token} {value : Expr}
      (opens : keyword.kind = .keyword .let_) (named : name.kind = .identifier)
      (assigns : equals.kind = .symbol .equals) (given : (Phrase.expr 0 value).Written us) :
      Written (.stmt (.declare (keyword.span.merge value.span) name.value value))
        (keyword :: name :: equals :: us)
  | array {keyword name opening close : Token} {us : List Token} {dimensions : List Expr}
      (opens : keyword.kind = .keyword .array) (named : name.kind = .identifier)
      (starts : opening.kind = .symbol .openSquare) (given : (Phrase.items dimensions).Written us)
      (closes : close.kind = .symbol .closeSquare) :
      Written (.stmt (.array (keyword.span.merge close.span) name.value dimensions))
        (keyword :: name :: opening :: (us ++ [close]))
  | routineStmt {us : List Token} {decl : RoutineDecl} (inner : Written (.routine decl) us) :
      Written (.stmt (.routine decl)) us
  | classAlone {keyword name close : Token} {us : List Token} {ms : List Member}
      (opens : keyword.kind = .keyword .class_) (named : name.kind = .identifier)
      (inner : Written (.members ms) us) (closes : close.kind = .keyword .endClass) :
      Written (.stmt (.classDecl ⟨name.value, none, ms, keyword.span.merge close.span⟩))
        (keyword :: name :: (us ++ [close]))
  | classUnder {keyword name inherits parent close : Token} {us : List Token} {ms : List Member}
      (opens : keyword.kind = .keyword .class_) (named : name.kind = .identifier)
      (leads : inherits.kind = .keyword .inherits) (above : parent.kind = .identifier)
      (inner : Written (.members ms) us) (closes : close.kind = .keyword .endClass) :
      Written (.stmt (.classDecl ⟨name.value, some (parent.value, parent.span), ms,
        keyword.span.merge close.span⟩)) (keyword :: name :: inherits :: parent :: (us ++ [close]))
  | giveNothing {keyword : Token} (opens : keyword.kind = .keyword .return_) :
      Written (.stmt (.giveBack keyword.span none)) [keyword]
  | giveBack {keyword : Token} {us : List Token} {value : Expr}
      (opens : keyword.kind = .keyword .return_) (given : (Phrase.expr 0 value).Written us) :
      Written (.stmt (.giveBack (keyword.span.merge value.span) (some value))) (keyword :: us)
  | conditional {keyword : Token} {us : List Token} {s : Stmt} (opens : keyword.kind = .keyword .if_)
      (inner : Written (.conditional s) us) : Written (.stmt s) (keyword :: us)
  | switch {keyword colon : Token} {us vs : List Token} {subject : Expr} {cases : List Case}
      (opens : keyword.kind = .keyword .switch) (given : (Phrase.expr 0 subject).Written us)
      (leads : colon.kind = .symbol .colon) (inner : Written (.arms cases) vs) :
      Written (.stmt (.switch subject cases)) (keyword :: (us ++ colon :: vs))
  | count {keyword name equals leads next again : Token} {us vs ws : List Token} {first last : Expr}
      {body : List Stmt} (opens : keyword.kind = .keyword .for_) (named : name.kind = .identifier)
      (assigns : equals.kind = .symbol .equals) (start : (Phrase.expr 2 first).Written us)
      (leadsTo : leads.kind = .keyword .to_) (stop : (Phrase.expr 2 last).Written vs)
      (inner : Written (.block body) ws) (closes : next.kind = .keyword .next)
      (renamed : again.kind = .identifier) :
      Written (.stmt (.count (keyword.span.merge again.span) name.value first last body))
        (keyword :: name :: equals :: (us ++ leads :: (vs ++ (ws ++ [next, again]))))
  | whileLoop {keyword close : Token} {us vs : List Token} {condition : Expr} {body : List Stmt}
      (opens : keyword.kind = .keyword .while_) (given : (Phrase.expr 0 condition).Written us)
      (inner : Written (.block body) vs) (closes : close.kind = .keyword .endWhile) :
      Written (.stmt (.whileLoop (keyword.span.merge condition.span) condition body))
        (keyword :: (us ++ (vs ++ [close])))
  | untilLoop {keyword leads : Token} {us vs : List Token} {condition : Expr} {body : List Stmt}
      (opens : keyword.kind = .keyword .do_) (inner : Written (.block body) us)
      (leadsTo : leads.kind = .keyword .until_) (given : (Phrase.expr 0 condition).Written vs) :
      Written (.stmt (.untilLoop body condition)) (keyword :: (us ++ leads :: vs))
  | expression {us : List Token} {e : Expr} (given : (Phrase.expr 0 e).Written us) :
      Written (.stmt (.expression e)) us
  | done : Written (.block []) []
  | next {us vs : List Token} {s : Stmt} {ss : List Stmt} (first : Written (.stmt s) us)
      (rest : Written (.block ss) vs) : Written (.block (s :: ss)) (us ++ vs)
  | ifOnly {then_ close : Token} {us vs : List Token} {condition : Expr} {yes : List Stmt}
      (given : (Phrase.expr 0 condition).Written us) (leads : then_.kind = .keyword .then_)
      (inner : Written (.block yes) vs) (closes : close.kind = .keyword .endIf) :
      Written (.conditional (.conditional condition yes none)) (us ++ then_ :: (vs ++ [close]))
  | ifElse {then_ else_ close : Token} {us vs ws : List Token} {condition : Expr} {yes no : List Stmt}
      (given : (Phrase.expr 0 condition).Written us) (leads : then_.kind = .keyword .then_)
      (inner : Written (.block yes) vs) (turns : else_.kind = .keyword .else_)
      (other : Written (.block no) ws) (closes : close.kind = .keyword .endIf) :
      Written (.conditional (.conditional condition yes (some no)))
        (us ++ then_ :: (vs ++ else_ :: (ws ++ [close])))
  | elseIf {then_ again : Token} {us vs ws : List Token} {condition : Expr} {yes : List Stmt}
      {inner : Stmt} (given : (Phrase.expr 0 condition).Written us)
      (leads : then_.kind = .keyword .then_) (body : Written (.block yes) vs)
      (turns : again.kind = .keyword .elseIf) (other : Written (.conditional inner) ws) :
      Written (.conditional (.conditional condition yes (some [inner])))
        (us ++ then_ :: (vs ++ again :: ws))
  | endSwitch {close : Token} (closes : close.kind = .keyword .endSwitch) : Written (.arms []) [close]
  | caseArm {opening colon : Token} {us vs ws : List Token} {test : Expr} {body : List Stmt}
      {cases : List Case} (opens : opening.kind = .keyword .case)
      (given : (Phrase.expr 0 test).Written us) (leads : colon.kind = .symbol .colon)
      (inner : Written (.block body) vs) (rest : Written (.arms cases) ws) :
      Written (.arms (⟨some test, body⟩ :: cases)) (opening :: (us ++ colon :: (vs ++ ws)))
  | defaultArm {opening colon : Token} {vs ws : List Token} {body : List Stmt} {cases : List Case}
      (opens : opening.kind = .keyword .default) (leads : colon.kind = .symbol .colon)
      (inner : Written (.block body) vs) (rest : Written (.arms cases) ws) :
      Written (.arms (⟨none, body⟩ :: cases)) (opening :: colon :: (vs ++ ws))
  | routine {keyword name opening closing close : Token} {us vs : List Token} {kind : RoutineKind}
      {params : List String} {body : List Stmt} (encloses : kind.Encloses keyword close)
      (named : name.kind = .keyword .new ∨ name.kind = .identifier)
      (opens : opening.kind = .symbol .openParen)
      (given : params = [] ∧ us = [] ∨ Parameters params us) (distinct : params.Nodup)
      (closes : closing.kind = .symbol .closeParen) (inner : Written (.block body) vs) :
      Written (.routine ⟨kind, name.value, params, body, keyword.span.merge close.span⟩)
        (keyword :: name :: opening :: (us ++ closing :: (vs ++ [close])))
  | field {modifier name : Token} {visibility : Visibility}
      (shown : Parser.visibility? modifier.kind = some visibility) (named : name.kind = .identifier) :
      Written (.member (.field visibility (modifier.span.merge name.span) name.value)) [modifier, name]
  | method {modifier : Token} {us : List Token} {visibility : Visibility} {decl : RoutineDecl}
      (shown : Parser.visibility? modifier.kind = some visibility)
      (inner : Written (.routine decl) us) :
      Written (.member (.method visibility (modifier.span.merge decl.span) decl)) (modifier :: us)
  | noMembers : Written (.members []) []
  | nextMember {us vs : List Token} {m : Member} {ms : List Member} (first : Written (.member m) us)
      (rest : Written (.members ms) vs) : Written (.members (m :: ms)) (us ++ vs)

/-! ### Spans -/

theorem Sentence.Written.spans_routine {decl : RoutineDecl} {us : List Token}
    (written : (Sentence.routine decl).Written us) (ordered : InOrder us) : Spans us decl.span := by
  cases written with
  | @routine keyword name opening closing close us vs _ _ _ _ _ _ _ _ _ _ =>
      have whole : keyword :: name :: opening :: (us ++ closing :: (vs ++ [close])) =
          [keyword] ++ ((name :: opening :: (us ++ closing :: vs)) ++ [close]) := by simp
      rw [whole] at ordered ⊢
      exact Spans.merge [keyword] _ [close] ordered (.single keyword) (.single close)

theorem Sentence.Written.spans_member {m : Member} {us : List Token}
    (written : (Sentence.member m).Written us) (ordered : InOrder us) : Spans us m.span := by
  cases written with
  | @field modifier name _ _ _ =>
      exact Spans.merge [modifier] [] [name] ordered (.single modifier) (.single name)
  | @method modifier us _ _ _ inner =>
      exact Spans.merge [modifier] [] us ordered (.single modifier)
        (inner.spans_routine (ordered.sublist (by simp)))

end Pseudocode

import Pseudocode.Proofs.Spans.Constructs
import Pseudocode.Proofs.Spans.Selection

/-!
How the spans of a program lie in each other.

Whatever was read from a row of tokens is `Laid` in this row: by induction on how a
phrase or a sentence is written, with one case for each form of syntax, in which the
parts are strung together as the tokens are. A program is a block of statements, so all
its spans are those of tokens, nested and in order (`spans_nest`).
-/

namespace Pseudocode

/-! ### Expressions -/

/-- How a phrase lies in the tokens that it was read from. -/
def Phrase.Laid : Phrase → List Token → Prop
  | .expr _ e, us | .name e, us => (Construct.expr e).Laid us
  | .items es, us | .arguments es _, us => InTurn us (es.map .expr)

namespace Phrase.Written

/-- The parts of an expression, in the row of its span. -/
theorem laid_of_held {L : Nat} {e : Expr} {us : List Token} (written : (Phrase.expr L e).Written us)
    (ordered : InOrder us) (held : InTurn us (e.parts.map .expr)) : (Construct.expr e).Laid us := by
  refine .of_held ordered ?_ held rfl
  rintro _ ⟨⟩
  exact written.spanned ordered

theorem laid {p : Phrase} {us : List Token} (written : p.Written us) (ordered : InOrder us) :
    p.Laid us := by
  induction written with
  | @atom t e found =>
      apply laid_of_held (.atom found) ordered
      rw [Parser.parts_of_atom? found]
      exact .nil _
  | @parens opening close us e opens inner closes ih =>
      have whole := (Phrase.Written.parens opens inner closes).spanned ordered
      rw [Phrase.Spanned, Expr.span_withSpan] at whole
      exact (ih (ordered.behind [opening]).lead).withSpan (by simp) ordered whole
  | @create keyword us vs _ _ _ new named given ih ih' =>
      have row := ordered.behind [keyword]
      have classExpr := InTurn.one (ih row.lead)
      apply laid_of_held (.create new named given) ordered
      exact (classExpr.append (ih' (row.behind us))).follow [keyword]
  | @member us object dot field inner dotted named ih =>
      apply laid_of_held (.member inner dotted named) ordered
      exact (InTurn.one (ih ordered.lead)).lead [dot, field]
  | @index us vs object is opening close inner opens places closes ih ih' =>
      have whole := (Phrase.Written.index inner opens places closes).spanned ordered
      rw [Phrase.Spanned, Expr.span_indexed places.items_ne_nil] at whole
      have base := (ih ordered.lead).mono (List.subset_append_left us (opening :: (vs ++ [close])))
      have between := ih' ((ordered.behind us).behind [opening]).lead
      apply base.indexed _ ordered whole
      intro i mem
      have place := between.laid (.expr i) (List.mem_map_of_mem mem)
      exact place.mono fun t here => by simp [here]
  | @call us vs callee args close inner given ih ih' =>
      have callee := InTurn.one (ih ordered.lead)
      apply laid_of_held (.call inner given) ordered
      exact callee.append (ih' (ordered.behind us))
  | @sign operator us op operand sign inner ih =>
      apply laid_of_held (.sign sign inner) ordered
      exact (InTurn.one (ih (ordered.behind [operator]))).follow [operator]
  | @not operator us operand negates inner ih =>
      apply laid_of_held (.not negates inner) ordered
      exact (InTurn.one (ih (ordered.behind [operator]))).follow [operator]
  | @binary us vs operator op left right first operates second ih ih' =>
      have left := InTurn.one (ih ordered.lead)
      have right := InTurn.one (ih' ((ordered.behind us).behind [operator]))
      apply laid_of_held (.binary first operates second) ordered
      exact left.append (right.follow [operator])
  | @range us vs keyword start stop first leads second ih ih' =>
      have start := InTurn.one (ih ordered.lead)
      have stop := InTurn.one (ih' ((ordered.behind us).behind [keyword]))
      apply laid_of_held (.range first leads second) ordered
      exact start.append (stop.follow [keyword])
  | @assign us vs equals target value left assigns allowed right ih ih' =>
      have target := InTurn.one (ih ordered.lead)
      have value := InTurn.one (ih' ((ordered.behind us).behind [equals]))
      apply laid_of_held (.assign left assigns allowed right) ordered
      exact target.append (value.follow [equals])
  | loosen _ _ ih => exact ih ordered
  | item _ ih => exact .one (ih ordered)
  | @cons us vs comma e es _ _ _ ih ih' =>
      have rest := ih' ((ordered.behind us).behind [comma])
      exact (InTurn.one (ih ordered.lead)).append (rest.follow [comma])
  | noArguments _ _ => exact .nil _
  | @arguments opening close us es _ _ _ ih =>
      have given := ih (ordered.behind [opening]).lead
      exact (given.lead [close]).follow [opening]
  | name named => exact laid_of_held (Phrase.Written.name named).of_name ordered (.nil _)
  | @dotted us object dot field inner dotted named ih =>
      apply laid_of_held (Phrase.Written.dotted inner dotted named).of_name ordered
      exact (InTurn.one (ih ordered.lead)).lead [dot, field]

end Phrase.Written

/-! ### Statements -/

/-- How a sentence lies in the tokens that it was read from. -/
def Sentence.Laid : Sentence → List Token → Prop
  | .stmt s, us | .conditional s, us => (Construct.stmt s).Laid us
  | .block ss, us => InTurn us (ss.map .stmt)
  | .arms cases, us => InTurn us (cases.map .arm)
  | .routine decl, us => (Construct.routine decl).Laid us
  | .member m, us => (Construct.member m).Laid us
  | .members ms, us => InTurn us (ms.map .member)

theorem Sentence.Written.laid {p : Sentence} {us : List Token} (written : p.Written us)
    (ordered : InOrder us) : p.Laid us := by
  induction written with
  | @declare keyword name equals us value _ _ _ given =>
      have row := ordered.behind [keyword, name, equals]
      have held := (InTurn.one (given.laid row)).follow [keyword, name, equals]
      refine .of_held ordered ?_ held rfl
      rintro _ ⟨⟩
      exact Spans.merge [keyword] [name, equals] us ordered (.single keyword) (given.spanned row)
  | @array keyword name opening close us dimensions _ _ _ given _ =>
      have inner := given.laid (ordered.behind [keyword, name, opening]).lead
      refine .of_held ordered ?_ ((inner.lead [close]).follow [keyword, name, opening]) rfl
      rintro _ ⟨⟩
      exact .of_ends ordered rfl (by simp [List.getLast?_cons])
  | routineStmt _ ih => exact .of_held ordered nofun (.one (ih ordered)) rfl
  | @classAlone keyword name close us ms _ _ _ _ ih =>
      have inner := ih (ordered.behind [keyword, name]).lead
      refine .of_held ordered ?_ ((inner.lead [close]).follow [keyword, name]) rfl
      rintro _ ⟨⟩
      exact .of_ends ordered rfl (by simp [List.getLast?_cons])
  | @classUnder keyword name inherits parent close us ms _ _ _ _ _ _ ih =>
      have row := ordered.behind [keyword, name, inherits]
      have above : (Construct.parent parent.span).Laid [parent] := by
        have front : InOrder [parent] := InOrder.lead row
        refine .of_held front ?_ (.nil _) rfl
        rintro _ ⟨⟩
        exact .single parent
      have members := ih (row.behind [parent]).lead
      have held := ((InTurn.one above).append (members.lead [close])).follow [keyword, name, inherits]
      refine .of_held ordered ?_ held rfl
      rintro _ ⟨⟩
      exact .of_ends ordered rfl (by simp [List.getLast?_cons])
  | @giveNothing keyword _ =>
      refine .of_held ordered ?_ (.nil _) rfl
      rintro _ ⟨⟩
      exact .single keyword
  | @giveBack keyword us value _ given =>
      have row := ordered.behind [keyword]
      refine .of_held ordered ?_ ((InTurn.one (given.laid row)).follow [keyword]) rfl
      rintro _ ⟨⟩
      exact Spans.merge [keyword] [] us ordered (.single keyword) (given.spanned row)
  | @conditional keyword us s _ _ ih =>
      exact (ih (ordered.behind [keyword])).mono (List.subset_cons_self keyword us)
  | @switch keyword colon us vs subject cases _ given _ _ ih =>
      have row := ordered.behind [keyword]
      have arms := ih ((row.behind us).behind [colon])
      have subject := InTurn.one (given.laid row.lead)
      exact .of_held ordered nofun ((subject.append (arms.follow [colon])).follow [keyword]) rfl
  | @count keyword name equals leads next again us vs ws first last body _ _ _ start _ stop _ _ _ ih =>
      have row := ordered.behind [keyword, name, equals]
      have row' := (row.behind us).behind [leads]
      have first := InTurn.one (start.laid row.lead)
      have last := InTurn.one (stop.laid row'.lead)
      have body := (ih (row'.behind vs).lead).lead [next, again]
      have held := (first.append ((last.append body).follow [leads])).follow [keyword, name, equals]
      refine .of_held ordered ?_ held rfl
      rintro _ ⟨⟩
      exact .of_ends ordered rfl (by simp [List.getLast?_cons])
  | @whileLoop keyword close us vs condition body _ given _ _ ih =>
      have row := (ordered.behind [keyword]).lead
      have front : InOrder (keyword :: us) := (ordered : InOrder (keyword :: us ++ (vs ++ [close]))).lead
      have held := (InTurn.one (given.laid row)).follow [keyword]
      have later := ih ((ordered.behind [keyword]).behind us).lead
      have spans := Spans.merge [keyword] [] us front (.single keyword) (given.spanned row)
      -- The span ends with the condition.
      have laid : (Construct.stmt (.whileLoop (keyword.span.merge condition.span) condition body)).Laid
          (keyword :: us ++ (vs ++ [close])) := by
        refine .of_inTurn ordered ?_ held (later.lead [close])
        rintro _ ⟨⟩
        exact spans
      exact laid
  | @untilLoop keyword leads us vs condition body _ _ _ given ih =>
      have row := ordered.behind [keyword]
      have condition := InTurn.one (given.laid ((row.behind us).behind [leads]))
      have held := ((ih row.lead).append (condition.follow [leads])).follow [keyword]
      exact .of_held ordered nofun held rfl
  | expression given => exact .of_held ordered nofun (.one (given.laid ordered)) rfl
  | done => exact .nil _
  | @next us vs s ss _ _ ih ih' => exact (InTurn.one (ih ordered.lead)).append (ih' (ordered.behind us))
  | @ifOnly then_ close us vs condition yes given _ _ _ ih =>
      have condition := InTurn.one (given.laid ordered.lead)
      have yes := (ih ((ordered.behind us).behind [then_]).lead).append (.nil [close])
      exact .of_held ordered nofun (condition.append (yes.follow [then_])) rfl
  | @ifElse then_ else_ close us vs ws condition yes no given _ _ _ _ _ ih ih' =>
      have row := (ordered.behind us).behind [then_]
      have condition := InTurn.one (given.laid ordered.lead)
      have no := (ih' ((row.behind vs).behind [else_]).lead).lead [close]
      have branches := (ih row.lead).append (no.follow [else_])
      exact .of_held ordered nofun (condition.append (branches.follow [then_])) rfl
  | @elseIf then_ again us vs ws condition yes inner given _ _ _ _ ih ih' =>
      have row := (ordered.behind us).behind [then_]
      have condition := InTurn.one (given.laid ordered.lead)
      have no := InTurn.one (ih' ((row.behind vs).behind [again]))
      have branches := (ih row.lead).append (no.follow [again])
      exact .of_held ordered nofun (condition.append (branches.follow [then_])) rfl
  | endSwitch _ => exact .nil _
  | @caseArm opening colon us vs ws test body cases _ given _ _ _ ih ih' =>
      have split : opening :: (us ++ colon :: (vs ++ ws)) = [opening] ++ ((us ++ [colon] ++ vs) ++ ws) := by
        simp
      rw [split] at ordered ⊢
      have row := (ordered.behind [opening]).lead
      have test := (InTurn.one (given.laid row.lead.lead)).lead [colon]
      have held := test.append (ih (row.behind (us ++ [colon])))
      have arm : (Construct.arm ⟨some _, body⟩).Laid (us ++ [colon] ++ vs) := .of_held row nofun held rfl
      have rest := ih' ((ordered.behind [opening]).behind (us ++ [colon] ++ vs))
      exact ((InTurn.one arm).append rest).follow [opening]
  | @defaultArm opening colon vs ws body cases _ _ _ _ ih ih' =>
      have row := ordered.behind [opening, colon]
      have arm : (Construct.arm ⟨none, body⟩).Laid vs := .of_held row.lead nofun (ih row.lead) rfl
      exact ((InTurn.one arm).append (ih' (row.behind vs))).follow [opening, colon]
  | @routine keyword name opening closing close us vs kind params body encloses named opens given
      distinct closes inner ih =>
      have row := ((ordered.behind [keyword, name, opening]).behind us).behind [closing]
      have body := ((ih row.lead).lead [close]).follow [closing]
      refine .of_held ordered ?_ ((body.follow us).follow [keyword, name, opening]) rfl
      rintro _ ⟨⟩
      exact .of_ends ordered rfl (by simp [List.getLast?_cons])
  | field shown named =>
      refine .of_held ordered ?_ (.nil _) rfl
      rintro _ ⟨⟩
      exact (Sentence.Written.field shown named).spans_member ordered
  | @method modifier us visibility decl shown inner ih =>
      have held := (InTurn.one (ih (ordered.behind [modifier]))).follow [modifier]
      refine .of_held ordered ?_ held rfl
      rintro _ ⟨⟩
      exact (Sentence.Written.method shown inner).spans_member ordered
  | noMembers => exact .nil _
  | @nextMember us vs m ms _ _ ih ih' =>
      exact (InTurn.one (ih ordered.lead)).append (ih' (ordered.behind us))

/-! ### Programs -/

theorem Construct.nodes_stmts (ss : List Stmt) :
    Stmt.nodesOf ss = (ss.map Construct.stmt).flatMap Construct.nodes := by
  rw [Stmt.nodesOf_eq, List.flatMap_map]
  rfl

/-- In a program that was read from a source, spans end where tokens end, and they are
nested and in order as the constructs are. -/
theorem spans_nest (source : String) (p : Program) (parsed : parse source = .ok p) :
    ∃ ts stop, tokenize source = .ok (ts ++ [.endOfInput stop]) ∧
      (∀ n ∈ p.nodes, n.span.EndsIn ts) ∧
      (∀ c, p.HasConstruct c → c.Orderly) ∧
      (p.body.map Construct.stmt).Pairwise Construct.Precedes := by
  obtain ⟨ts, stop, lexed, read⟩ := parse_eq_ok parsed
  obtain ⟨us, vs, rfl, written⟩ := written_of_ofTokens rfl read
  have row : InOrder us := (inOrder_of_tokenizeChars lexed).lead
  have turn : InTurn us (p.body.map .stmt) := written.laid row
  refine ⟨us ++ vs, stop, tokenize_eq_ok.mpr ⟨us ++ vs, stop, rfl, lexed⟩, ?_, ?_, turn.pairwise row⟩
  · intro n mem
    rw [Program.nodes, Construct.nodes_stmts] at mem
    obtain ⟨c, stmt, inside⟩ := List.mem_flatMap.mp mem
    exact ((turn.laid c stmt).ends n inside).mono (List.subset_append_left us vs)
  · rintro c ⟨s, mem, inside⟩
    exact (turn.laid (.stmt s) (List.mem_map_of_mem mem)).orderly c inside

/-- The body of a loop, behind the span of the loop. -/
theorem spans_nest_loop :
    ∃ p ts stop, parse "while a\nb = 1\nendwhile" = .ok p ∧
      p.nodes.map Node.span = [⟨0, 7⟩, ⟨6, 7⟩, ⟨8, 13⟩, ⟨8, 9⟩, ⟨12, 13⟩] ∧
      tokenize "while a\nb = 1\nendwhile" = .ok (ts ++ [.endOfInput stop]) ∧
      ∀ n ∈ p.nodes, n.span.EndsIn ts := by
  have run : (parse "while a\nb = 1\nendwhile").toOption.map (·.nodes.map Node.span) =
      some [⟨0, 7⟩, ⟨6, 7⟩, ⟨8, 13⟩, ⟨8, 9⟩, ⟨12, 13⟩] := by
    decide +kernel
  cases parsed : parse "while a\nb = 1\nendwhile" with
  | error problem =>
      rw [parsed] at run
      cases run
  | ok p =>
      rw [parsed] at run
      obtain ⟨ts, stop, lexed, ends, -⟩ := spans_nest _ p parsed
      exact ⟨p, ts, stop, rfl, Option.some.inj run, lexed, ends⟩

end Pseudocode

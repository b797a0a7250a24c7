import Pseudocode.Proofs.Spans.Execution
import Pseudocode.Proofs.Spans.Parsing

/-!
Layout does not matter.

Blanks, comments and digit separators show in the places of tokens only. Sources with
the same kinds and values of tokens are read as programs that are the same up to
spans, and running these gives the same answers and leaves the same sessions, up to
the spans of the declarations that the heap keeps. All this is agreement for the
relation between spans that always holds.
-/

namespace Pseudocode

/-! ### Heaps without spans -/

def Routine.bare (r : Routine) : Routine := { r with decl := r.decl.bare }

def ClassCell.bare (c : ClassCell) : ClassCell := { c with decl := c.decl.bare }

/-- The heap, with declarations that have no spans. -/
def Heap.bare (h : Heap) : Heap :=
  h.withCode (h.routines.map Routine.bare) (h.classes.map ClassCell.bare)

def Session.bare (a : Session) : Session :=
  { a with machine := { a.machine with heap := a.machine.heap.bare } }

theorem Routine.agree_iff_bare {r r' : Routine} : r.Agree (fun _ _ => True) r' ↔ r'.bare = r.bare := by
  constructor
  · rintro ⟨decl, scope⟩
    unfold Routine.bare
    rw [RoutineDecl.agree_iff_bare.mp decl, scope]
  · intro same
    obtain ⟨decl, scope⟩ := Routine.mk.inj same
    exact ⟨RoutineDecl.agree_iff_bare.mpr decl, scope⟩

theorem ClassCell.agree_iff_bare {c c' : ClassCell} :
    c.Agree (fun _ _ => True) c' ↔ c'.bare = c.bare := by
  constructor
  · rintro ⟨decl, scope, parent⟩
    unfold ClassCell.bare
    rw [ClassDecl.agree_iff_bare.mp decl, scope, parent]
  · intro same
    obtain ⟨decl, scope, parent⟩ := ClassCell.mk.inj same
    exact ⟨ClassDecl.agree_iff_bare.mpr decl, scope, parent⟩

theorem cells_iff_map {α β : Type} {R : α → α → Prop} {f : α → β}
    (related : ∀ x x', R x x' ↔ f x' = f x) {xs xs' : Array α} :
    Cells R xs xs' ↔ xs'.map f = xs.map f := by
  have relation : R = fun x x' => f x = f x' := by
    funext x x'
    exact propext ((related x x').trans eq_comm)
  rw [eq_comm, ← Array.toList_inj, Array.toList_map, Array.toList_map, ← List.forall₂_eq_eq_eq,
    List.forall₂_map_left_iff, List.forall₂_map_right_iff, Cells, relation]

theorem routines_iff_bare {rs rs' : Array Routine} :
    Cells (Routine.Agree fun _ _ => True) rs rs' ↔ rs'.map Routine.bare = rs.map Routine.bare :=
  cells_iff_map (R := Routine.Agree _) (f := Routine.bare) fun _ _ => Routine.agree_iff_bare

theorem classes_iff_bare {cs cs' : Array ClassCell} :
    Cells (ClassCell.Agree fun _ _ => True) cs cs' ↔
      cs'.map ClassCell.bare = cs.map ClassCell.bare :=
  cells_iff_map (R := ClassCell.Agree _) (f := ClassCell.bare) fun _ _ => ClassCell.agree_iff_bare

theorem Heap.agree_iff_bare {h h' : Heap} : h.Agree (fun _ _ => True) h' ↔ h'.bare = h.bare := by
  constructor
  · intro agree
    cases agree with
    | code h bodies members =>
        have routines := routines_iff_bare.mp bodies
        have classes := classes_iff_bare.mp members
        change h.withCode _ _ = h.withCode _ _
        dsimp only [withCode]
        rw [routines, classes]
  · intro same
    obtain ⟨scopes, arrays, routines, classes, objects, readers, writers⟩ := Heap.mk.inj same
    have whole : h' = h.withCode h'.routines h'.classes := by
      obtain ⟨_, _, _, _, _, _, _⟩ := h'
      simp_all [withCode]
    rw [whole]
    exact .code h (routines_iff_bare.mpr routines) (classes_iff_bare.mpr classes)

theorem Session.agree_iff_bare {a b : Session} :
    a.Agree (fun _ _ => True) b ↔ b.bare = a.bare := by
  constructor
  · intro agree
    obtain ⟨⟨heap, world, depth⟩, globals, limits⟩ := agree
    simp only [Session.bare, Heap.agree_iff_bare.mp heap, world, depth, globals, limits]
  · intro same
    obtain ⟨machine, globals, limits⟩ := Session.mk.inj same
    obtain ⟨heap, world, depth⟩ := Machine.mk.inj machine
    exact ⟨⟨Heap.agree_iff_bare.mpr heap, world, depth⟩, globals, limits⟩

/-! ### Tokens without places -/

/-- What a token says, wherever it stands. -/
def Token.content (t : Token) : TokenKind × String := (t.kind, t.value)

theorem tokens_agree_iff {ts ts' : List Token} :
    List.Forall₂ (Token.Agree fun _ _ => True) ts ts' ↔
      ts'.map Token.content = ts.map Token.content := by
  have relation : Token.Agree (fun _ _ => True) = fun t t' => t.content = t'.content := by
    funext t t'
    refine propext ⟨?_, ?_⟩
    · rintro ⟨kind, value, _⟩
      rw [Token.content, Token.content, kind, value]
    · intro same
      obtain ⟨kind, value⟩ := Prod.mk.inj same
      exact ⟨kind.symm, value.symm, trivial⟩
  rw [eq_comm, ← List.forall₂_eq_eq_eq, List.forall₂_map_left_iff, List.forall₂_map_right_iff,
    relation]

theorem parse_of_tokens {source : String} {ts : List Token} {stop : Position}
    (lexed : tokenizeChars source.toList = .ok (ts, stop)) :
    parse source = Program.ofTokens ts (.endOfInput stop) := by
  unfold parse
  rw [lexed]
  rfl

theorem parse_of_tokenize {source : String} {ts : List Token} (lexed : tokenize source = .ok ts) :
    ∃ init stop, ts = init ++ [.endOfInput stop] ∧
      parse source = Program.ofTokens init (.endOfInput stop) := by
  unfold tokenize at lexed
  unfold parse
  cases split : tokenizeChars source.toList with
  | error e =>
      rw [split] at lexed
      cases lexed
  | ok read =>
      rw [split] at lexed
      obtain ⟨init, stop⟩ := read
      cases lexed
      exact ⟨init, stop, rfl, rfl⟩

theorem parse_agree_of_content {source source' : String} {ts ts' : List Token}
    (lexed : tokenize source = .ok ts) (lexed' : tokenize source' = .ok ts')
    (same : ts'.map Token.content = ts.map Token.content) :
    Program.Reading (fun _ _ => True) (parse source) (parse source') := by
  obtain ⟨init, stop, rfl, read⟩ := parse_of_tokenize lexed
  obtain ⟨init', stop', rfl, read'⟩ := parse_of_tokenize lexed'
  have tokens : init'.map Token.content = init.map Token.content := by
    rw [List.map_append, List.map_append] at same
    exact (List.append_inj' same rfl).1
  rw [read, read']
  exact Program.ofTokens_agree (fun _ _ => trivial) (tokens_agree_iff.mpr tokens) ⟨rfl, rfl, trivial⟩

/-! ### Runs -/

/-- The same value, faults of the same cause and wording, the same crash, or neither an
answer. -/
inductive SameAnswer : Except Failure Value → Except Failure Value → Prop where
  | value (v : Value) : SameAnswer (.ok v) (.ok v)
  | fault {f f' : Fault} (cause : f'.cause = f.cause) (text : f'.display = f.display) :
      SameAnswer (.error (.fault f)) (.error (.fault f'))
  | crashed (c : Crash) : SameAnswer (.error (.crashed c)) (.error (.crashed c))
  | exhausted : SameAnswer (.error .exhausted) (.error .exhausted)

/-- The same answer, and the same session up to spans. -/
structure SameRun (x y : Except Failure Value × Session) : Prop where
  answer : SameAnswer x.1 y.1
  session : y.2.bare = x.2.bare

theorem run_same {a b : Session} (same : b.bare = a.bare) {p p' : Program}
    (agree : p.Agree (fun _ _ => True) p') : SameRun (a.run p) (b.run p') := by
  obtain ⟨answers, sessions⟩ :=
    (Session.agree_iff_bare.mpr same).run (fun _ _ => trivial) agree
  refine ⟨?_, Session.agree_iff_bare.mp sessions⟩
  generalize (a.run p).1 = x, (b.run p').1 = x' at answers
  cases answers with
  | value v => exact .value v
  | fault cause _ => exact .fault rfl rfl
  | crashed c => exact .crashed c
  | exhausted => exact .exhausted

/-- A failure is reported in the same words, if the text is a program. -/
theorem execute_same {a b : Session} {source source' : String} {p p' : Program}
    (read : parse source = .ok p) (read' : parse source' = .ok p')
    (ran : SameRun (a.run p) (b.run p')) : SameRun (a.execute source) (b.execute source') := by
  obtain ⟨answer, session⟩ := ran
  unfold Session.execute
  rw [read, read']
  dsimp only
  generalize a.run p = x, b.run p' = x' at answer session
  obtain ⟨result, after⟩ := x
  obtain ⟨result', after'⟩ := x'
  have recorded (e : Event) : (after'.record e).bare = (after.record e).bare :=
    congrArg (fun a : Session => a.record e) session
  cases answer with
  | value v => exact ⟨.value v, session⟩
  | crashed c => exact ⟨.crashed c, session⟩
  | exhausted => exact ⟨.exhausted, recorded _⟩
  | @fault f f' cause text =>
      refine ⟨.fault cause text, ?_⟩
      dsimp only [Session.reportFailure, Failure.display]
      rw [text]
      exact recorded _

/-- Sources with the same kinds and values of tokens are the same programs: both are
refused with the same message, or both are read, as programs that are the same up to
spans, and then run alike in all sessions that are the same up to spans. -/
theorem layout_irrelevant {source source' : String} {ts ts' : List Token}
    (lexed : tokenize source = .ok ts) (lexed' : tokenize source' = .ok ts')
    (same : ts'.map Token.content = ts.map Token.content) :
    (∃ e e', parse source = .error e ∧ parse source' = .error e' ∧ e'.message = e.message) ∨
      ∃ p p', parse source = .ok p ∧ parse source' = .ok p' ∧ p'.bare = p.bare ∧
        ∀ a b : Session, b.bare = a.bare →
          SameRun (a.run p) (b.run p') ∧ SameRun (a.execute source) (b.execute source') := by
  have reading := parse_agree_of_content lexed lexed' same
  generalize read : parse source = x, read' : parse source' = x' at reading ⊢
  cases reading with
  | @error e e' agree => exact .inl ⟨e, e', rfl, rfl, agree.message⟩
  | @ok p p' agree =>
      refine .inr ⟨p, p', rfl, rfl, Program.agree_iff_bare.mp agree, ?_⟩
      intro a b bare
      have ran := run_same bare agree
      exact ⟨ran, execute_same read read' ran⟩

def inOneLine : String := "print(1000 / (x - 1))"

/-- The same program with a comment, a separator and more blanks. -/
def inTwoLines : String := "print ( 1_000 / // a thousand\n  (x - 1) )"

theorem layout_irrelevant_two_lines :
    ∃ ts ts', tokenize inOneLine = .ok ts ∧ tokenize inTwoLines = .ok ts' ∧
      ts'.map Token.content = ts.map Token.content ∧
      ((∃ e e', parse inOneLine = .error e ∧ parse inTwoLines = .error e' ∧
          e'.message = e.message) ∨
        ∃ p p', parse inOneLine = .ok p ∧ parse inTwoLines = .ok p' ∧ p'.bare = p.bare ∧
          ∀ a b : Session, b.bare = a.bare →
            SameRun (a.run p) (b.run p') ∧
              SameRun (a.execute inOneLine) (b.execute inTwoLines)) := by
  have contents : (tokenize inOneLine).toOption.isSome ∧
      (tokenize inTwoLines).toOption.map (List.map Token.content) =
        (tokenize inOneLine).toOption.map (List.map Token.content) := by
    decide +kernel
  cases lexed : tokenize inOneLine with
  | error e =>
      rw [lexed] at contents
      cases contents.1
  | ok ts =>
      cases lexed' : tokenize inTwoLines with
      | error e =>
          rw [lexed, lexed'] at contents
          cases contents.2
      | ok ts' =>
          rw [lexed, lexed'] at contents
          have same : ts'.map Token.content = ts.map Token.content := Option.some.inj contents.2
          exact ⟨ts, ts', rfl, rfl, same, layout_irrelevant lexed lexed' same⟩

end Pseudocode

import Mathlib.Data.List.Forall2
import Pseudocode.Proofs.Spans.ErrorPlace
import Pseudocode.Proofs.Spans.Moved

/-!
Where the faults of a session stand.

Routines and classes outlive the text that declared them, and a span does not say which
text it is of. So a fault may be at a place of an earlier text than the one that was
entered last. Which text that is can be told by moving texts: a fault moves along with
one of them, by as much as that text is moved, and with no other
(`session_failure_located`).

To find this text, all texts are moved apart, so that no place belongs to two of them.
-/

namespace Pseudocode

/-! ### Agreement in two steps -/

/-- A step of the first relation and a step of the second make one of the third. -/
def Composes (ρ σ τ : Span → Span → Prop) : Prop := ∀ a b c : Span, ρ a b → σ b c → τ a c

section Steps

variable {ρ σ τ : Span → Span → Prop}

mutual

theorem Expr.agree_trans (both : Composes ρ σ τ) :
    ∀ {e e' e'' : Expr}, e.Agree ρ e' → e'.Agree σ e'' → e.Agree τ e''
  | .identifier .., _, _, .identifier s name, .identifier s' _ => .identifier (both _ _ _ s s') name
  | .integer .., _, _, .integer s n, .integer s' _ => .integer (both _ _ _ s s') n
  | .float .., _, _, .float s x, .float s' _ => .float (both _ _ _ s s') x
  | .text .., _, _, .text s t, .text s' _ => .text (both _ _ _ s s') t
  | .null _, _, _, .null s, .null s' => .null (both _ _ _ s s')
  | .assign .., _, _, .assign s left right, .assign s' left' right' =>
      .assign (both _ _ _ s s') (agree_trans both left left') (agree_trans both right right')
  | .binary .., _, _, .binary op s left right, .binary _ s' left' right' =>
      .binary op (both _ _ _ s s') (agree_trans both left left') (agree_trans both right right')
  | .unary .., _, _, .unary op s inner, .unary _ s' inner' =>
      .unary op (both _ _ _ s s') (agree_trans both inner inner')
  | .range .., _, _, .range s first last, .range s' first' last' =>
      .range (both _ _ _ s s') (agree_trans both first first') (agree_trans both last last')
  | .member .., _, _, .member s inner field, .member s' inner' _ =>
      .member (both _ _ _ s s') (agree_trans both inner inner') field
  | .index .., _, _, .index s inner place, .index s' inner' place' =>
      .index (both _ _ _ s s') (agree_trans both inner inner') (agree_trans both place place')
  | .call .., _, _, .call s callee given, .call s' callee' given' =>
      .call (both _ _ _ s s') (agree_trans both callee callee') (agreeAll_trans both given given')
  | .create .., _, _, .create s created given, .create s' created' given' =>
      .create (both _ _ _ s s') (agree_trans both created created') (agreeAll_trans both given given')

theorem Expr.agreeAll_trans (both : Composes ρ σ τ) :
    ∀ {es es' es'' : List Expr}, List.Forall₂ (Expr.Agree ρ) es es' →
      List.Forall₂ (Expr.Agree σ) es' es'' → List.Forall₂ (Expr.Agree τ) es es''
  | [], _, _, .nil, .nil => .nil
  | _ :: _, _, _, .cons first rest, .cons first' rest' =>
      .cons (agree_trans both first first') (agreeAll_trans both rest rest')

end

theorem Expr.rel_agree_trans (both : Composes ρ σ τ) {v v' v'' : Option Expr}
    (first : Option.Rel (Expr.Agree ρ) v v')
    (second : Option.Rel (Expr.Agree σ) v' v'') : Option.Rel (Expr.Agree τ) v v'' := by
  cases first with
  | none =>
      cases second
      exact .none
  | some same =>
      cases second with
      | some same' => exact .some (Expr.agree_trans both same same')

mutual

theorem Stmt.agree_trans (both : Composes ρ σ τ) :
    ∀ {s s' s'' : Stmt}, s.Agree ρ s' → s'.Agree σ s'' → s.Agree τ s''
  | .declare .., _, _, .declare name s value, .declare _ s' value' =>
      .declare name (both _ _ _ s s') (Expr.agree_trans both value value')
  | .array .., _, _, .array name s sizes, .array _ s' sizes' =>
      .array name (both _ _ _ s s') (Expr.agreeAll_trans both sizes sizes')
  | .routine _, _, _, .routine same, .routine same' => .routine (RoutineDecl.agree_trans both same same')
  | .classDecl _, _, _, .classDecl same, .classDecl same' =>
      .classDecl (ClassDecl.agree_trans both same same')
  | .conditional _ _ none, _, _, .once test yes, .once test' yes' =>
      .once (Expr.agree_trans both test test') (Stmt.agreeAll_trans both yes yes')
  | .conditional _ _ (some _), _, _, .either test yes no, .either test' yes' no' =>
      .either (Expr.agree_trans both test test') (Stmt.agreeAll_trans both yes yes')
        (Stmt.agreeAll_trans both no no')
  | .switch .., _, _, .switch subject arms, .switch subject' arms' =>
      .switch (Expr.agree_trans both subject subject') (Case.agreeAll_trans both arms arms')
  | .count .., _, _, .count name s first last inside, .count _ s' first' last' inside' =>
      .count name (both _ _ _ s s') (Expr.agree_trans both first first') (Expr.agree_trans both last last')
        (Stmt.agreeAll_trans both inside inside')
  | .whileLoop .., _, _, .whileLoop s test inside, .whileLoop s' test' inside' =>
      .whileLoop (both _ _ _ s s') (Expr.agree_trans both test test')
        (Stmt.agreeAll_trans both inside inside')
  | .untilLoop .., _, _, .untilLoop inside test, .untilLoop inside' test' =>
      .untilLoop (Stmt.agreeAll_trans both inside inside') (Expr.agree_trans both test test')
  | .giveBack .., _, _, .giveBack s value, .giveBack s' value' =>
      .giveBack (both _ _ _ s s') (Expr.rel_agree_trans both value value')
  | .expression _, _, _, .expression same, .expression same' =>
      .expression (Expr.agree_trans both same same')
termination_by structural x => x

theorem Stmt.agreeAll_trans (both : Composes ρ σ τ) :
    ∀ {ss ss' ss'' : List Stmt}, List.Forall₂ (Stmt.Agree ρ) ss ss' →
      List.Forall₂ (Stmt.Agree σ) ss' ss'' → List.Forall₂ (Stmt.Agree τ) ss ss''
  | [], _, _, .nil, .nil => .nil
  | _ :: _, _, _, .cons first rest, .cons first' rest' =>
      .cons (Stmt.agree_trans both first first') (Stmt.agreeAll_trans both rest rest')
termination_by structural x => x

theorem Case.agreeAll_trans (both : Composes ρ σ τ) :
    ∀ {cs cs' cs'' : List Case}, List.Forall₂ (Case.Agree ρ) cs cs' →
      List.Forall₂ (Case.Agree σ) cs' cs'' → List.Forall₂ (Case.Agree τ) cs cs''
  | [], _, _, .nil, .nil => .nil
  | ⟨_, _⟩ :: _, _, _, .cons (.arm test inside) rest, .cons (.arm test' inside') rest' =>
      .cons (.arm (Expr.rel_agree_trans both test test') (Stmt.agreeAll_trans both inside inside'))
        (Case.agreeAll_trans both rest rest')
termination_by structural x => x

theorem RoutineDecl.agree_trans (both : Composes ρ σ τ) :
    ∀ {decl decl' decl'' : RoutineDecl}, decl.Agree ρ decl' →
      decl'.Agree σ decl'' → decl.Agree τ decl''
  | ⟨_, _, _, _, _⟩, _, _, .decl kind name params inside s, .decl _ _ _ inside' s' =>
      .decl kind name params (Stmt.agreeAll_trans both inside inside') (both _ _ _ s s')
termination_by structural x => x

theorem Member.agreeAll_trans (both : Composes ρ σ τ) : ∀ {ms ms' ms'' : List Member},
    List.Forall₂ (Member.Agree ρ) ms ms' → List.Forall₂ (Member.Agree σ) ms' ms'' →
    List.Forall₂ (Member.Agree τ) ms ms''
  | [], _, _, .nil, .nil => .nil
  | .field .. :: _, _, _, .cons (.field visibility s _ name) rest, .cons (.field _ _ s'' _) rest' =>
      .cons (.field visibility s s'' name) (Member.agreeAll_trans both rest rest')
  | .method _ _ _ :: _, _, _, .cons (.method visibility s _ same) rest,
    .cons (.method _ _ s'' same') rest' =>
      .cons (.method visibility s s'' (RoutineDecl.agree_trans both same same'))
        (Member.agreeAll_trans both rest rest')
termination_by structural x => x

theorem ClassDecl.agree_trans (both : Composes ρ σ τ) :
    ∀ {decl decl' decl'' : ClassDecl}, decl.Agree ρ decl' →
      decl'.Agree σ decl'' → decl.Agree τ decl''
  | ⟨_, _, _, _⟩, _, _, .decl name above inside s, .decl _ above' inside' s' => by
      refine .decl name ?_ (Member.agreeAll_trans both inside inside') (both _ _ _ s s')
      cases above with
      | none =>
          cases above'
          exact .none
      | some same =>
          cases above' with
          | some same' => exact .some ⟨same'.1.trans same.1, both _ _ _ same.2 same'.2⟩
termination_by structural x => x

end

theorem Program.agree_trans (both : Composes ρ σ τ) {p p' p'' : Program} (first : p.Agree ρ p')
    (second : p'.Agree σ p'') : p.Agree τ p'' :=
  Stmt.agreeAll_trans both first second

end Steps

/-! ### Sessions that agree -/

/-- The spans are related, and neither is missing. So a fault that has a place keeps it. -/
theorem settles_of_placed {ρ : Span → Span → Prop}
    (placed : ∀ s s', ρ s s' → s ≠ .unplaced ∧ s' ≠ .unplaced) : Settles ρ := by
  intro a a' s s' first _
  obtain ⟨one, other⟩ := placed a a' first
  rw [ne_eq, ← Span.isUnplaced_iff, Bool.not_eq_true] at one other
  rwa [Span.orElse_of_placed one, Span.orElse_of_placed other]

/-- Texts that are programs that agree, or the same text that is none. -/
def Alike (ρ : Span → Span → Prop) (source source' : String) : Prop :=
  (∃ p p', parse source = .ok p ∧ parse source' = .ok p' ∧ p.Agree ρ p') ∨
    ∃ e, parse source = .error e ∧ source' = source

namespace Session

variable {ρ : Span → Span → Prop} {a b : Session}

/-- The session after some texts, whatever they gave. -/
def feed (session : Session) (sources : List String) : Session :=
  sources.foldl (fun session source => (session.execute source).2) session

theorem Agree.record (agree : a.Agree ρ b) (e : Event) : (a.record e).Agree ρ (b.record e) := by
  obtain ⟨⟨heaps, worlds, depths⟩, globals, limits⟩ := agree
  exact ⟨⟨heaps, congrArg (fun world : World => world.record e) worlds, depths⟩, globals, limits⟩

/-- Texts of programs that agree give the same answers, and leave sessions that agree. -/
theorem Agree.execute (settles : Settles ρ) (agree : a.Agree ρ b) {source source' : String}
    {p p' : Program} (read : parse source = .ok p) (read' : parse source' = .ok p')
    (same : p.Agree ρ p') :
    Answer.Agree ρ (a.execute source).1 (b.execute source').1 ∧
      (a.execute source).2.Agree ρ (b.execute source').2 := by
  obtain ⟨answers, sessions⟩ := agree.run settles same
  unfold Session.execute
  rw [read, read']
  dsimp only
  generalize a.run p = x, b.run p' = x' at answers sessions
  obtain ⟨result, after⟩ := x
  obtain ⟨result', after'⟩ := x'
  cases answers with
  | value v => exact ⟨.value v, sessions⟩
  | fault cause placed => exact ⟨.fault cause placed, sessions.record _⟩
  | crashed c => exact ⟨.crashed c, sessions⟩
  | exhausted => exact ⟨.exhausted, sessions.record _⟩

theorem Agree.feed (settles : Settles ρ) {sources sources' : List String}
    (alike : List.Forall₂ (Alike ρ) sources sources') (agree : a.Agree ρ b) :
    (a.feed sources).Agree ρ (b.feed sources') := by
  induction alike generalizing a b with
  | nil => exact agree
  | @cons source source' _ _ one _ ih =>
      apply ih
      rcases one with ⟨p, p', read, read', same⟩ | ⟨e, read, rfl⟩
      · exact (agree.execute settles read read' same).2
      · simp only [Session.execute, read]
        exact agree.record _

end Session

/-! ### Texts that are moved -/

/-- Every text moved by its own number. -/
def movedAll (pad : Nat → Nat) (sources : List String) : List String :=
  sources.mapIdx fun i source => moved (pad i) source

@[simp] theorem moved_zero (source : String) : moved 0 source = source := by
  unfold moved
  split
  · exact String.empty_append
  · rfl

@[simp] theorem movedAll_zero (sources : List String) : movedAll (fun _ => 0) sources = sources := by
  simp only [movedAll, moved_zero, List.mapIdx_eq_zipIdx_map, List.zipIdx_map_fst]

/-- The span is that of a node of the text, which is a program. -/
def OnNode (source : String) (s : Span) : Prop :=
  ∃ p, parse source = .ok p ∧ ∃ node ∈ p.nodes, node.kind ≠ .member ∧ node.span = s

/-- Copies of a text are alike, as far as the copies of its spans are related. -/
theorem alike_moved {ρ : Span → Span → Prop} {source : String} {d d' : Nat}
    (related : ∀ s s', OnNode (moved d source) s → Copied source.toList d d' s s' → ρ s s') :
    Alike ρ (moved d source) (moved d' source) := by
  cases parsed : parse source with
  | ok p =>
      obtain ⟨q, q', read, read', agree⟩ := parse_moved parsed d d'
      refine .inl ⟨q, q', read, read', Program.agree_trans ?_ q.agree_nodes agree⟩
      rintro s _ s' ⟨rfl, node⟩ copied
      exact related _ _ ⟨q, read, node⟩ copied
  | error e =>
      have still (k : Nat) : moved k source = source := by
        simp [moved, parsed]
      rw [still d, still d']
      exact .inr ⟨e, parsed, rfl⟩

theorem Copied.placed {cs : List Char} {d d' : Nat} {s s' : Span} (copied : Copied cs d d' s s') :
    s ≠ .unplaced ∧ s' ≠ .unplaced := by
  obtain ⟨t, within, rfl, rfl⟩ := copied
  have positive := within.positive
  constructor
  all_goals
    intro missing
    have stop := congrArg Span.stop missing
    simp only [Span.shift, Span.unplaced] at stop
    omega

/-- Spans of one of the texts, in copies of that text. -/
def Spread (sources : List String) (d d' : Nat → Nat) (s s' : Span) : Prop :=
  ∃ i source, sources[i]? = some source ∧ OnNode (moved (d i) source) s ∧
    Copied source.toList (d i) (d' i) s s'

theorem spread_settles (sources : List String) (d d' : Nat → Nat) : Settles (Spread sources d d') := by
  apply settles_of_placed
  rintro s s' ⟨_, _, _, _, copied⟩
  exact copied.placed

/-- Texts that are moved one way or another give the same answers, up to the copies of
their spans. -/
theorem Session.execute_moved {a : Session} (earlier : List String) {source : String} {p : Program}
    (parsed : parse source = .ok p) (d d' : Nat → Nat)
    (agree : a.Agree (Spread (earlier ++ [source]) d d') a) :
    Session.Answer.Agree (Spread (earlier ++ [source]) d d')
      ((a.feed (movedAll d earlier)).execute (moved (d earlier.length) source)).1
      ((a.feed (movedAll d' earlier)).execute (moved (d' earlier.length) source)).1 := by
  have alike (i : Nat) (text : String) (entered : (earlier ++ [source])[i]? = some text) :
      Alike (Spread (earlier ++ [source]) d d') (moved (d i) text) (moved (d' i) text) := by
    apply alike_moved
    intro s s' node copied
    exact ⟨i, text, entered, node, copied⟩
  have before : List.Forall₂ (Alike (Spread (earlier ++ [source]) d d')) (movedAll d earlier)
      (movedAll d' earlier) := by
    rw [List.forall₂_iff_get]
    refine ⟨by simp [movedAll], ?_⟩
    intro i lt lt'
    have inside : i < earlier.length := by simpa [movedAll] using lt
    have entered : (earlier ++ [source])[i]? = some earlier[i] := by
      rw [List.getElem?_append_left inside, List.getElem?_eq_getElem inside]
    simpa [movedAll] using alike i _ entered
  have settles : Settles (Spread (earlier ++ [source]) d d') := spread_settles _ d d'
  have last := alike earlier.length source (by simp)
  obtain ⟨q, q', read, read', _⟩ := parse_moved parsed (d earlier.length) (d' earlier.length)
  rcases last with ⟨p, p', here, there, same⟩ | ⟨e, failed, _⟩
  · exact ((agree.feed settles before).execute settles here there same).1
  · rw [read] at failed
    cases failed

/-! ### Texts that are moved apart -/

/-- Where each text starts if they stand one behind the other. -/
def offset : List String → Nat → Nat
  | first :: rest, i + 1 => byteLength first.toList + 1 + offset rest i
  | _, _ => 0

theorem offset_lt {sources : List String} {i j : Nat} {source : String}
    (entered : sources[i]? = some source) (lt : i < j) :
    offset sources i + byteLength source.toList < offset sources j := by
  induction sources generalizing i j with
  | nil => cases entered
  | cons first rest ih =>
      cases j with
      | zero => cases lt
      | succ j =>
          cases i with
          | zero =>
              cases entered
              simp only [offset]
              omega
          | succ i =>
              have below := ih (j := j) entered (Nat.lt_of_succ_lt_succ lt)
              simp only [offset]
              omega

/-- Then no place is in two of them. -/
theorem offset_separates {sources : List String} {i j : Nat} {source source' : String} {t t' : Span}
    (entered : sources[i]? = some source) (entered' : sources[j]? = some source')
    (within : t.Within source.toList) (within' : t'.Within source'.toList)
    (same : t.shift (offset sources i) = t'.shift (offset sources j)) : i = j ∧ t = t' := by
  have start := congrArg Span.start same
  have stop := congrArg Span.stop same
  simp only [Span.shift] at start stop
  have inside := within.start.le
  have inside' := within'.start.le
  have which : i = j := by
    rcases Nat.lt_trichotomy i j with lt | eq | lt
    · have := offset_lt entered lt
      omega
    · exact eq
    · have := offset_lt entered' lt
      omega
  subst which
  refine ⟨rfl, ?_⟩
  obtain ⟨a, b⟩ := t
  obtain ⟨a', b'⟩ := t'
  dsimp only at start stop
  rw [Span.mk.injEq]
  omega

/-! ### Faults -/

/-- The fault of a session is at a node of the text with that number: it moves with that
text, and stays where it is when others are moved. -/
structure StemsFrom (start : Session) (earlier : List String) (source : String) (f : Fault)
    (i : Nat) (text : String) : Prop where
  entered : (earlier ++ [source])[i]? = some text
  node : OnNode text f.span
  within : f.span.Within text.toList
  follows : ∀ pad : Nat → Nat, ∃ f',
    ((start.feed (movedAll pad earlier)).execute (moved (pad earlier.length) source)).1 =
        .error (.fault f') ∧
      f'.cause = f.cause ∧ f'.span = f.span.shift (pad i)

/-- A fault moves with no more than one text. -/
theorem StemsFrom.unique {start : Session} {earlier : List String} {source : String} {f : Fault}
    {i j : Nat} {text text' : String} (stems : StemsFrom start earlier source f i text)
    (stems' : StemsFrom start earlier source f j text') : j = i := by
  by_contra other
  let pad : Nat → Nat := fun k => if k = i then 1 else 0
  obtain ⟨g, failed, _, moves⟩ := stems.follows pad
  obtain ⟨g', failed', _, stays⟩ := stems'.follows pad
  rw [failed] at failed'
  cases failed'
  rw [moves] at stays
  have stop := congrArg Span.stop stays
  simp [Span.shift, pad, other] at stop

theorem Session.Answer.Agree.fault_left {ρ : Span → Span → Prop} {f : Fault}
    {answer : Except Failure Value} (agree : Answer.Agree ρ (.error (.fault f)) answer) :
    ∃ f', answer = .error (.fault f') ∧ f'.cause = f.cause ∧ ρ f.span f'.span := by
  cases agree with
  | fault cause placed => exact ⟨_, rfl, rfl, placed⟩

/-- A fault stems from one of the texts of the session. -/
theorem exists_stemsFrom {start : Session} (agree : ∀ ρ, start.Agree ρ start) {earlier : List String}
    {source : String} {p : Program} (parsed : parse source = .ok p) {f : Fault}
    (failed : ((start.feed earlier).execute source).1 = .error (.fault f)) :
    ∃ i text, StemsFrom start earlier source f i text := by
  let apart := offset (earlier ++ [source])
  have first := Session.execute_moved earlier parsed (fun _ => 0) apart (agree _)
  simp only [movedAll_zero, moved_zero] at first
  rw [failed] at first
  obtain ⟨g, failedApart, cause, i, text, entered, node, t, within, here, there⟩ := first.fault_left
  rw [moved_zero] at node
  have same : f.span = t := here
  refine ⟨i, text, entered, node, same ▸ within, ?_⟩
  intro pad
  have second := Session.execute_moved earlier parsed apart pad (agree _)
  rw [failedApart] at second
  obtain ⟨f', failedMoved, cause', j, text', entered', _, t', within', here', there'⟩ := second.fault_left
  obtain ⟨rfl, rfl⟩ := offset_separates entered entered' within within' (there.symm.trans here')
  exact ⟨f', failedMoved, cause'.trans cause, by rw [there', same]⟩

/-- A failure of a session, but for a crash, is at a place of one of its texts, and there the diagnostic
points in a page of that text. If the last text is no program, the place is in that
text. Else it is at a node of the text from which the failing code came, and of no other. -/
theorem session_failure_located (limits : Limits) (world : World) (earlier : List String)
    (source : String) (failure : Failure)
    (failed : (((Session.start limits world).feed earlier).execute source).1 = .error failure)
    (ended : failure ≠ .exhausted) (intact : ∀ c, failure ≠ .crashed c) :
    ∃ i text, (earlier ++ [source])[i]? = some text ∧ failure.span.Within text.toList ∧
      (∀ page : Page, page.source = text →
        page.PointsAt (page.render failure.diagnostic) failure.span) ∧
      ((∃ e, failure = .notAProgram e ∧ parse source = .error e ∧ i = earlier.length) ∨
        ∃ f, failure = .fault f ∧ StemsFrom (Session.start limits world) earlier source f i text) := by
  have points {text : String} (within : failure.span.Within text.toList) (page : Page) :
      page.PointsAt (page.render failure.diagnostic) failure.span := by
    obtain ⟨l, more, labels, primary, same⟩ := Failure.labels_diagnostic within.placed
    rw [← same]
    exact page.render_pointsAt labels primary
  cases parsed : parse source with
  | error e =>
      have within := parse_sited source
      rw [parsed] at within
      unfold Session.execute at failed
      rw [parsed] at failed
      cases failed
      exact ⟨earlier.length, source, by simp, within, fun page _ => points within page,
        .inl ⟨e, rfl, rfl, rfl⟩⟩
  | ok p =>
      have agree (ρ : Span → Span → Prop) :
          (Session.start limits world).Agree ρ (Session.start limits world) :=
        Session.start_agree limits world ρ
      have answers := Session.execute_moved earlier parsed (fun _ => 0) (fun _ => 0) (agree _)
      simp only [movedAll_zero, moved_zero] at answers
      rw [failed] at answers
      cases failure with
      | notAProgram e => cases answers
      | crashed c => exact absurd rfl (intact c)
      | exhausted => exact absurd rfl ended
      | fault f =>
          obtain ⟨i, text, stems⟩ := exists_stemsFrom agree parsed failed
          exact ⟨i, text, stems.entered, stems.within, fun page _ => points stems.within page,
            .inr ⟨f, rfl, stems⟩⟩

/-! ### A routine that outlives its text -/

/-- The routine fails where it divides. -/
def failingRoutine : String := "function f()\n return 1 / 0\nendfunction"

/-- What a session that knows the routine answers to a call of it. -/
def callOfRoutine : Except Failure Value :=
  (((Session.start {} {}).feed [failingRoutine]).execute "f()").1

theorem callOfRoutine_eq : callOfRoutine = .error (.fault ⟨.divisionByZero, ⟨21, 26⟩⟩) := by
  have answer : (match callOfRoutine with
      | .error (.fault f) => some f
      | _ => none) = some ⟨.divisionByZero, ⟨21, 26⟩⟩ := by
    decide +kernel
  split at answer
  · rename_i failed
    rw [failed, Option.some.inj answer]
  · cases answer

/-- The call fails in the text that declared the routine. -/
theorem session_failure_located_routine :
    StemsFrom (Session.start {} {}) [failingRoutine] "f()" ⟨.divisionByZero, ⟨21, 26⟩⟩ 0
      failingRoutine := by
  obtain ⟨i, text, entered, within, -, which⟩ := session_failure_located {} {} [failingRoutine] "f()"
    _ callOfRoutine_eq Failure.noConfusion nofun
  rcases which with ⟨e, other, _⟩ | ⟨f, same, stems⟩
  · cases other
  cases same
  match i with
  | 0 =>
      cases entered
      exact stems
  | 1 =>
      cases entered
      have inside : 26 ≤ byteLength "f()".toList := within.stop.le
      exact absurd inside (by decide)
  | i + 2 => cases entered

/-- That is not in the text of the call. -/
theorem session_failure_outside :
    ¬ ∀ (limits : Limits) (world : World) (earlier : List String) (source : String) (failure : Failure),
      (((Session.start limits world).feed earlier).execute source).1 = .error failure →
      failure ≠ .exhausted → (∀ c, failure ≠ .crashed c) →
      failure.span.start ≤ failure.span.stop ∧ failure.span.stop ≤ byteLength source.toList := by
  intro inside
  have stop := (inside {} {} [failingRoutine] "f()" _ callOfRoutine_eq Failure.noConfusion nofun).2
  exact absurd stop (by decide)

end Pseudocode

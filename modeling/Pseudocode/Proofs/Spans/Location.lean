import Pseudocode.Proofs.Spans.Excerpt
import Pseudocode.Proofs.Spans.Execution
import Pseudocode.Proofs.Spans.Parsing
import Pseudocode.Proofs.Spans.Tokens

/-!
Every failure of a program has a place in its text.

Agreement of a program with itself is used as an invariant here: where two spans are
related only if they are the same span with some property, a program that agrees with
itself has spans with that property, and so have its faults. With the property of
lying in the source text the program agrees because its tokens do; with the property
of being the span of a node, by `Program.agree_self`.
-/

namespace Pseudocode

variable {P : Span → Prop}

/-- A span that has the property, and itself. -/
def Marked (P : Span → Prop) (s s' : Span) : Prop := s' = s ∧ P s

theorem marked_settles : Settles (Marked P) := by
  rintro a _ s _ ⟨rfl, first⟩ ⟨rfl, second⟩
  refine ⟨rfl, ?_⟩
  unfold Span.orElse
  split
  · exact second
  · exact first

theorem marked_merges (closed : ∀ {s t : Span}, P s → P t → P (s.merge t)) : Merges (Marked P) := by
  rintro a b _ _ ⟨rfl, first⟩ ⟨rfl, second⟩
  exact ⟨rfl, closed first second⟩

/-! ### Reading -/

theorem parse_empty {source : String} (empty : source.toList = []) : parse source = .ok ⟨[]⟩ := by
  unfold parse
  rw [empty]
  rfl

/-- A program has its spans in the text, and so has an error that there is none. -/
theorem parse_sited (source : String) :
    Sited source.toList (fun p => p.Agree (Marked (Span.Within source.toList)) p) (parse source) := by
  by_cases empty : source.toList = []
  · rw [parse_empty empty]
    exact .nil
  · refine Sited.bind (tokenizeChars_sited source.toList) ?_
    rintro ⟨ts, stop⟩ ⟨each, ends⟩
    have merges : Merges (Marked (Span.Within source.toList)) := marked_merges Span.Within.merge
    have tokens : List.Forall₂ (Token.Agree (Marked (Span.Within source.toList))) ts ts := by
      refine List.forall₂_same.mpr ?_
      intro t mem
      exact ⟨rfl, rfl, rfl, each t mem⟩
    have eof : (Token.endOfInput stop).Agree (Marked (Span.Within source.toList)) (.endOfInput stop) := by
      have whole : Boundary source.toList stop.offset := ⟨source.toList, [], by simp, ends⟩
      have positive : 0 < stop.offset := Nat.lt_of_lt_of_eq (byteLength_pos empty) ends.symm
      exact ⟨rfl, rfl, rfl, whole, whole, Nat.le_refl _, positive⟩
    have reading := Program.ofTokens_agree merges tokens eof
    dsimp only
    generalize Program.ofTokens ts (.endOfInput stop) = read at reading
    cases reading with
    | ok agree => exact agree
    | error agree => exact agree.placed.2

/-! ### Running -/

/-- A heap without declarations agrees with itself. -/
theorem Heap.agree_of_empty {h : Heap} (routines : h.routines = #[]) (classes : h.classes = #[])
    (ρ : Span → Span → Prop) : h.Agree ρ h := by
  have whole : h = h.withCode #[] #[] := by
    rw [← routines, ← classes]
    rfl
  have none : Cells (Routine.Agree ρ) #[] #[] := .nil
  rw [whole]
  exact .code h none .nil

/-- Nothing has been declared before the first program. -/
theorem Session.start_agree (limits : Limits) (world : World) (ρ : Span → Span → Prop) :
    (Session.startOn {} limits world).Agree ρ (Session.startOn {} limits world) :=
  ⟨⟨Heap.agree_of_empty rfl rfl ρ, rfl, rfl⟩, rfl, rfl⟩

/-- A program that gives no value has a fault, at one of its spans, if it neither crashes
nor goes on. -/
theorem run_failure_marked {p : Program} (agree : p.Agree (Marked P) p) {failure : Failure}
    (failed : ((Session.startOn {} {} {}).run p).1 = .error failure) (ended : failure ≠ .exhausted)
    (intact : ∀ c, failure ≠ .crashed c) :
    ∃ f, failure = .fault f ∧ P f.span := by
  have answers := ((Session.start_agree {} {} (Marked P)).run marked_settles agree).1
  rw [failed] at answers
  cases answers with
  | fault cause placed => exact ⟨_, rfl, placed.2⟩
  | crashed c => exact absurd rfl (intact c)
  | exhausted => exact absurd rfl ended

/-- A fault is at a node of the program, and that is no class member. -/
theorem Program.agree_nodes (p : Program) :
    p.Agree (Marked fun s => ∃ node ∈ p.nodes, node.kind ≠ .member ∧ node.span = s) p := by
  refine Program.agree_self ?_
  intro node mem kind
  exact ⟨rfl, node, mem, kind, rfl⟩

/-! ### Diagnostics -/

namespace Diagnostic

variable {d : Diagnostic}

theorem labels_first (none : d.labels = []) {l : Label} (placed : l.span ≠ .unplaced) :
    (d.withLabel l).labels = [l] := by
  have kept : l.span.isUnplaced = false := by
    simpa [← Span.isUnplaced_iff] using placed
  simp [withLabel, kept, none]

/-- The first label stays the first. -/
theorem labels_later {first : Label} {more : List Label} (labels : d.labels = first :: more)
    (l : Label) : ∃ rest, (d.withLabel l).labels = first :: rest := by
  unfold withLabel
  split
  · exact ⟨more, labels⟩
  · exact ⟨more ++ [l], by simp [labels]⟩

end Diagnostic

/-- A failure with a place is labelled there. -/
theorem Failure.labels_diagnostic {failure : Failure} (placed : failure.span ≠ .unplaced) :
    ∃ l more, failure.diagnostic.labels = l :: more ∧ l.style = .primary ∧
      l.span = failure.span := by
  cases failure with
  | crashed _ | exhausted => exact absurd rfl placed
  | fault f =>
      let l : Label := ⟨.primary, f.span, f.cause.remark⟩
      refine ⟨l, [], ?_, rfl, rfl⟩
      change f.diagnostic.labels = [l]
      unfold Fault.diagnostic
      cases f.cause.help? with
      | none => exact Diagnostic.labels_first rfl placed
      | some help => exact Diagnostic.labels_first rfl placed
  | notAProgram e =>
      let l : Label := ⟨.primary, e.span, ""⟩
      let d : Diagnostic := { kind := .syntactic, message := e.message, code := some "E0101" }
      have first : (d.withLabel l).labels = [l] := Diagnostic.labels_first rfl placed
      change ∃ l more, e.diagnostic.labels = l :: more ∧ _ ∧ l.span = e.span
      unfold SyntaxError.diagnostic
      cases e.secondary with
      | none => exact ⟨l, [], first, rfl, rfl⟩
      | some other =>
          obtain ⟨rest, labels⟩ := Diagnostic.labels_later first
            ⟨.secondary, other.1, other.2.message⟩
          exact ⟨l, rest, labels, rfl, rfl⟩

/-! ### Sources -/

theorem runSource_eq_error {source : String} {failure : Failure}
    (failed : runSource source = .error failure) :
    (∃ e, parse source = .error e ∧ failure = .notAProgram e) ∨
      ∃ p, parse source = .ok p ∧ ((Session.startOn {} {} {}).run p).1 = .error failure := by
  unfold runSource runSourceOn at failed
  cases read : parse source with
  | error e =>
      rw [read] at failed
      cases failed
      exact .inl ⟨e, rfl, rfl⟩
  | ok p =>
      rw [read] at failed
      dsimp only at failed
      split at failed
      · cases failed
      · rename_i ran
        cases failed
        exact .inr ⟨p, rfl, congrArg Prod.fst ran⟩

/-- Every failure of a run that ends without a crash is placed: its span is between characters of the
source, a fault is at a node of the program, and the diagnostic points there. -/
theorem failure_located (source : String) (failure : Failure)
    (failed : runSource source = .error failure) (ended : failure ≠ .exhausted)
    (intact : ∀ c, failure ≠ .crashed c) :
    failure.span ≠ .unplaced ∧ failure.span.start ≤ failure.span.stop ∧
      failure.span.stop ≤ byteLength source.toList ∧
      Boundary source.toList failure.span.start ∧ Boundary source.toList failure.span.stop ∧
      (∀ f, failure = .fault f → ∃ p, parse source = .ok p ∧
        ∃ node ∈ p.nodes, node.kind ≠ .member ∧ node.span = f.span) ∧
      ∀ page : Page, page.source = source →
        page.PointsAt (page.render failure.diagnostic) failure.span := by
  have located : failure.span.Within source.toList ∧ ∀ f, failure = .fault f →
      ∃ p, parse source = .ok p ∧ ∃ node ∈ p.nodes, node.kind ≠ .member ∧ node.span = f.span := by
    have sited := parse_sited source
    rcases runSource_eq_error failed with ⟨e, read, rfl⟩ | ⟨p, read, ran⟩
    · rw [read] at sited
      refine ⟨sited, ?_⟩
      rintro f ⟨⟩
    · rw [read] at sited
      obtain ⟨f, rfl, within⟩ := run_failure_marked sited ran ended intact
      obtain ⟨_, ⟨⟩, node⟩ := run_failure_marked p.agree_nodes ran ended intact
      refine ⟨within, ?_⟩
      rintro _ ⟨⟩
      exact ⟨p, read, node⟩
  obtain ⟨within, node⟩ := located
  refine ⟨within.placed, within.ordered, within.stop.le, within.start, within.stop, node, ?_⟩
  rintro page rfl
  obtain ⟨l, more, labels, primary, same⟩ := Failure.labels_diagnostic within.placed
  rw [← same]
  exact page.render_pointsAt labels primary

/-- A division in the second line fails. -/
def dividing : String := "let half = 7 DIV 2\nprint(half DIV (3 - half))"

theorem failure_located_dividing :
    ∃ failure, runSource dividing = .error failure ∧ failure ≠ .exhausted ∧
      (∀ c, failure ≠ .crashed c) ∧ failure.span ≠ .unplaced ∧ failure.span.start ≤ failure.span.stop ∧
      failure.span.stop ≤ byteLength dividing.toList ∧
      Boundary dividing.toList failure.span.start ∧ Boundary dividing.toList failure.span.stop ∧
      (∀ f, failure = .fault f → ∃ p, parse dividing = .ok p ∧
        ∃ node ∈ p.nodes, node.kind ≠ .member ∧ node.span = f.span) ∧
      ∀ page : Page, page.source = dividing →
        page.PointsAt (page.render failure.diagnostic) failure.span := by
  have faulty : (match runSource dividing with
      | .error (.fault f) => some f
      | _ => none) = some ⟨.divisionByZero, ⟨25, 44⟩⟩ := by
    decide +kernel
  cases failed : runSource dividing with
  | ok result =>
      rw [failed] at faulty
      cases faulty
  | error failure =>
      rw [failed] at faulty
      have ended : failure ≠ .exhausted := by
        rintro rfl
        cases faulty
      have intact : ∀ c, failure ≠ .crashed c := by
        rintro c rfl
        cases faulty
      exact ⟨failure, rfl, ended, intact, failure_located dividing failure failed ended intact⟩

end Pseudocode

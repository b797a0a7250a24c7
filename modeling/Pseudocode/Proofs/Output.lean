import Pseudocode.Proofs.Moments

/-!
What a run does to the world, and so to the output.

The leaves of evaluation touch the world by its own operations only (`Acts.leaf`), and
so does a run (`Session.run_world`). Of these operations only the printing of a line is
output, so the output of a run is that of the world it began in and then lines. A
failure is reported once, after them, by the session.
-/

namespace Pseudocode

namespace World

variable {w w' w'' : World}

/-- The output of the second world is that of the first and then lines. -/
def Continues (w w' : World) : Prop :=
  ∃ lines : List String, w'.output = w.output ++ lines.map .log

theorem Continues.of_eq (same : w'.output = w.output) : w.Continues w' := by
  refine ⟨[], ?_⟩
  rw [same, List.map_nil, List.append_nil]

theorem Continues.trans (first : w.Continues w') (second : w'.Continues w'') : w.Continues w'' := by
  obtain ⟨lines, here⟩ := first
  obtain ⟨more, there⟩ := second
  refine ⟨lines ++ more, ?_⟩
  rw [there, here, List.map_append, List.append_assoc]

theorem output_record (w : World) (e : Event) :
    (w.record e).output = w.output ++ [e].filter Event.isOutput := by
  unfold output record
  rw [Array.toList_push, List.filter_append]

/-- What is asked of the world is recorded, and is not output. -/
theorem output_record_of_silent (w : World) {e : Event} (silent : e.isOutput = false) :
    (w.record e).output = w.output := by
  rw [output_record, List.filter_cons_of_neg (by rw [silent]; exact Bool.false_ne_true),
    List.filter_nil, List.append_nil]

theorem Run.continues (run : Run w w') : w.Continues w' := by
  induction run with
  | refl => exact .of_eq rfl
  | trans _ _ first second => exact first.trans second
  | print w text => exact ⟨[text], w.output_record (.log text)⟩
  | ask w prompt => exact .of_eq (w.output_record_of_silent (e := .prompt prompt) rfl)
  | read w path => exact .of_eq (w.output_record_of_silent (e := .read path _) rfl)
  | write w path contents => exact .of_eq (w.output_record_of_silent (e := .write path contents) rfl)
  | draw w range => exact .of_eq rfl

end World

namespace Action

variable {α β : Type}

/-- Whatever the action does to the world, it does by the operations of the world. -/
def Acts (x : Action α) : Prop := ∀ m, (x m).All fun m' => m.world.Run m'.world

namespace Acts

theorem failAt (span : Span) (cause : Cause) : Acts (failAt span cause : Action α) := fun _ => .refl

theorem bind {x : Action α} {f : α → Action β} (first : Acts x) (second : ∀ a, Acts (f a)) :
    Acts (x >>= f) := by
  intro m
  apply all_bind (first m) (fun _ run => run)
  intro a m' run
  exact (second a m').imp fun _ => run.trans

theorem orAt {x : Action α} (span : Span) (acts : Acts x) : Acts (orAt span x) :=
  fun m => all_orAt span (acts m)

theorem ofHeap (f : Heap → α) : Acts (ofHeap f) := fun _ => .refl

theorem tryOfHeap (f : Heap → Except Cause α) : Acts (tryOfHeap f) := by
  intro m
  unfold Action.tryOfHeap
  cases f m.heap <;> exact .refl

theorem changeHeap (f : Heap → α × Heap) : Acts (changeHeap f) := fun _ => .refl

theorem tryChangeHeap (f : Heap → Except Cause α × Heap) : Acts (tryChangeHeap f) := by
  intro m
  rw [tryChangeHeap_apply]
  cases (f m.heap).1 <;> exact .refl

theorem draw (range : Draw) (answer : Generator → List Draw → Option α) : Acts (draw range answer) := by
  intro m
  rw [draw_apply]
  cases answer m.world.generator m.world.drawn <;> exact World.Run.draw m.world range

theorem of_native {x : Action α} (native : Native x) : Acts x := by
  induction native with
  | pure a => exact fun _ => .refl
  | fail cause => exact fun _ => .refl
  | bind _ _ first second => exact bind first second
  | ofHeap _ => exact ofHeap _
  | tryOfHeap _ => exact tryOfHeap _
  | changeHeap _ => exact changeHeap _
  | tryChangeHeap _ => exact tryChangeHeap _
  | changeWorld run => exact fun m => run m.world
  | drawInteger _ => exact draw _ _
  | drawFloat _ _ => exact draw _ _

theorem makeArray (room : Nat) (sizes : List Nat) : Acts (Action.makeArray room sizes) := by
  unfold Action.makeArray
  split
  · exact fun _ => .refl
  · exact changeHeap _

theorem refuseRound (limit : Nat) (span : Span) : Acts (Action.refuseRound limit span : Action α) := by
  unfold Action.refuseRound
  split
  · exact failAt span _
  · exact fun _ => .refl

theorem storeMember (object : Value) (field : String) (v : Value) :
    Acts (Action.storeMember object field v) := by
  unfold Action.storeMember
  split
  · exact tryChangeHeap _
  · exact of_native (.fail _)

theorem member (object : Value) (field : String) : Acts (Action.member object field) := by
  unfold Action.member
  split
  · exact tryOfHeap _
  · exact tryOfHeap _
  · exact of_native (.ofExcept _)

theorem declareClass (decl : ClassDecl) (s : ScopeId) : Acts (Action.declareClass decl s) := by
  apply bind (ofHeap _)
  intro found
  cases found with
  | error f => exact failAt _ _
  | ok parent =>
      apply bind (changeHeap _)
      intro v
      exact bind (orAt decl.span (tryChangeHeap _)) fun _ => of_native (.pure _)

theorem leaf {limits : Limits} {P : Feature → Prop} {s : ScopeId} {x : Action α}
    (leaf : Leaf limits P s x) : Acts x := by
  cases leaf with
  | pure a => exact of_native (.pure a)
  | fail cause => exact of_native (.fail cause)
  | failAt span cause => exact failAt span cause
  | lookup t name => exact tryOfHeap _
  | assign name v _ => exact changeHeap _
  | assignIndexed name i v => exact tryChangeHeap _
  | storeAt container i v => exact of_native (.storeAt container i v)
  | storeMember object field v => exact storeMember object field v
  | binary op l r => exact tryOfHeap _
  | unary op v => exact tryOfHeap _
  | member object field => exact member object field
  | index object i => exact of_native (.index object i)
  | callNative f args => exact of_native (.callNative f args)
  | callMethod m receiver args => exact of_native (.callMethod m receiver args)
  | buildObject c => exact tryChangeHeap _
  | layer o name => exact ofHeap _
  | className c => exact ofHeap _
  | truthy v => exact ofHeap _
  | valuesEqual u v => exact ofHeap _
  | declare name v => exact tryChangeHeap _
  | makeArray sizes => exact makeArray _ sizes
  | refuseRound span => exact refuseRound _ span
  | closure decl _ => exact changeHeap _
  | declareClass decl _ => exact declareClass decl s

end Acts

/-- What the world comes to from a given one on. -/
theorem run_world_invariant (w : World) : Invariant fun m => w.Run m.world where
  leaf isLeaf m run := (Acts.leaf isLeaf m).imp fun _ => run.trans
  scopes _ run := run
  depth _ run := run

end Action

namespace Session

variable (session : Session)

theorem run_world (p : Program) : session.world.Run (session.run p).2.world :=
  run_invariant (Action.run_world_invariant session.world) .refl p

/-- Running a program is no syntax error. -/
theorem run_ne_notAProgram (p : Program) (e : SyntaxError) :
    (session.run p).1 ≠ .error (.notAProgram e) := by
  rw [run_eq]
  generalize Action.executeBlock (Action.context session.limits ampleFuel) session.globals .null
    p.body { session.machine with depth := 0 } = o
  cases o with
  | done flow m => cases flow <;> exact nofun
  | failed _ _ | crashed _ _ | exhausted => exact nofun

/-- What is written about the result of a source text. -/
def report : Except Failure Value → List Event
  | .ok _ => []
  | .error (.crashed _) => []
  | .error failure => [.error failure.display]

theorem report_of_ne {failure : Failure} (noCrash : ∀ c, failure ≠ .crashed c) :
    report (.error failure) = [.error failure.display] := by
  cases failure with
  | crashed c => exact absurd rfl (noCrash c)
  | _ => rfl

theorem execute_of_parse {source : String} {p : Program} (parsed : parse source = .ok p) :
    (session.execute source).1 = (session.run p).1 ∧
      (session.execute source).2.world.output =
        (session.run p).2.world.output ++ report (session.run p).1 := by
  unfold execute
  rw [parsed]
  dsimp only
  rcases session.run p with ⟨result, after⟩
  cases result with
  | ok v => exact ⟨rfl, (List.append_nil _).symm⟩
  | error failure =>
      cases failure with
      | crashed c => exact ⟨rfl, (List.append_nil _).symm⟩
      | _ => exact ⟨rfl, after.world.output_record (.error _)⟩

theorem execute_of_syntaxError {source : String} {e : SyntaxError} (failed : parse source = .error e) :
    session.execute source = (.error (.notAProgram e), session.record (.error e.display)) := by
  unfold execute
  rw [failed]
  rfl

theorem execute_notAProgram_iff (source : String) (e : SyntaxError) :
    (session.execute source).1 = .error (.notAProgram e) ↔ parse source = .error e := by
  cases parsed : parse source with
  | ok p =>
      rw [(session.execute_of_parse parsed).1]
      exact ⟨fun same => absurd same (session.run_ne_notAProgram p e), nofun⟩
  | error e' =>
      rw [session.execute_of_syntaxError parsed]
      constructor
      · rintro ⟨⟩
        rfl
      · rintro ⟨⟩
        rfl

/-- Lines are written first, and the failure, if there is one, after them. -/
theorem execute_writes (source : String) :
    ∃ lines : List String, (session.execute source).2.world.output =
      session.world.output ++ (lines.map .log ++ report (session.execute source).1) := by
  cases parsed : parse source with
  | ok p =>
      obtain ⟨lines, written⟩ := (session.run_world p).continues
      obtain ⟨result, output⟩ := session.execute_of_parse parsed
      refine ⟨lines, ?_⟩
      rw [output, written, result, List.append_assoc]
  | error e =>
      rw [session.execute_of_syntaxError parsed]
      exact ⟨[], session.world.output_record (.error e.display)⟩

/-- Output is only added, and a failure is reported once. The output before a source text
is executed is the beginning of the output after it. What follows are lines when the
text has a value; when it fails they are lines and, last, the text of the failure. Only
a crash is not reported. A text that is no program adds its report only and changes nothing else. -/
theorem execute_output (source : String) :
    session.world.output <+: (session.execute source).2.world.output ∧
      (∀ v, (session.execute source).1 = .ok v →
        ∃ lines : List String, (session.execute source).2.world.output =
          session.world.output ++ lines.map .log) ∧
      (∀ failure, (session.execute source).1 = .error failure → (∀ c, failure ≠ .crashed c) →
        ∃ lines : List String, (session.execute source).2.world.output =
          session.world.output ++ (lines.map .log ++ [.error failure.display])) ∧
      (∀ c, (session.execute source).1 = .error (.crashed c) →
        ∃ lines : List String, (session.execute source).2.world.output =
          session.world.output ++ lines.map .log) ∧
      ∀ e, ((session.execute source).1 = .error (.notAProgram e) ↔ parse source = .error e) ∧
        ((session.execute source).1 = .error (.notAProgram e) →
          (session.execute source).2.world.output = session.world.output ++ [.error e.display] ∧
          (session.execute source).2.globals = session.globals ∧
          (session.execute source).2.heap = session.heap ∧
          (session.execute source).2.world.input = session.world.input ∧
          (session.execute source).2.world.store = session.world.store) := by
  obtain ⟨lines, written⟩ := session.execute_writes source
  constructor
  · exact ⟨_, written.symm⟩
  constructor
  · intro v valued
    rw [valued, report, List.append_nil] at written
    exact ⟨lines, written⟩
  constructor
  · intro failure failed noCrash
    rw [failed, report_of_ne noCrash] at written
    exact ⟨lines, written⟩
  constructor
  · intro c crashed
    rw [crashed, report, List.append_nil] at written
    exact ⟨lines, written⟩
  intro e
  constructor
  · exact session.execute_notAProgram_iff source e
  · intro failed
    rw [session.execute_of_syntaxError ((session.execute_notAProgram_iff source e).mp failed)]
    exact ⟨session.world.output_record (.error e.display), rfl, rfl, rfl, rfl⟩

/-- A procedure prints a line and fails at the next one. -/
def greeting : String :=
  "procedure greet()\n print(\"hello\")\n print(missing)\nendprocedure\ngreet()"

/-- A session that has printed before. -/
def spoken : Session := start {} { events := #[.log "earlier"] }

theorem execute_output_greeting :
    ∃ (f : Fault) (lines : List String), (spoken.execute greeting).1 = .error (.fault f) ∧
      f.display = "Runtime Error: Undefined variable: missing" ∧
      (spoken.execute greeting).2.world.output =
        .log "earlier" :: (lines.map .log ++ [.error f.display]) := by
  have faulty : (match (spoken.execute greeting).1 with
      | .error (.fault f) => some f.display
      | _ => none) = some "Runtime Error: Undefined variable: missing" := by
    decide +kernel
  obtain ⟨-, -, reported, -, -⟩ := spoken.execute_output greeting
  split at faulty
  · rename_i f failed
    obtain ⟨lines, written⟩ := reported (.fault f) failed nofun
    exact ⟨f, lines, failed, Option.some.inj faulty, written⟩
  · cases faulty

end Session

end Pseudocode

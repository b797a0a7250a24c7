import Pseudocode.Proofs.Plain
import Pseudocode.Proofs.Signal

/-!
Marks on scopes do the work of signals.

The machine tells a `return` by marks: it marks the scopes that are left, and
blocks stop when their scope is marked. `Signal` runs programs without any marks.
The two agree. `Sim inCall s x y` relates a statement run in scope `s` on the
machine to one run with signals: on the plain machine the second ends as the first
does, and where it returns a value, the first has marked exactly what a `return`
of this value in `s` marks. This is kept by blocks, loops and calls.
-/

namespace Pseudocode

open Pseudocode.Action hiding pure bind

variable {α : Type} {inCall : Bool} {s : ScopeId} {m m' : Machine}

/-! ### What agreement means -/

/-- Code can run in the scope: it exists, no `return` has left it, and it lies inside
a call or not, as the code is told. -/
structure Stands (inCall : Bool) (s : ScopeId) (m : Machine) : Prop where
  sound : m.heap.Sound
  valid : s < m.heap.scopes.size
  running : m.heap.isTerminated s = false
  inside : (m.heap.boundary? s).isSome = inCall

theorem Stands.after (stands : Stands inCall s m) (sound : m'.heap.Sound)
    (alike : m.heap.Alike m'.heap) : Stands inCall s m' where
  sound := sound
  valid := Nat.lt_of_lt_of_le stands.valid alike.size_le
  running := (alike.isTerminated stands.valid).trans stands.running
  inside := by
    rw [alike.boundary?_eq stands.sound stands.valid]
    exact stands.inside

/-- The scope of a new block. -/
theorem Stands.newBlock (stands : Stands inCall s m) :
    Stands inCall m.heap.scopes.size { m with heap := (m.heap.newBlock s).2 } where
  sound := stands.sound.newScope stands.valid false
  valid := by simp [Heap.newBlock]
  running := by
    simp only [Heap.newBlock, Heap.isTerminated, Heap.scope?_newScope, if_true]
  inside := by
    rw [Heap.boundary?_newBlock stands.sound stands.valid, Option.isSome_map]
    exact stands.inside

/-- The scope of a new call. -/
theorem stands_newCall {around : ScopeId} (sound : m.heap.Sound)
    (older : around < m.heap.scopes.size) :
    Stands true m.heap.scopes.size { m with heap := (m.heap.newCall around).2 } where
  sound := sound.newScope older true
  valid := by simp [Heap.newCall]
  running := by
    simp only [Heap.newCall, Heap.isTerminated, Heap.scope?_newScope, if_true]
  inside := by rw [Heap.boundary?_newCall]; rfl

/-- The ending of a statement in scope `s`, which began in heap `h`, and the ending
with signals. -/
inductive Matches (h : Heap) (s : ScopeId) : Outcome Flow → Outcome Signal → Prop where
  | value (v : Value) (m : Machine) (alike : h.Alike m.heap) :
      Matches h s (.done (.value v) m) (.done (.normal v) m.plain)
  /-- The marks are those of one `return` in `s`. -/
  | returned (v : Value) (m : Machine) (inside : (h.boundary? s).isSome = true)
      (alike : (h.signalReturn s v).2.Alike m.heap) :
      Matches h s (.done .returned m) (.done (.returning v) m.plain)
  | failed (f : Fault) (m : Machine) (alike : h.Alike m.heap) :
      Matches h s (.failed f m) (.failed f m.plain)
  | crashed (c : Crash) (m : Machine) (alike : h.Alike m.heap) :
      Matches h s (.crashed c m) (.crashed c m.plain)
  | exhausted : Matches h s .exhausted .exhausted

/-- An ending seen from an earlier heap with the same marks. -/
theorem Matches.before {h h' : Heap} {o : Outcome Flow} {o' : Outcome Signal}
    (matched : Matches h' s o o') (alike : h.Alike h') (sound : h.Sound)
    (valid : s < h.scopes.size) : Matches h s o o' := by
  cases matched with
  | value v m alike' => exact .value v m (alike.trans alike')
  | returned v m inside alike' =>
      rw [alike.boundary?_eq sound valid] at inside
      exact .returned v m inside ((alike.signalReturn sound valid v).trans alike')
  | failed f m alike' => exact .failed f m (alike.trans alike')
  | crashed c m alike' => exact .crashed c m (alike.trans alike')
  | exhausted => exact .exhausted

/-- The ending of a block seen from the scope around it. -/
theorem Matches.outside {h : Heap} {o : Outcome Flow} {o' : Outcome Signal}
    (matched : Matches (h.newBlock s).2 h.scopes.size o o') (sound : h.Sound)
    (valid : s < h.scopes.size) : Matches h s o o' := by
  have made : h.Alike (h.newBlock s).2 := h.alike_newScope _
  cases matched with
  | value v m alike => exact .value v m (made.trans alike)
  | returned v m inside alike =>
      rw [Heap.boundary?_newBlock sound valid, Option.isSome_map] at inside
      exact .returned v m inside ((Heap.alike_signalReturn_newBlock sound valid v).trans alike)
  | failed f m alike => exact .failed f m (made.trans alike)
  | crashed c m alike => exact .crashed c m (made.trans alike)
  | exhausted => exact .exhausted

structure Sim (inCall : Bool) (s : ScopeId) (x : Action Flow) (y : Action Signal) : Prop where
  leads : Leads (fun _ => True) (some s) x
  agrees : ∀ m, Stands inCall s m → Matches m.heap s (x m) (y m.plain)

namespace Sim

/-! ### Sequencing -/

theorem value (v : Value) : Sim inCall s (pure (.value v)) (pure (.normal v)) :=
  ⟨.of_unscoped (.pure _), fun m _ => .value v m .refl⟩

theorem failAt (span : Span) (cause : Cause) :
    Sim inCall s (failAt span cause) (failAt span cause) :=
  ⟨.of_unscoped (.failAt span cause), fun m _ => .failed _ m .refl⟩

theorem refuseRound (limit : Nat) (span : Span) :
    Sim inCall s (refuseRound limit span) (refuseRound limit span) := by
  unfold Action.refuseRound
  split
  · exact failAt span _
  · exact ⟨.of_unscoped (.crash _), fun m _ => .crashed _ m .refl⟩

theorem exhausted : Sim inCall s exhausted exhausted :=
  ⟨fun _ _ => trivial, fun _ _ => .exhausted⟩

/-- A step of an expression, then a statement. -/
theorem bind {x y : Action α} {f : α → Action Flow} {g : α → Action Signal} (first : Veils s x y)
    (second : ∀ a, Sim inCall s (f a) (g a)) : Sim inCall s (x >>= f) (y >>= g) := by
  refine ⟨first.leads.bind fun a => (second a).leads, ?_⟩
  intro m stands
  have agrees := first.agrees m stands.sound stands.valid
  have alike := first.alike m stands.sound stands.valid
  rw [bind_apply, bind_apply, agrees]
  cases ended : x m with
  | done a m' =>
      obtain ⟨sound', -, alike', -⟩ := first.after stands.sound stands.valid ended
      have rest := (second a).agrees m' (stands.after sound' alike')
      exact rest.before alike' stands.sound stands.valid
  | failed f m' =>
      rw [ended] at alike
      exact .failed f m' alike
  | crashed c m' =>
      rw [ended] at alike
      exact .crashed c m' alike
  | exhausted => exact .exhausted

/-- Where the machine stands after a statement that did not return. -/
theorem after {x : Action Flow} {y : Action Signal} (sim : Sim inCall s x y) {v : Value}
    (stands : Stands inCall s m) (ended : x m = .done (.value v) m') :
    Stands inCall s m' ∧ m.heap.Alike m'.heap ∧ y m.plain = .done (.normal v) m'.plain := by
  have leads := sim.leads m (Heap.carries_true m.heap)
  have matched := sim.agrees m stands
  rw [ended] at leads matched
  generalize y m.plain = o at matched
  cases matched with
  | value _ _ alike =>
      have sound' := leads.1.sound stands.sound (Heap.hosts_some stands.valid)
      exact ⟨stands.after sound' alike, alike, rfl⟩

/-- A statement, then what is made of its ending. After a `return` there are the marks of one
`return` in `s`. -/
theorem andThen {x : Action Flow} {y : Action Signal} {f : Flow → Action Flow}
    {g : Signal → Action Signal} (first : Sim inCall s x y)
    (leads : ∀ flow, Leads (fun _ => True) (some s) (f flow))
    (goOn : ∀ v m, Stands inCall s m → Matches m.heap s (f (.value v) m) (g (.normal v) m.plain))
    (stop : ∀ h v m, s < h.scopes.size → (h.boundary? s).isSome = true →
      (h.signalReturn s v).2.Alike m.heap → Matches h s (f .returned m) (g (.returning v) m.plain)) :
    Sim inCall s (x >>= f) (y >>= g) := by
  refine ⟨first.leads.bind leads, ?_⟩
  intro m stands
  have matched := first.agrees m stands
  rw [bind_apply, bind_apply]
  cases ended : x m with
  | done flow m' =>
      cases flow with
      | value v =>
          obtain ⟨stands', alike, ended'⟩ := first.after stands ended
          rw [ended']
          exact (goOn v m' stands').before alike stands.sound stands.valid
      | returned =>
          rw [ended] at matched
          generalize y m.plain = o at matched
          cases matched with
          | returned v _ inside alike => exact stop m.heap v m' stands.valid inside alike
  | failed e m' =>
      rw [ended] at matched
      generalize y m.plain = o at matched
      cases matched with
      | failed _ _ alike => exact .failed e m' alike
  | crashed c m' =>
      rw [ended] at matched
      generalize y m.plain = o at matched
      cases matched with
      | crashed _ _ alike => exact .crashed c m' alike
  | exhausted =>
      rw [ended] at matched
      generalize y m.plain = o at matched
      cases matched
      exact .exhausted

/-- A statement, then another one unless the first returned. -/
theorem seq {x : Action Flow} {y : Action Signal} {f : Flow → Action Flow}
    {g : Signal → Action Signal} (first : Sim inCall s x y) (stop : f .returned = pure .returned)
    (stop' : ∀ v, g (.returning v) = pure (.returning v))
    (second : ∀ v, Sim inCall s (f (.value v)) (g (.normal v))) :
    Sim inCall s (x >>= f) (y >>= g) := by
  refine first.andThen ?_ (fun v => (second v).agrees) ?_
  · intro flow
    cases flow with
    | value v => exact (second v).leads
    | returned =>
        rw [stop]
        exact .of_unscoped (.pure _)
  · intro h v m _ inside alike
    rw [stop, stop']
    exact .returned v m inside alike

/-- Code in a new scope inside the scope of a statement. -/
theorem enter {f : ScopeId → Action Flow} {g : ScopeId → Action Signal}
    (inside : ∀ inner, Sim inCall inner (f inner) (g inner)) :
    Sim inCall s (newBlock s >>= f) (newBlock s >>= g) := by
  refine ⟨.enter fun inner => (inside inner).leads, ?_⟩
  intro m stands
  have matched := (inside m.heap.scopes.size).agrees _ stands.newBlock
  have made : newBlock s m.plain =
      .done m.heap.scopes.size (Machine.plain { m with heap := (m.heap.newBlock s).2 }) := by
    unfold Action.newBlock Heap.newBlock
    rw [changeHeap_apply]
    simp only [Machine.plain, Heap.plain_newScope]
    rw [show (m.heap.plain.newScope { parent := some s }).1 = m.heap.scopes.size from
      Heap.size_plain m.heap]
    rfl
  rw [bind_apply, bind_apply, made]
  exact matched.outside stands.sound stands.valid

theorem nested {f : ScopeId → Action Flow} {g : ScopeId → Action Signal}
    (inside : ∀ inner, Sim inCall inner (f inner) (g inner)) :
    Sim inCall s (nested s f) (Signal.nested s g) :=
  enter fun inner => (inside inner).seq rfl (fun _ => rfl) fun _ => value .null

/-! ### Loops -/

theorem whileLoop (limit : Nat) (span : Span) {test test' : Action Bool} {body : Action Flow}
    {body' : Action Signal} (tested : Veils s test test') (inside : Sim inCall s body body')
    (left : Nat) :
    Sim inCall s (whileLoop limit span test body left)
      (Signal.whileLoop limit span test' body' left) := by
  induction left with
  | zero =>
      refine bind tested fun holds => ?_
      cases holds with
      | true => exact refuseRound limit span
      | false => exact value .null
  | succ left ih =>
      refine bind tested fun holds => ?_
      cases holds with
      | true => exact inside.seq rfl (fun _ => rfl) fun _ => ih
      | false => exact value .null

theorem untilLoop {test test' : Action Bool} {body : Action Flow} {body' : Action Signal}
    (inside : Sim inCall s body body') (tested : Veils s test test') (fuel : Nat) :
    Sim inCall s (untilLoop body test fuel) (Signal.untilLoop body' test' fuel) := by
  induction fuel with
  | zero => exact exhausted
  | succ fuel ih =>
      refine inside.seq rfl (fun _ => rfl) fun _ => bind tested fun ended => ?_
      cases ended with
      | true => exact value .null
      | false => exact ih

theorem loopVariable_veils (name : String) (span : Span) :
    Veils s (loopVariable s name span) (loopVariable s name span) := by
  refine .bind (.tryOfHeap fun h => h.lookup_plain s name) fun v => ?_
  cases v with
  | integer n => exact .of_unscoped (.pure n)
  | _ => exact .of_unscoped (.failAt span _)

theorem countLoop {name : String} {last : Int64} {span : Span} {body : Action Flow}
    {body' : Action Signal} (inside : Sim inCall s body body') (fuel : Nat) :
    Sim inCall s (countLoop s name last span body fuel)
      (Signal.countLoop s name last span body' fuel) := by
  induction fuel with
  | zero => exact exhausted
  | succ fuel ih =>
      refine bind (loopVariable_veils name span) fun current => ?_
      by_cases more : current.toInt ≤ last.toInt
      · simp only [more, if_true]
        refine inside.seq rfl (fun _ => rfl) fun _ => ?_
        refine bind (loopVariable_veils name span) fun reached => ?_
        cases Integer.add? reached 1 with
        | none => exact value .null
        | some next =>
            refine bind (.changeHeap (Heap.veiled_setLocal s name _) ?_) fun _ => ih
            exact .changeHeap fun _ _ => .bind name _
      · simp only [more, if_false]
        exact value .null

/-! ### Returning -/

/-- A `return` marks scopes where it gives a signal, and fails where that fails. -/
theorem giveBack (span : Span) (v : Value) :
    Sim inCall s (orAt span (signalReturn s v) >>= fun _ => pure .returned)
      (if inCall then pure (.returning v) else orAt span (fail .returnOutsideFunction)) := by
  constructor
  · refine .bind (.orAt span (.tryChangeHeap fun _ _ => .signal v)) fun _ => ?_
    exact .of_unscoped (.pure _)
  · intro m stands
    rw [bind_apply]
    unfold orAt Action.signalReturn
    rw [tryChangeHeap_apply]
    cases walk : m.heap.boundary? s with
    | none =>
        have outside : inCall = false := by
          rw [← stands.inside, walk]
          rfl
        subst outside
        rw [Heap.signalReturn_of_none walk]
        exact .failed _ m .refl
    | some chain =>
        obtain ⟨blocks, b⟩ := chain
        have inside : inCall = true := by
          rw [← stands.inside, walk]
          rfl
        subst inside
        rw [Heap.signalReturn_ok walk]
        have plain : m.plain = Machine.plain { m with heap := (m.heap.signalReturn s v).2 } := by
          simp only [Machine.plain, Heap.plain_signalReturn]
        dsimp only
        rw [plain]
        exact .returned v { m with heap := (m.heap.signalReturn s v).2 } stands.inside .refl

/-- A statement after which the block looks at its scope, then the other statements:
the scope is marked exactly when the first statement returned. -/
theorem seqChecked {x : Action Flow} {y : Action Signal} {f : Flow → Bool → Action Flow}
    {g : Signal → Action Signal} (first : Sim inCall s x y)
    (stop : ∀ flow, f flow true = pure .returned)
    (stop' : ∀ v, g (.returning v) = pure (.returning v))
    (second : ∀ flow, Leads (fun _ => True) (some s) (f flow false))
    (goOn : ∀ v, Sim inCall s (f (.value v) false) (g (.normal v))) :
    Sim inCall s (x >>= fun flow => isTerminated s >>= fun ended => f flow ended) (y >>= g) := by
  refine first.andThen (fun flow => .bind (.ofHeap _) fun ended => ?_) ?_ ?_
  · cases ended with
    | true =>
        rw [stop]
        exact .of_unscoped (.pure _)
    | false => exact second flow
  · intro v m stands
    rw [bind_apply]
    simp only [Action.isTerminated, ofHeap, stands.running]
    exact (goOn v).agrees m stands
  · intro h v m valid inside alike
    obtain ⟨⟨blocks, b⟩, walk⟩ := Option.isSome_iff_exists.mp inside
    have older : s < (h.signalReturn s v).2.scopes.size := by
      rw [Heap.size_signalReturn]
      exact valid
    have marked : m.heap.isTerminated s = true :=
      (alike.isTerminated older).trans (Heap.isTerminated_signalReturn walk v)
    rw [bind_apply]
    simp only [Action.isTerminated, ofHeap, marked]
    rw [stop, stop']
    exact .returned v m inside alike

/-! ### Statements -/

variable {ctx ctx' : Context}

theorem leading_of_veiling (calls : (veiling ctx.limits).Calls ctx ctx') :
    (leading ctx.limits (fun _ => True) ctx.fuel).Calls ctx ctx :=
  fun s id args span => ⟨rfl, (calls s id args span).leads⟩

/-- The two contexts differ in how they call, and calls agree. -/
structure Corresponds (ctx ctx' : Context) : Prop where
  limits : ctx'.limits = ctx.limits
  fuel : ctx'.fuel = ctx.fuel
  calls : (veiling ctx.limits).Calls ctx ctx'

mutual

theorem execute (same : Corresponds ctx ctx') (s : ScopeId) :
    ∀ stmt : Stmt, Sim inCall s (Action.execute ctx s stmt) (Signal.execute ctx' inCall s stmt)
  | .declare span name e => by
      refine bind (Congruence.evaluate same.calls s e fun _ _ => trivial) fun v => ?_
      exact bind (.orAt span (.declare name v)) fun _ => value v
  | .array span name sizes => by
      refine bind (Congruence.dimensions same.calls fun _ _ => trivial) fun sizes => ?_
      rw [same.limits]
      refine bind ((veiling ctx.limits).leaf (.makeArray sizes)) fun v => ?_
      exact bind (.orAt span (.declare name v)) fun _ => value v
  | .routine decl => by
      refine bind ((veiling ctx.limits).leaf (.closure decl fun _ _ => trivial)) fun v => ?_
      exact bind (.orAt decl.span (.declare decl.name v)) fun _ => value v
  | .classDecl decl => bind (.declareClass decl) fun v => value v
  | .conditional test yes none => by
      refine bind (Congruence.evaluate same.calls s test fun _ _ => trivial) fun v => ?_
      refine bind ((veiling ctx.limits).leaf (.truthy v)) fun holds => ?_
      cases holds with
      | true => exact nested fun inner => executeBlock same inner .null yes
      | false => exact value .null
  | .conditional test yes (some no) => by
      refine bind (Congruence.evaluate same.calls s test fun _ _ => trivial) fun v => ?_
      refine bind ((veiling ctx.limits).leaf (.truthy v)) fun holds => ?_
      cases holds with
      | true => exact nested fun inner => executeBlock same inner .null yes
      | false => exact nested fun inner => executeBlock same inner .null no
  | .switch subject cases => by
      refine bind (Congruence.evaluate same.calls s subject fun _ _ => trivial) fun v => ?_
      exact executeCases same s v cases
  | .count span name first last body => by
      refine bind (Congruence.loopBound same.calls fun _ _ => trivial) fun first => ?_
      refine bind (Congruence.loopBound same.calls fun _ _ => trivial) fun last => ?_
      refine enter fun loop => bind (.declare name _) fun _ => ?_
      rw [same.fuel]
      exact countLoop (nested fun inner => executeBlock same inner .null body) _
  | .whileLoop span test body => by
      unfold Signal.execute
      rw [same.limits]
      refine whileLoop _ span (Congruence.condition same.calls _ fun _ _ => trivial) ?_ _
      exact nested fun inner => executeBlock same inner .null body
  | .untilLoop body test => by
      unfold Signal.execute
      rw [same.fuel]
      refine untilLoop ?_ (Congruence.condition same.calls _ fun _ _ => trivial) _
      exact nested fun inner => executeBlock same inner .null body
  | .giveBack span (some e) =>
      bind (Congruence.evaluate same.calls s e fun _ _ => trivial) fun v => giveBack span v
  | .giveBack span none => bind (.of_unscoped (.pure _)) fun v => giveBack span v
  | .expression e => bind (Congruence.evaluate same.calls s e fun _ _ => trivial) fun v => value v

theorem executeBlock (same : Corresponds ctx ctx') (s : ScopeId) (last : Value) :
    ∀ block : List Stmt, Sim inCall s (Action.executeBlock ctx s last block)
      (Signal.executeBlock ctx' inCall s last block)
  | [] => value last
  | stmt :: rest => by
      refine seqChecked (execute same s stmt) (fun _ => rfl) (fun _ => rfl) ?_ ?_
      · intro flow
        exact (Discipline.executeBlock (leading_of_veiling same.calls) s _ rest
          fun _ _ => trivial).2
      · exact fun v => executeBlock same s v rest

theorem executeCases (same : Corresponds ctx ctx') (s : ScopeId) (subject : Value) :
    ∀ cases : List Case, Sim inCall s (Action.executeCases ctx s subject cases)
      (Signal.executeCases ctx' inCall s subject cases)
  | [] => value .null
  | ⟨none, body⟩ :: rest => by
      refine bind (.of_unscoped (.pure true)) fun matched => ?_
      cases matched with
      | true => exact nested fun inner => executeBlock same inner .null body
      | false => exact executeCases same s subject rest
  | ⟨some test, body⟩ :: rest => by
      refine bind (Congruence.evaluate same.calls s test fun _ _ => trivial) fun v => ?_
      refine bind ((veiling ctx.limits).leaf (.valuesEqual subject v)) fun matched => ?_
      cases matched with
      | true => exact nested fun inner => executeBlock same inner .null body
      | false => exact executeCases same s subject rest

end

end Sim

/-! ### Calls -/

/-- The part of a call that runs in its own scope. -/
def Signal.callBody (decl : RoutineDecl) (args : List Value)
    (run : RoutineDecl → ScopeId → Action Signal) (s : ScopeId) : Action Value := do
  bindParameters s decl.params args
  let signal ← deeper (run decl s)
  return signal.result decl.kind

theorem Signal.invoke_eq (limits : Limits) (id : RoutineId) (args : List Value) (span : Span)
    (run : RoutineDecl → ScopeId → Action Signal) (m : Machine) :
    Signal.invoke limits id args span run m =
      match m.heap.routines[id]? with
      | none => .failed (.unplaced (.notCallable .function)) m
      | some ⟨decl, scope⟩ =>
          if args.length ≠ decl.params.length then
            .failed ⟨.arity decl.name decl.params.length args.length, span⟩ m
          else if limits.depth ≤ m.depth then
            .failed ⟨.misuse (.callDepth limits.depth decl.name), span⟩ m
          else Signal.callBody decl args run m.heap.scopes.size
            { m with heap := (m.heap.newBlock scope).2 } := by
  unfold Signal.invoke
  rw [bind_apply]
  simp only [ofHeap]
  cases m.heap.routines[id]? with
  | none => rfl
  | some r =>
      obtain ⟨decl, scope⟩ := r
      dsimp only
      split
      · rfl
      · rw [bind_apply]
        simp only [getDepth]
        split
        · rfl
        · rfl

theorem bindParameters_veils (names : List String) (vs : List Value) :
    Veils s (bindParameters s names vs) (bindParameters s names vs) := by
  induction names generalizing vs with
  | nil => exact .of_unscoped (.pure _)
  | cons name names ih =>
      cases vs with
      | nil => exact .of_unscoped (.pure _)
      | cons v vs => exact .bind (.declare name v) fun _ => ih vs

/-- The end of a call: the value that is parked is the value of the signal. The heap
`h` is the one before the call. -/
theorem takeReturned_eq_result {h : Heap} {around : ScopeId} {flow : Flow} {signal : Signal}
    {m₂ m₃ : Machine} {n : Machine} (sound : (h.newCall around).2.Sound)
    (bound : (h.newCall around).2.Alike m₂.heap)
    (matched : Matches m₂.heap h.scopes.size (.done flow m₃) (.done signal n)) :
    n = m₃.plain ∧ h.Alike m₃.heap ∧
      ((m₃.heap.takeReturned h.scopes.size).1.getD .null) = signal.result .function := by
  have valid : h.scopes.size < (h.newCall around).2.scopes.size := by
    simp [Heap.newCall]
  have made : h.Alike (h.newCall around).2 := h.alike_newScope _
  have fresh : (h.newCall around).2.marks? h.scopes.size
      = some { parent := some around, boundary := true } := by
    unfold Heap.marks?
    rw [Heap.newCall, Heap.scope?_newScope, if_pos rfl]
    rfl
  rw [Heap.takeReturned_fst]
  cases matched with
  | value v _ alike =>
      refine ⟨rfl, made.trans (bound.trans alike), ?_⟩
      rw [bound.trans alike h.scopes.size valid, fresh]
      rfl
  | returned v _ inside alike =>
      have parked := (bound.signalReturn sound valid v).trans alike
      refine ⟨rfl, (h.alike_signalReturn_newCall around v).trans parked, ?_⟩
      rw [parked h.scopes.size (by rw [Heap.size_signalReturn]; exact valid),
        Heap.returned_signalReturn_newCall]
      rfl

theorem Signal.result_procedure (signal : Signal) : signal.result .procedure = .null := by
  cases signal <;> rfl

/-- The body of a call, in the scope that was made for it. -/
theorem callBody_agrees {run : RoutineDecl → ScopeId → Action Flow}
    {run' : RoutineDecl → ScopeId → Action Signal} (decl : RoutineDecl) (args : List Value)
    {around : ScopeId} (inside : ∀ inner, Sim true inner (run decl inner) (run' decl inner)) (sound : m.heap.Sound)
    (older : around < m.heap.scopes.size) :
    let m₁ : Machine := { m with heap := (m.heap.newCall around).2 }
    Signal.callBody decl args run' m.heap.scopes.size m₁.plain =
        (callBody decl args run m.heap.scopes.size m₁).onMachine Machine.plain ∧
      (callBody decl args run m.heap.scopes.size m₁).All fun m' => m.heap.Alike m'.heap := by
  intro m₁
  have stands₁ : Stands true m.heap.scopes.size m₁ := stands_newCall sound older
  have made : m.heap.Alike m₁.heap := m.heap.alike_newScope _
  have params := bindParameters_veils (s := m.heap.scopes.size) decl.params args
  have agrees := params.agrees m₁ stands₁.sound stands₁.valid
  have alike := params.alike m₁ stands₁.sound stands₁.valid
  unfold Signal.callBody callBody
  rw [bind_apply, bind_apply, agrees]
  cases ended : bindParameters m.heap.scopes.size decl.params args m₁ with
  | exhausted => exact ⟨rfl, trivial⟩
  | failed _ m₂ | crashed _ m₂ =>
      rw [ended] at alike
      exact ⟨rfl, made.trans alike⟩
  | done a m₂ =>
      obtain ⟨sound₂, -, alike₂, -⟩ := params.after stands₁.sound stands₁.valid ended
      have stands₂ : Stands true m.heap.scopes.size { m₂ with depth := m₂.depth + 1 } :=
        stands₁.after sound₂ alike₂
      have matched := (inside m.heap.scopes.size).agrees _ stands₂
      dsimp only [Outcome.onMachine]
      rw [bind_apply, bind_apply, deeper_apply, deeper_apply]
      change Matches _ _ _ (run' decl m.heap.scopes.size
        { m₂.plain with depth := m₂.plain.depth + 1 }) at matched
      generalize run decl m.heap.scopes.size { m₂ with depth := m₂.depth + 1 } = o at matched
      generalize run' decl m.heap.scopes.size
        { m₂.plain with depth := m₂.plain.depth + 1 } = o' at matched
      cases o with
      | exhausted =>
          cases matched
          exact ⟨rfl, trivial⟩
      | failed f m₃ =>
          cases matched with
          | failed _ _ alike₃ => exact ⟨rfl, made.trans (alike₂.trans alike₃)⟩
      | crashed c m₃ =>
          cases matched with
          | crashed _ _ alike₃ => exact ⟨rfl, made.trans (alike₂.trans alike₃)⟩
      | done flow m₃ =>
          obtain ⟨signal, n, rfl⟩ : ∃ signal n, o' = .done signal n := by
            cases matched <;> exact ⟨_, _, rfl⟩
          obtain ⟨rfl, alike₃, parked⟩ := takeReturned_eq_result stands₁.sound alike₂ matched
          have kept : m.heap.Alike (m₃.heap.takeReturned m.heap.scopes.size).2 :=
            Heap.alike_takeReturned_of_ge _ alike₃ (Nat.le_refl _)
          have plain : (m₃.heap.takeReturned m.heap.scopes.size).2.plain = m₃.heap.plain :=
            Heap.plain_takeReturned _ _
          dsimp only [Outcome.onMachine]
          rw [bind_apply]
          simp only [Action.takeReturned, changeHeap_apply]
          cases decl.kind with
          | function =>
              refine ⟨?_, kept⟩
              change Outcome.done (signal.result .function) _ = Outcome.done _ _
              simp only [Machine.plain, plain, ← parked]
          | procedure =>
              refine ⟨?_, kept⟩
              change Outcome.done (signal.result .procedure) _ = Outcome.done Value.null _
              simp only [Machine.plain, plain, Signal.result_procedure]

theorem invoke_veils {limits : Limits} {id : RoutineId} {args : List Value} {span : Span}
    {run : RoutineDecl → ScopeId → Action Flow} {run' : RoutineDecl → ScopeId → Action Signal}
    (inside : ∀ decl inner, Sim true inner (run decl inner) (run' decl inner)) :
    Veils s (invoke limits id args span run) (Signal.invoke limits id args span run') := by
  refine ⟨invoke_leads fun decl inner _ => (inside decl inner).leads, ?_, ?_⟩
  · intro m sound _
    have same : m.plain.heap.routines[id]? = m.heap.routines[id]? := rfl
    have depth : m.plain.depth = m.depth := rfl
    rw [invoke_eq, Signal.invoke_eq, same, depth]
    cases found : m.heap.routines[id]? with
    | none => rfl
    | some r =>
        obtain ⟨decl, around⟩ := r
        have older := sound.anchors (.routine _ (Array.mem_of_getElem? found) rfl)
        have called := (callBody_agrees decl args (inside decl) sound older).1
        have made : (⟨(m.plain.heap.newBlock around).2, m.plain.world, m.depth⟩ : Machine) =
            Machine.plain { m with heap := (m.heap.newCall around).2 } := by
          simp only [Machine.plain, Heap.newCall, Heap.newBlock, Heap.plain_newScope]
          rfl
        have size : m.plain.heap.scopes.size = m.heap.scopes.size := Heap.size_plain m.heap
        dsimp only
        rw [made, size]
        by_cases arity : args.length ≠ decl.params.length
        · rw [if_pos arity, if_pos arity]
          rfl
        · rw [if_neg arity, if_neg arity]
          by_cases met : limits.depth ≤ m.depth
          · rw [if_pos met, if_pos met]
            rfl
          · rw [if_neg met, if_neg met]
            exact called
  · intro m sound _
    rw [invoke_eq]
    cases found : m.heap.routines[id]? with
    | none => exact Heap.Alike.refl
    | some r =>
        obtain ⟨decl, around⟩ := r
        have older := sound.anchors (.routine _ (Array.mem_of_getElem? found) rfl)
        dsimp only
        split
        · exact Heap.Alike.refl
        · split
          · exact Heap.Alike.refl
          · exact (callBody_agrees decl args (inside decl) sound older).2

theorem callRoutine_veils (limits : Limits) (fuel left : Nat) (id : RoutineId) (args : List Value)
    (span : Span) : Veils s (callRoutine limits fuel left id args span)
      (Signal.callRoutine limits fuel left id args span) := by
  induction left generalizing s id args span with
  | zero => exact invoke_veils fun _ _ => .exhausted
  | succ left ih =>
      have same : Sim.Corresponds (contextAt limits fuel left) (Signal.contextAt limits fuel left) :=
        ⟨rfl, rfl, fun _ id args span => ih id args span⟩
      exact invoke_veils fun decl inner => Sim.executeBlock same inner .null decl.body

theorem corresponds (limits : Limits) (fuel left : Nat) :
    Sim.Corresponds (contextAt limits fuel left) (Signal.contextAt limits fuel left) :=
  ⟨rfl, rfl, fun _ id args span => callRoutine_veils limits fuel left id args span⟩

/-! ### Programs -/

/-- The session without the marks of its scopes. -/
def Session.plain (session : Session) : Session := { session with machine := session.machine.plain }

theorem Heap.boundary?_of_outermost {h : Heap} {root : ScopeId} (outermost : h.Outermost root) :
    h.boundary? root = none := by
  have place := outermost.place
  unfold Heap.place? at place
  obtain ⟨scope, found, equal⟩ := Option.map_eq_some_iff.mp place
  have around : scope.parent = none := congrArg Prod.fst equal
  have within : scope.boundary = false := congrArg Prod.snd equal
  simp [Heap.boundary?, Heap.boundaryFrom, found, around, within]

theorem Session.Reachable.stands {session : Session} (reachable : session.Reachable) :
    Stands false session.globals { session.machine with depth := 0 } where
  sound := reachable.ready.reachable.sound
  valid := reachable.ready.valid
  running := reachable.outermost.running
  inside := by
    rw [show ({ session.machine with depth := 0 } : Machine).heap = session.heap from rfl,
      Heap.boundary?_of_outermost reachable.outermost]
    rfl

/-- Programs have the same results, in the same world and with the same variables. -/
theorem Session.Reachable.signal_run {session : Session} (reachable : session.Reachable)
    (p : Program) :
    Signal.run session.plain p = ((session.run p).1, (session.run p).2.plain) := by
  have stands := reachable.stands
  have sim : Sim false session.globals _ _ :=
    Sim.executeBlock (corresponds session.limits Session.ampleFuel session.limits.depth)
      session.globals .null p.body
  have matched := sim.agrees _ stands
  have finished : ∀ {o : Outcome Flow} {o' : Outcome Signal},
      Matches session.heap session.globals o o' →
      Signal.finish session.plain o' = ((session.finish o).1, (session.finish o).2.plain) := by
    intro o o' matched
    cases matched with
    | value v m alike => rfl
    | returned v m inside alike => rfl
    | failed f m alike => rfl
    | crashed c m alike => rfl
    | exhausted => rfl
  rw [Session.run_eq]
  exact finished matched

/-- A statement ends by returning exactly when its scope is marked afterwards. -/
theorem returned_iff_isTerminated {x : Action Flow} {y : Action Signal} {flow : Flow}
    (sim : Sim inCall s x y) (stands : Stands inCall s m) (ended : x m = .done flow m') :
    flow = .returned ↔ m'.heap.isTerminated s = true := by
  have matched := sim.agrees m stands
  rw [ended] at matched
  generalize y m.plain = o at matched
  cases matched with
  | value v _ alike =>
      rw [alike.isTerminated stands.valid, stands.running]
      exact ⟨nofun, nofun⟩
  | returned v _ inside alike =>
      obtain ⟨⟨blocks, b⟩, walk⟩ := Option.isSome_iff_exists.mp inside
      rw [alike.isTerminated (by rw [Heap.size_signalReturn]; exact stands.valid),
        Heap.isTerminated_signalReturn walk]
      exact ⟨fun _ => rfl, fun _ => rfl⟩

/-- A call with signals that gives a value ran the body of a routine, and the value is
that of the signal with which the body ended. -/
theorem Signal.callRoutine_done {limits : Limits} {fuel left : Nat} {id : RoutineId}
    {args : List Value} {span : Span} {v : Value}
    (ended : Signal.callRoutine limits fuel (left + 1) id args span m = .done v m') :
    ∃ decl scope signal n, m.heap.routines[id]? = some ⟨decl, scope⟩ ∧
      (bindParameters m.heap.scopes.size decl.params args >>= fun _ =>
        deeper (Signal.executeBlock (Signal.contextAt limits fuel left) true m.heap.scopes.size .null
          decl.body)) { m with heap := (m.heap.newBlock scope).2 } = .done signal n ∧
      v = signal.result decl.kind := by
  unfold Signal.callRoutine at ended
  rw [Signal.invoke_eq] at ended
  split at ended
  · cases ended
  · rename_i decl scope found
    split at ended
    · cases ended
    · split at ended
      · cases ended
      · refine ⟨decl, scope, ?_⟩
        obtain ⟨_, m₁, bound, ran⟩ := bind_eq_done ended
        obtain ⟨signal, n, ran, given⟩ := bind_eq_done ran
        cases given
        refine ⟨signal, m', found, ?_, rfl⟩
        rw [bind_apply, bound]
        exact ran

/-- Marks and signals are two forms of the same `return`. On every session that can be
reached, a program gives the same result with marks as with signals, and leaves the
same world and, apart from marks, the same heap. A statement in an unmarked scope
returns exactly when the scope is marked afterwards; an expression never marks the
scope it is evaluated in; the outermost scope is never marked, whatever has run in
it. A call does the same in both forms, and its value is that of the signal with which
the body of its routine ended. -/
theorem marks_agree_with_signals :
    (∀ session : Session, session.Reachable → ∀ p,
      Signal.run session.plain p = ((session.run p).1, (session.run p).2.plain)) ∧
    (∀ (limits : Limits) (fuel left : Nat) (m : Machine) (s : ScopeId), m.heap.Reachable →
      s < m.heap.scopes.size → m.heap.isTerminated s = false →
      (∀ stmt flow m', execute (contextAt limits fuel left) s stmt m = .done flow m' →
        (flow = .returned ↔ m'.heap.isTerminated s = true)) ∧
      ∀ e, (evaluate (contextAt limits fuel left) s e m).All fun m' =>
        m'.heap.isTerminated s = false) ∧
    (∀ session : Session, session.Reachable → ∀ h : Heap,
      Heap.Run (fun _ => True) (some session.globals) session.heap h →
      h.isTerminated session.globals = false) ∧
    ∀ (limits : Limits) (fuel left : Nat) (m : Machine) (id : RoutineId) (args : List Value)
      (span : Span), m.heap.Reachable →
      Signal.callRoutine limits fuel left id args span m.plain =
        (callRoutine limits fuel left id args span m).onMachine Machine.plain ∧
      ∀ v m', callRoutine limits fuel (left + 1) id args span m = .done v m' →
        ∃ decl scope signal n, m.heap.routines[id]? = some ⟨decl, scope⟩ ∧
          (bindParameters m.heap.scopes.size decl.params args >>= fun _ =>
            deeper (Signal.executeBlock (Signal.contextAt limits fuel left) true
              m.heap.scopes.size .null decl.body))
            { m.plain with heap := (m.plain.heap.newBlock scope).2 } = .done signal n ∧
          v = signal.result decl.kind := by
  refine ⟨fun session reachable p => reachable.signal_run p, ?_, ?_, ?_⟩
  · intro limits fuel left m s reachable valid running
    have stands : Stands (m.heap.boundary? s).isSome s m := ⟨reachable.sound, valid, running, rfl⟩
    constructor
    · intro stmt flow m' ended
      exact returned_iff_isTerminated (Sim.execute (corresponds limits fuel left) s stmt) stands ended
    · intro e
      have veils := Congruence.evaluate (corresponds limits fuel left).calls s e fun _ _ => trivial
      refine (veils.alike m reachable.sound valid).imp fun m' alike => ?_
      exact (alike.isTerminated valid).trans running
  · intro session reachable h run
    exact (run.outermost reachable.outermost).running
  · intro limits fuel left m id args span reachable
    have agrees : ∀ left, Signal.callRoutine limits fuel left id args span m.plain =
        (callRoutine limits fuel left id args span m).onMachine Machine.plain := fun left =>
      (callRoutine_veils limits fuel left id args span).agrees m reachable.sound reachable.size_pos
    refine ⟨agrees left, ?_⟩
    intro v m' ended
    have ended' := agrees (left + 1)
    rw [ended] at ended'
    have size : m.plain.heap.scopes.size = m.heap.scopes.size := Heap.size_plain m.heap
    have done := Signal.callRoutine_done ended'
    rw [size] at done
    exact done

/-- A function that returns from inside a loop and a conditional. -/
def returningFromLoop : Program :=
  ⟨[.routine ⟨.function, "f", ["x"],
      [.whileLoop .unplaced (.identifier .unplaced "true")
        [.conditional (.identifier .unplaced "true")
          [.giveBack .unplaced (some (.identifier .unplaced "x")),
            .expression (.identifier .unplaced "missing")] none]], .unplaced⟩,
    .expression (.call .unplaced (.identifier .unplaced "f") [.integer .unplaced 7])]⟩

theorem eq_ok_of_toInteger? {result : Except Failure Value} {n : Int64}
    (whole : result.toOption.bind Value.toInteger? = some n) : result = .ok (.integer n) := by
  cases result with
  | error => cases whole
  | ok v =>
      cases v with
      | integer =>
          cases whole
          rfl
      | _ => cases whole

theorem returningFromLoop_agrees :
    ((Session.start {} {}).run returningFromLoop).1 = .ok (.integer 7) ∧
      (Signal.run (Session.start {} {}).plain returningFromLoop).1 = .ok (.integer 7) := by
  have marks : ((Session.start {} {}).run returningFromLoop).1 = .ok (.integer 7) :=
    eq_ok_of_toInteger? (by decide +kernel)
  refine ⟨marks, ?_⟩
  rw [marks_agree_with_signals.1 _ (.start {} {}) returningFromLoop, marks]

end Pseudocode

import Pseudocode.Proofs.Execution
import Pseudocode.Session

/-!
The invariant of heaps, and the heaps that sessions reach.

A heap is `Sound` when every scope is younger than the scope around it,
everything that lives in a scope lives in one that exists, and the layers of
objects bind the members of their classes. `Run.sound` says that runs keep this,
so it holds in every `Reachable` heap. Two facts about single scopes follow from
it: a run leaves the names of every older scope but its own as they are
(`Run.localNames_eq`), and it never moves a scope (`Run.place?_eq`).
-/

namespace Pseudocode

namespace Heap

/-- The scope around a scope, and whether it is the scope of a call. -/
def place? (h : Heap) (t : ScopeId) : Option (Option ScopeId × Bool) :=
  (h.scope? t).map fun scope => (scope.parent, scope.boundary)

structure Sound (h : Heap) : Prop where
  parents : ∀ {t p : ScopeId} {boundary : Bool}, h.place? t = some (some p, boundary) → p < t
  anchors : ∀ {t : ScopeId}, h.Anchors t → t < h.scopes.size
  layers : ∀ o ∈ h.objects, ∃ cell, h.classes[o.classId]? = some cell ∧
    ∀ m ∈ cell.decl.members, h.hasLocal o.scope m.name = true

/-- The scope that code runs in, if it has one, exists. -/
def Hosts (h : Heap) (own : Option ScopeId) : Prop := ∀ s, own = some s → s < h.scopes.size

variable {P : Feature → Prop} {own : Option ScopeId} {s : ScopeId} {h h' : Heap}

theorem hosts_none : h.Hosts none := by
  intro s inside
  cases inside

theorem hosts_some (valid : s < h.scopes.size) : h.Hosts (some s) := by
  intro t inside
  cases inside
  exact valid

theorem Hosts.mono (valid : h.Hosts own) (grown : h.scopes.size ≤ h'.scopes.size) :
    h'.Hosts own :=
  fun s inside => Nat.lt_of_lt_of_le (valid s inside) grown

/-! ### Places -/

theorem place?_modifyScope {t : ScopeId} {f : Scope → Scope}
    (keeps : ∀ scope, (f scope).parent = scope.parent ∧ (f scope).boundary = scope.boundary)
    (s : ScopeId) : (h.modifyScope t f).place? s = h.place? s := by
  unfold place?
  rw [scope?_modifyScope]
  split
  · cases h.scope? s with
    | none => rfl
    | some scope => simp only [Option.map_some, keeps scope]
  · rfl

theorem place?_setLocal (t : ScopeId) (name : String) (v : Value) (s : ScopeId) :
    (h.setLocal t name v).place? s = h.place? s := by
  refine place?_modifyScope ?_ s
  intro scope
  exact ⟨rfl, rfl⟩

theorem place?_newScope_of_lt (scope : Scope) {t : ScopeId} (old : t < h.scopes.size) :
    (h.newScope scope).2.place? t = h.place? t := by
  unfold place?
  rw [scope?_newScope, if_neg (Nat.ne_of_lt old)]

theorem place?_newScope_self (scope : Scope) :
    (h.newScope scope).2.place? h.scopes.size = some (scope.parent, scope.boundary) := by
  unfold place?
  rw [scope?_newScope, if_pos rfl]
  rfl

theorem place?_terminate (t s : ScopeId) : (h.terminate t).place? s = h.place? s := by
  refine place?_modifyScope ?_ s
  intro scope
  exact ⟨rfl, rfl⟩

theorem place?_foldl_terminate (blocks : List ScopeId) (h : Heap) (s : ScopeId) :
    (blocks.foldl terminate h).place? s = h.place? s := by
  induction blocks generalizing h with
  | nil => rfl
  | cons b blocks ih => exact (ih (h.terminate b)).trans (place?_terminate b s)

theorem place?_signalReturn (h : Heap) (t : ScopeId) (v : Value) (s : ScopeId) :
    (h.signalReturn t v).2.place? s = h.place? s := by
  unfold signalReturn
  split
  · rfl
  · refine Eq.trans (place?_modifyScope ?_ s) (place?_foldl_terminate ..)
    intro scope
    exact ⟨rfl, rfl⟩

theorem place?_takeReturned (h : Heap) (t s : ScopeId) :
    (h.takeReturned t).2.place? s = h.place? s := by
  refine place?_modifyScope ?_ s
  intro scope
  exact ⟨rfl, rfl⟩

theorem place?_eq_none_iff {t : ScopeId} : h.place? t = none ↔ h.scopes.size ≤ t := by
  unfold place?
  rw [Option.map_eq_none_iff, scope?_eq_none_iff]

/-- A scope stays where it was made. -/
theorem Run.place?_eq (run : Run P own h h') {t : ScopeId} (old : t < h.scopes.size) :
    h'.place? t = h.place? t := by
  induction run with
  | aside scopes code => simp only [place?, scope?, scopes]
  | trans first _ ih ih' => rw [ih' (Nat.lt_of_lt_of_le old first.size_le), ih old]
  | bind name v => exact place?_setLocal ..
  | assign name v permitted => exact place?_setLocal ..
  | setField v found => exact place?_setLocal ..
  | closure decl permitted => rfl
  | classCell decl parent permitted found => rfl
  | layer base found bound => rfl
  | signal v => exact place?_signalReturn ..
  | take => exact place?_takeReturned ..
  | enter boundary lives inner ih =>
      rw [ih (by rw [size_newScope]; exact Nat.lt_succ_of_lt old), place?_newScope_of_lt _ old]

/-! ### The invariant along a run -/

/-- A change that keeps code, places and bound names keeps the invariant. -/
theorem Sound.update (sound : h.Sound) (code : h.SameCode h')
    (size : h'.scopes.size = h.scopes.size) (places : ∀ t, h'.place? t = h.place? t)
    (grow : ∀ t, h.localNames t <+: h'.localNames t) : h'.Sound where
  parents found := sound.parents (by rwa [places] at found)
  anchors lives := by
    rw [size]
    cases lives with
    | routine r mem inside => exact sound.anchors (.routine r (by rwa [code.routines] at mem) inside)
    | classCell c mem inside => exact sound.anchors (.classCell c (by rwa [code.classes] at mem) inside)
    | object o mem inside => exact sound.anchors (.object o (by rwa [code.objects] at mem) inside)
  layers o mem := by
    rw [code.objects] at mem
    obtain ⟨cell, found, bound⟩ := sound.layers o mem
    refine ⟨cell, by rw [code.classes]; exact found, ?_⟩
    intro m member
    exact (hasLocal_iff _).mpr ((grow _).subset ((hasLocal_iff _).mp (bound m member)))

theorem Sound.setLocal (sound : h.Sound) (t : ScopeId) (name : String) (v : Value) :
    (h.setLocal t name v).Sound :=
  sound.update ⟨rfl, rfl, rfl⟩ (size_setLocal ..) (place?_setLocal t name v)
    (setLocal_names_grow h t name v)

/-- A scope that code can be entered from exists. -/
theorem Sound.lives_lt (sound : h.Sound) (valid : h.Hosts own)
    {around : ScopeId} (lives : own = some around ∨ h.Anchors around) : around < h.scopes.size := by
  rcases lives with inside | lives
  · exact valid around inside
  · exact sound.anchors lives

/-- A new scope inside an older one. -/
theorem Sound.newScope (sound : h.Sound) {around : ScopeId} (older : around < h.scopes.size)
    (boundary : Bool) : (h.newScope { parent := some around, boundary }).2.Sound where
  parents := by
    intro t p boundary' found
    by_cases old : t < h.scopes.size
    · rw [place?_newScope_of_lt _ old] at found
      exact sound.parents found
    · by_cases new : t = h.scopes.size
      · subst new
        rw [place?_newScope_self] at found
        cases found
        exact older
      · have absent : (h.newScope { parent := some around, boundary }).2.place? t = none := by
          rw [place?_eq_none_iff, size_newScope]
          exact Nat.lt_of_le_of_ne (Nat.le_of_not_lt old) (Ne.symm new)
        rw [absent] at found
        cases found
  anchors lives := by
    rw [size_newScope]
    have before : h.Anchors _ := match lives with
      | .routine r mem inside => .routine r mem inside
      | .classCell c mem inside => .classCell c mem inside
      | .object o mem inside => .object o mem inside
    exact Nat.lt_succ_of_lt (sound.anchors before)
  layers o mem := by
    obtain ⟨cell, found, bound⟩ := sound.layers o mem
    refine ⟨cell, found, fun m member => ?_⟩
    have old : o.scope < h.scopes.size := sound.anchors (.object o mem rfl)
    rw [hasLocal_iff, localNames_newScope_of_lt _ old, ← hasLocal_iff]
    exact bound m member

theorem Sound.newRoutine (sound : h.Sound) (r : Routine) (valid : r.scope < h.scopes.size) :
    (h.newRoutine r).2.Sound := by
  refine ⟨sound.parents, ?_, sound.layers⟩
  intro t lives
  cases lives with
  | routine r' mem inside =>
      rcases Array.mem_push.mp mem with old | rfl
      · exact sound.anchors (.routine r' old inside)
      · exact inside ▸ valid
  | classCell c mem inside => exact sound.anchors (.classCell c mem inside)
  | object o mem inside => exact sound.anchors (.object o mem inside)

theorem Sound.newClass (sound : h.Sound) (c : ClassCell) (valid : c.scope < h.scopes.size) :
    (h.newClass c).2.Sound := by
  refine ⟨sound.parents, ?_, ?_⟩
  · intro t lives
    cases lives with
    | routine r mem inside => exact sound.anchors (.routine r mem inside)
    | classCell c' mem inside =>
        rcases Array.mem_push.mp mem with old | rfl
        · exact sound.anchors (.classCell c' old inside)
        · exact inside ▸ valid
    | object o mem inside => exact sound.anchors (.object o mem inside)
  · intro o mem
    obtain ⟨cell, declared, bound⟩ := sound.layers o mem
    exact ⟨cell, getElem?_push_of_eq_some _ declared, bound⟩

theorem Sound.newObject (sound : h.Sound) (o : Object) (valid : o.scope < h.scopes.size)
    {cell : ClassCell} (found : h.classes[o.classId]? = some cell)
    (bound : ∀ m ∈ cell.decl.members, h.hasLocal o.scope m.name = true) :
    (h.newObject o).2.Sound := by
  refine ⟨sound.parents, ?_, ?_⟩
  · intro t lives
    cases lives with
    | routine r mem inside => exact sound.anchors (.routine r mem inside)
    | classCell c mem inside => exact sound.anchors (.classCell c mem inside)
    | object o' mem inside =>
        rcases Array.mem_push.mp mem with old | rfl
        · exact sound.anchors (.object o' old inside)
        · exact inside ▸ valid
  · intro o' mem
    rcases Array.mem_push.mp mem with old | rfl
    · exact sound.layers o' old
    · exact ⟨cell, found, bound⟩

theorem Run.sound (run : Run P own h h') (sound : h.Sound) (valid : h.Hosts own) :
    h'.Sound := by
  induction run with
  | aside scopes code =>
      refine sound.update code (congrArg Array.size scopes) ?_ ?_
      · intro t
        simp only [place?, scope?, scopes]
      · intro t
        simp only [localNames, scope?, scopes, List.prefix_rfl]
  | trans first _ ih ih' => exact ih' (ih sound valid) (valid.mono first.size_le)
  | bind name v => exact sound.setLocal ..
  | assign name v permitted => exact sound.setLocal ..
  | setField v found => exact sound.setLocal ..
  | closure decl permitted => exact sound.newRoutine _ (valid _ rfl)
  | classCell decl parent permitted found => exact sound.newClass _ (valid _ rfl)
  | layer base found bound => exact sound.newObject _ (valid _ rfl) found bound
  | @signal s h v =>
      refine sound.update (signalReturn_sameCode h s v) (size_signalReturn ..)
        (place?_signalReturn h s v) ?_
      intro t
      simp [localNames_signalReturn]
  | @take s h =>
      refine sound.update ⟨rfl, rfl, rfl⟩ (size_modifyScope ..) (place?_takeReturned h s) ?_
      intro t
      simp [localNames_takeReturned]
  | enter boundary lives inner ih =>
      exact ih (sound.newScope (sound.lives_lt valid lives) boundary) (hosts_some (by simp))

/-! ### Walks outward -/

theorem Sound.parent_lt (sound : h.Sound) {scope : Scope} {p : ScopeId}
    (found : h.scope? s = some scope) (around : scope.parent = some p) : p < s := by
  have place : h.place? s = some (some p, scope.boundary) := by
    unfold place?
    rw [found, Option.map_some, around]
  exact sound.parents place

/-- A walk is never ended by its bound, when this is more than the scope where it starts. What
the walk finds depends on the bound only through the scope around, and this one is older. -/
theorem Sound.walk_eq {α : Type} {walk : Nat → ScopeId → α} (sound : h.Sound)
    (outward : ∀ s n n', (∀ p, h.parent? s = some p → walk n p = walk n' p) →
      walk (n + 1) s = walk (n' + 1) s)
    {steps : Nat} (enough : s < steps) : walk steps s = walk (s + 1) s := by
  induction s using Nat.strongRecOn generalizing steps with
  | ind s ih =>
      cases steps with
      | zero => exact absurd enough (Nat.not_lt_zero s)
      | succ steps =>
          refine outward s steps s fun p around => ?_
          obtain ⟨scope, found, around⟩ := Option.bind_eq_some_iff.mp around
          have older := sound.parent_lt found around
          have shorter : p < steps := Nat.lt_of_lt_of_le older (Nat.le_of_lt_succ enough)
          rw [ih p older shorter, ih p older older]

theorem Sound.lookupFrom_eq (sound : h.Sound) (name : String) {steps : Nat} (enough : s < steps) :
    h.lookupFrom name steps s = h.lookup? s name := by
  refine sound.walk_eq (fun s n n' same => ?_) enough
  rw [lookupFrom_step, lookupFrom_step, Option.bind_congr same]

theorem Sound.resolveFrom_eq (sound : h.Sound) (name : String) {steps : Nat} (enough : s < steps) :
    h.resolveFrom name steps s = h.resolve? s name := by
  refine sound.walk_eq (fun s n n' same => ?_) enough
  rw [resolveFrom_step, resolveFrom_step, Option.bind_congr same]

theorem Sound.boundaryFrom_eq (sound : h.Sound) {steps : Nat} (enough : s < steps) :
    h.boundaryFrom steps s = h.boundaryFrom (s + 1) s := by
  refine sound.walk_eq (fun s n n' same => ?_) enough
  unfold parent? at same
  rw [boundaryFrom, boundaryFrom]
  cases found : h.scope? s with
  | none => rfl
  | some scope =>
      rw [found] at same
      cases around : scope.parent with
      | none => simp only [around]
      | some p => simp only [around, same p around]

/-! ### Names of other scopes -/

/-- The layer that `layer?` finds is one of an object, and its class declares
the member under that name. -/
theorem layer_of_layerFrom {name : String} {steps : Nat} {o : ObjectId} {layer : Object}
    {member : Member} (found : h.layerFrom name steps o = some (layer, member)) :
    layer ∈ h.objects ∧ h.ownMember? layer name = some member := by
  induction steps generalizing o with
  | zero => cases found
  | succ steps ih =>
      simp only [layerFrom] at found
      split at found
      · cases found
      · rename_i cell here
        split at found
        · rename_i m declared
          cases found
          exact ⟨Array.mem_of_getElem? here, declared⟩
        · split at found
          · cases found
          · exact ih found

/-- A field that can be set from outside is bound in its layer. -/
theorem Sound.hasLocal_of_layer? (sound : h.Sound) {o : ObjectId} {name : String} {layer : Object}
    {member : Member} (found : h.layer? o name = some (layer, member)) :
    h.hasLocal layer.scope name = true := by
  obtain ⟨mem, declared⟩ := layer_of_layerFrom found
  obtain ⟨cell, inClass, bound⟩ := sound.layers layer mem
  simp only [ownMember?, inClass, Option.bind_some, ClassDecl.member?] at declared
  have named := List.find?_some declared
  have isName : member.name = name := by simpa using named
  rw [← isName]
  exact bound member (List.mem_of_find?_eq_some declared)

/-- A run in one scope leaves the names of every other scope as they are. -/
theorem Run.localNames_eq (run : Run P own h h') (sound : h.Sound) (valid : h.Hosts own)
    {t : ScopeId} (old : t < h.scopes.size) (other : own ≠ some t) :
    h'.localNames t = h.localNames t := by
  induction run with
  | aside scopes code => simp only [localNames, scope?, scopes]
  | trans first _ ih ih' =>
      have grown := first.size_le
      rw [ih' (first.sound sound valid) (valid.mono grown) (Nat.lt_of_lt_of_le old grown) other,
        ih sound valid old other]
  | bind name v =>
      refine localNames_setLocal_of_ne name v ?_
      rintro rfl
      exact other rfl
  | @assign s h name v permitted =>
      rcases assign_owner (h := h) s name with bound | self
      · exact localNames_setLocal_of_bound v bound t
      · unfold Heap.assign
        rw [self]
        refine localNames_setLocal_of_ne name v ?_
        rintro rfl
        exact other rfl
  | setField v found => exact localNames_setLocal_of_bound v (sound.hasLocal_of_layer? found) t
  | closure decl permitted => rfl
  | classCell decl parent permitted found => rfl
  | layer base found bound => rfl
  | signal v => exact localNames_signalReturn ..
  | take => exact localNames_takeReturned ..
  | @enter own h h' around boundary lives inner ih =>
      have fresh : some h.scopes.size ≠ some t := by
        intro same
        exact Nat.ne_of_gt old (Option.some.inj same)
      rw [ih (sound.newScope (sound.lives_lt valid lives) boundary) (hosts_some (by simp))
        (by rw [size_newScope]; exact Nat.lt_succ_of_lt old) fresh,
        localNames_newScope_of_lt _ old]

/-! ### Reachable heaps -/

/-- A heap that some session passes through: that of a new session, and whatever
code running in one of its scopes turns it into. -/
inductive Reachable : Heap → Prop where
  | start (limits : Limits) (world : World) : Reachable (Session.start limits world).heap
  | run {own : Option ScopeId} {h h' : Heap} (before : Reachable h) (valid : h.Hosts own)
      (run : Run (fun _ => True) own h h') : Reachable h'

theorem sound_start (limits : Limits) (world : World) : (Session.start limits world).heap.Sound where
  parents := by
    intro t p boundary found
    by_cases first : t = 0
    · subst first
      cases found
    · have absent : (Session.start limits world).heap.place? t = none := by
        rw [place?_eq_none_iff]
        exact Nat.one_le_iff_ne_zero.mpr first
      rw [absent] at found
      cases found
  anchors := by
    rintro t (⟨_, mem, _⟩ | ⟨_, mem, _⟩ | ⟨_, mem, _⟩) <;> cases Array.not_mem_empty _ mem
  layers o mem := (Array.not_mem_empty o mem).elim

theorem Reachable.sound (reachable : h.Reachable) : h.Sound := by
  induction reachable with
  | start limits world => exact sound_start limits world
  | run _ valid run ih => exact run.sound ih valid

theorem Reachable.size_pos (reachable : h.Reachable) : 0 < h.scopes.size := by
  induction reachable with
  | start limits world => exact Nat.one_pos
  | run _ _ run ih => exact Nat.lt_of_lt_of_le ih run.size_le

theorem carries_true (h : Heap) : h.Carries fun _ => True :=
  ⟨fun _ _ _ _ => trivial, fun _ _ _ _ => trivial⟩

end Heap

namespace Session

/-- A session after any number of programs and source texts, failed ones
included. -/
inductive Reachable : Session → Prop where
  | start (limits : Limits) (world : World) : Reachable (start limits world)
  | run {session : Session} (before : Reachable session) (p : Program) :
      Reachable (session.run p).2
  | execute {session : Session} (before : Reachable session) (source : String) :
      Reachable (session.execute source).2

/-- The heap is reachable and the outermost scope exists, with nothing around it. -/
structure Ready (session : Session) : Prop where
  reachable : session.heap.Reachable
  rooted : session.heap.place? session.globals = some (none, false)

theorem Ready.valid {session : Session} (ready : session.Ready) :
    session.globals < session.heap.scopes.size := by
  apply Nat.lt_of_not_le
  intro absent
  have rooted := ready.rooted
  rw [Heap.place?_eq_none_iff.mpr absent] at rooted
  cases rooted

/-- The result of a program and the session after it, given how its statements
ended. -/
def finish (session : Session) : Outcome Flow → Except Failure Value × Session
  | .done (.value v) m => (.ok v, { session with machine := m })
  | .done .returned m => (.ok .null, { session with machine := m })
  | .failed f m => (.error (.fault f), { session with machine := m })
  | .crashed c m => (.error (.crashed c), { session with machine := m })
  | .exhausted => (.error .exhausted, session)

theorem run_eq (session : Session) (p : Program) :
    session.run p = session.finish (Action.executeBlock (Action.context session.limits ampleFuel)
      session.globals .null p.body { session.machine with depth := 0 }) := by
  unfold run
  dsimp only
  generalize Action.executeBlock (Action.context session.limits ampleFuel) session.globals .null
    p.body { session.machine with depth := 0 } = o
  cases o with
  | done flow m => cases flow <;> rfl
  | failed _ _ | crashed _ _ | exhausted => rfl

/-- What holds before a program, and at the end of its statements, holds after it. -/
theorem run_all {session : Session} {p : Program} {Q : Machine → Prop} (before : Q session.machine)
    (all : (Action.executeBlock (Action.contextAt session.limits ampleFuel session.limits.depth)
      session.globals .null p.body { session.machine with depth := 0 }).All Q) :
    Q (session.run p).2.machine := by
  have finished : ∀ o : Outcome Flow, o.All Q → Q (session.finish o).2.machine := by
    intro o ended
    cases o with
    | done flow m => cases flow <;> exact ended
    | failed _ _ | crashed _ _ => exact ended
    | exhausted => exact before
  rw [run_eq]
  exact finished _ all

theorem run_globals (session : Session) (p : Program) : (session.run p).2.globals = session.globals := by
  have kept : ∀ o : Outcome Flow, (session.finish o).2.globals = session.globals := by
    intro o
    cases o with
    | done flow m => cases flow <;> rfl
    | failed _ _ | crashed _ _ | exhausted => rfl
  rw [run_eq, kept]

/-- What programs keep, and what does not depend on the report of a failure, source texts
keep. -/
theorem execute_kept {session : Session} {source : String} {Q : Session → Prop} (holds : Q session)
    (ran : ∀ p, parse source = .ok p → Q (session.run p).2)
    (reported : ∀ {after : Session} (e : Event), Q after → Q (after.record e)) :
    Q (session.execute source).2 := by
  unfold execute
  cases parsed : parse source with
  | error e => exact reported _ holds
  | ok p =>
      have after := ran p parsed
      dsimp only
      generalize session.run p = result at after ⊢
      obtain ⟨verdict, session'⟩ := result
      cases verdict with
      | ok v => exact after
      | error failure =>
          cases failure with
          | crashed c => exact after
          | _ => exact reported _ after

/-- A program runs in the outermost scope. -/
theorem run_heap (session : Session) (p : Program) :
    Heap.Run (fun _ => True) (some session.globals) session.heap (session.run p).2.heap ∧
      (session.run p).2.globals = session.globals := by
  have permitted : Permits (fun _ => True) (Stmt.featuresAll p.body) := fun _ _ => trivial
  have leads := Action.executeBlock_leads session.limits ampleFuel session.limits.depth
    session.globals .null permitted { session.machine with depth := 0 } (Heap.carries_true _)
  have run := run_all (Q := fun m => Heap.Run (fun _ => True) (some session.globals) session.heap m.heap)
    .refl (leads.imp fun _ reached => reached.1)
  exact ⟨run, session.run_globals p⟩

/-- So does a source text; one that is no program changes nothing. -/
theorem execute_heap (session : Session) (source : String) :
    Heap.Run (fun _ => True) (some session.globals) session.heap (session.execute source).2.heap ∧
      (session.execute source).2.globals = session.globals :=
  -- What the program came to is only written down, beside the heap.
  execute_kept (Q := fun after => Heap.Run (fun _ => True) (some session.globals) session.heap after.heap ∧
      after.globals = session.globals)
    ⟨.refl, rfl⟩ (fun p _ => session.run_heap p) fun _ kept => kept

theorem Ready.after {session session' : Session} (ready : session.Ready)
    (reached : Heap.Run (fun _ => True) (some session.globals) session.heap session'.heap ∧
      session'.globals = session.globals) : session'.Ready := by
  obtain ⟨run, same⟩ := reached
  refine ⟨ready.reachable.run (Heap.hosts_some ready.valid) run, ?_⟩
  rw [same, run.place?_eq ready.valid]
  exact ready.rooted

theorem Reachable.ready {session : Session} (reachable : session.Reachable) : session.Ready := by
  induction reachable with
  | start limits world => exact ⟨.start limits world, rfl⟩
  | @run session _ p ih => exact ih.after (session.run_heap p)
  | @execute session _ source ih => exact ih.after (session.execute_heap source)

end Session

end Pseudocode

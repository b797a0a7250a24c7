import Pseudocode.Proofs.Sound

/-!
Programs that always come to an end.

Calls are limited in depth and `while` loops in rounds, so what remains are
`do … until` loops and counting loops whose body changes the variable. A
program with neither ends, with a value, a fault, or a crash at one of the bounds
that the machine has (`Crash.Justified`). The argument for calls is that the depth
that is left and the depth that is used add up to the limit. The argument for a
counting loop is a frame: only an assignment to its name can
change the variable of a loop, because the scope of a loop is no layer of an
object and code inside the loop runs in other scopes (`Run.local?_eq`).
-/

namespace Pseudocode

/-! ### Variables that no code assigns to -/

/-- A run leaves a variable alone that no permitted code assigns to, in any scope
but its own that is no layer of an object. -/
theorem Heap.Run.local?_eq {P : Feature → Prop} {own : Option ScopeId} {h h' : Heap}
    (run : Run P own h h') {name : String} (unassigned : ¬ P (.assigns name)) {t : ScopeId}
    (old : t < h.scopes.size) (other : own ≠ some t) (free : ∀ o ∈ h.objects, o.scope ≠ t) :
    h'.local? t name = h.local? t name ∧ ∀ o ∈ h'.objects, o.scope ≠ t := by
  induction run with
  | aside scopes code =>
      refine ⟨by simp only [local?, scope?, scopes], ?_⟩
      rw [code.objects]
      exact free
  | trans first _ ih ih' =>
      obtain ⟨kept, free'⟩ := ih old other free
      obtain ⟨kept', free''⟩ := ih' (Nat.lt_of_lt_of_le old first.size_le) other free'
      exact ⟨kept'.trans kept, free''⟩
  | bind n v =>
      refine ⟨local?_setLocal_of_ne v (.inl ?_), free⟩
      rintro rfl
      exact other rfl
  | assign n v permitted =>
      refine ⟨local?_setLocal_of_ne v (.inr ?_), free⟩
      rintro rfl
      exact unassigned permitted
  | setField v found =>
      refine ⟨local?_setLocal_of_ne v (.inl ?_), free⟩
      exact free _ (layer_of_layerFrom found).1
  | closure decl permitted => exact ⟨rfl, free⟩
  | classCell decl parent permitted found => exact ⟨rfl, free⟩
  | layer base found bound =>
      refine ⟨rfl, ?_⟩
      intro o mem
      rcases Array.mem_push.mp mem with before | rfl
      · exact free o before
      · rintro rfl
        exact other rfl
  | @signal s h v =>
      refine ⟨local?_signalReturn h s v t name, ?_⟩
      rw [(signalReturn_sameCode h s v).objects]
      exact free
  | @take s h => exact ⟨local?_takeReturned h s t name, free⟩
  | @enter own h h' around boundary lives inner ih =>
      have fresh : some h.scopes.size ≠ some t := by
        intro same
        exact Nat.ne_of_gt old (Option.some.inj same)
      have made : (h.newScope { parent := some around, boundary }).2.local? t name
          = h.local? t name := by
        unfold local?
        rw [scope?_newScope, if_neg (Nat.ne_of_lt old)]
      obtain ⟨kept, free'⟩ := ih (by rw [size_newScope]; exact Nat.lt_succ_of_lt old) fresh free
      exact ⟨kept.trans made, free'⟩

/-! ### Crashes -/

/-- When a run under limits may crash: at a range of floats that passes the checks of
`random` but is not proper, at an array that there is no room for, and at a round that
has no number. -/
inductive Crash.Justified (limits : Limits) : Crash → Prop where
  | range {first last : Float} (ordered : ¬ last < first) (apart : (first == last) = false)
      (improper : ¬ (Draw.float first last).Proper) : Justified limits (.range (.float first last))
  | capacity {size : Nat} (beyond : limits.room < size) : Justified limits (.capacity size)
  | counter (greatest : greatestCount ≤ limits.rounds) : Justified limits .counter

theorem Heap.lt_of_oversized? {room size : Nat} {sizes : List Nat}
    (found : oversized? room sizes = some size) : room < size := by
  induction sizes with
  | nil => cases found
  | cons first sizes ih =>
      unfold oversized? at found
      split at found
      · rename_i beyond
        cases found
        exact beyond
      · split at found
        · cases found
        · exact ih found

namespace Action

variable {P : Feature → Prop} {limits : Limits} {fuel left : Nat} {own : Option ScopeId}
  {s : ScopeId} {α β : Type} {m m' : Machine}

/-! ### Actions that come to an end -/

/-- The machine is in order for permitted code inside which `left` more calls can
nest: the limit on depth is met no later than that. -/
structure InOrder (P : Feature → Prop) (limits : Limits) (left : Nat) (own : Option ScopeId)
    (m : Machine) : Prop where
  carries : m.heap.Carries P
  sound : m.heap.Sound
  hosts : m.heap.Hosts own
  depth : limits.depth ≤ left + m.depth

theorem InOrder.after (order : InOrder P limits left own m)
    (reached : Heap.Run P own m.heap m'.heap ∧ m'.depth = m.depth) : InOrder P limits left own m' :=
  ⟨reached.1.carries order.carries, reached.1.sound order.sound order.hosts,
    order.hosts.mono reached.1.size_le, by rw [reached.2]; exact order.depth⟩

/-- A new scope inside an existing one. -/
theorem InOrder.enter (order : InOrder P limits left own m) {around : ScopeId}
    (older : around < m.heap.scopes.size) (boundary : Bool) :
    InOrder P limits left (some m.heap.scopes.size)
      { m with heap := (m.heap.newScope { parent := some around, boundary }).2 } :=
  ⟨⟨order.carries.routines, order.carries.classes⟩, order.sound.newScope older boundary,
    Heap.hosts_some (by simp), order.depth⟩

theorem draw_ended {May : Crash → Prop} {range : Draw} {answer : Generator → List Draw → Option α}
    (may : answer m.world.generator m.world.drawn = none → May (.range range)) :
    (draw range answer m).Ended May := by
  rw [draw_apply]
  cases found : answer m.world.generator m.world.drawn with
  | some a => trivial
  | none => exact may found

/-- Of the built-in part of the language only `random` can crash, and only on ranges of
floats: there is a number in every range of integers that passes its checks. -/
theorem Native.ended {x : Action α} (native : Native x) (m : Machine) :
    (x m).Ended (Crash.Justified limits) := by
  induction native generalizing m with
  | pure a => trivial
  | fail cause => trivial
  | bind _ _ first second => exact bind_ended (first m) fun a m' _ => second a m'
  | ofHeap same => trivial
  | tryOfHeap same => exact tryOfHeap_ended _ m
  | changeHeap patches => trivial
  | tryChangeHeap patches => exact tryChangeHeap_ended _ m
  | changeWorld run => trivial
  | drawInteger ordered =>
      apply draw_ended
      intro none
      have some := (m.world.generator.integer_isSome m.world.drawn _ _).mpr ordered
      rw [none] at some
      cases some
  | drawFloat ordered apart =>
      apply draw_ended
      intro none
      refine .range ordered apart fun proper => ?_
      have some := (m.world.generator.float_isSome m.world.drawn _ _).mpr proper
      rw [none] at some
      cases some

theorem makeArray_ended (sizes : List Nat) (m : Machine) :
    (makeArray limits.room sizes m).Ended (Crash.Justified limits) := by
  unfold makeArray
  cases found : Heap.oversized? limits.room sizes with
  | some size => exact .capacity (Heap.lt_of_oversized? found)
  | none => trivial

theorem refuseRound_ended (span : Span) (m : Machine) :
    (refuseRound limits.rounds span m : Outcome α).Ended (Crash.Justified limits) := by
  unfold refuseRound
  by_cases less : limits.rounds < greatestCount
  · rw [if_pos less]
    trivial
  · rw [if_neg less]
    exact .counter (Nat.not_lt.mp less)

/-- The action leads where runs can, and comes to an end. -/
structure Answers (P : Feature → Prop) (limits : Limits) (left : Nat) (own : Option ScopeId)
    (x : Action α) : Prop where
  leads : Leads P own x
  ends : ∀ m, InOrder P limits left own m → (x m).Ended (Crash.Justified limits)

namespace Answers

theorem of_native {x : Action α} (native : Native x) : Answers P limits left own x :=
  ⟨.of_unscoped (.of_native native), fun m _ => native.ended m⟩

theorem bind {x : Action α} {f : α → Action β} (first : Answers P limits left own x)
    (second : ∀ a, Answers P limits left own (f a)) : Answers P limits left own (x >>= f) := by
  refine ⟨first.leads.bind fun a => (second a).leads, ?_⟩
  intro m order
  refine bind_ended (first.ends m order) ?_
  intro a m' ended
  have reached := first.leads m order.carries
  rw [ended] at reached
  exact (second a).ends m' (order.after reached)

theorem orAt {x : Action α} (span : Span) (answers : Answers P limits left own x) :
    Answers P limits left own (orAt span x) :=
  ⟨answers.leads.orAt span, fun m order => orAt_ended span (answers.ends m order)⟩

theorem enter {f : ScopeId → Action α} (inside : ∀ inner, Answers P limits left (some inner) (f inner)) :
    Answers P limits left (some s) (newBlock s >>= f) := by
  refine ⟨.enter fun inner => (inside inner).leads, ?_⟩
  intro m order
  exact (inside _).ends _ (order.enter (order.hosts s rfl) false)

theorem leaf {x : Action α} (leaf : Leaf limits P s x) : Answers P limits left (some s) x := by
  refine ⟨.leaf leaf, fun m _ => ?_⟩
  cases leaf with
  | pure a => trivial
  | fail cause => trivial
  | failAt span cause => trivial
  | lookup t name => exact tryOfHeap_ended _ m
  | assign name v permitted => trivial
  | assignIndexed name i v => exact tryChangeHeap_ended _ m
  | storeAt container i v => exact (Native.storeAt container i v).ended m
  | storeMember object field v =>
      unfold Action.storeMember
      split
      · exact tryChangeHeap_ended _ m
      · trivial
  | binary op l r => exact tryOfHeap_ended _ m
  | unary op v => exact tryOfHeap_ended _ m
  | member object field =>
      unfold Action.member
      split
      · exact tryOfHeap_ended _ m
      · exact tryOfHeap_ended _ m
      · exact (Native.ofExcept _).ended m
  | index object i => exact (Native.index object i).ended m
  | callNative f args => exact (Native.callNative f args).ended m
  | callMethod method receiver args => exact (Native.callMethod method receiver args).ended m
  | buildObject c => exact tryChangeHeap_ended _ m
  | layer o name => trivial
  | className c => trivial
  | truthy v => trivial
  | valuesEqual u v => trivial
  | declare name v => exact tryChangeHeap_ended _ m
  | makeArray sizes => exact makeArray_ended sizes m
  | refuseRound span => exact refuseRound_ended span m
  | closure decl permitted => trivial
  | declareClass decl permitted =>
      refine bind_ended trivial ?_
      intro found m' _
      cases found with
      | error f => trivial
      | ok parent =>
          refine bind_ended trivial fun v m' _ => ?_
          exact bind_ended (orAt_ended _ (tryChangeHeap_ended _ m')) fun _ _ _ => trivial

end Answers

/-! ### Counting loops -/

/-- The variable of a loop, in the scope of the loop. -/
structure Counter (h : Heap) (loop : ScopeId) (name : String) (current : Int64) : Prop where
  value : h.local? loop name = some (.integer current)
  free : ∀ o ∈ h.objects, o.scope ≠ loop

theorem Counter.lookup {h : Heap} {loop : ScopeId} {name : String} {current : Int64}
    (counter : Counter h loop name current) : h.lookup loop name = .ok (.integer current) :=
  Heap.lookup_of_local? counter.value

theorem Counter.loopVariable {loop : ScopeId} {name : String} {current : Int64}
    (counter : Counter m.heap loop name current) (span : Span) :
    loopVariable loop name span m = .done current m := by
  unfold Action.loopVariable
  rw [bind_apply]
  simp only [Action.lookup, tryOfHeap, counter.lookup]
  rfl

/-- The body of a loop runs in a scope of its own and cannot change the variable. -/
theorem Counter.nested {loop : ScopeId} {name : String} {current : Int64}
    {body : ScopeId → Action Flow} (counter : Counter m.heap loop name current)
    (unassigned : ¬ P (.assigns name)) (order : InOrder P limits left (some loop) m)
    (inside : ∀ inner, Answers P limits left (some inner) (body inner)) :
    (nested loop body m).All fun m' => Counter m'.heap loop name current := by
  have valid := order.hosts loop rfl
  let h₁ := (m.heap.newBlock loop).2
  have reached := (inside m.heap.scopes.size).leads { m with heap := h₁ }
    ⟨order.carries.routines, order.carries.classes⟩
  have made : h₁.local? loop name = m.heap.local? loop name := by
    unfold Heap.local?
    rw [show h₁.scope? loop = _ from Heap.scope?_newScope .., if_neg (Nat.ne_of_lt valid)]
  have other : some m.heap.scopes.size ≠ some loop := by
    intro same
    exact Nat.ne_of_gt valid (Option.some.inj same)
  have older : loop < h₁.scopes.size := by
    rw [show h₁.scopes.size = _ from Heap.size_newScope ..]
    exact Nat.lt_succ_of_lt valid
  have kept : (body m.heap.scopes.size { m with heap := h₁ }).All fun m' =>
      Counter m'.heap loop name current := by
    refine reached.imp ?_
    intro m' ⟨run, _⟩
    obtain ⟨same, free⟩ := run.local?_eq unassigned older other counter.free
    exact ⟨same.trans (made.trans counter.value), free⟩
  rw [nested_apply]
  exact all_bind kept (fun _ counter => counter) fun _ _ counter => counter

theorem Counter.set {loop : ScopeId} {name : String} {current : Int64} {h : Heap}
    (counter : Counter h loop name current) (valid : loop < h.scopes.size) (next : Int64) :
    Counter (h.setLocal loop name (.integer next)) loop name next :=
  ⟨Heap.local?_setLocal_self name _ valid, counter.free⟩

theorem toInt_of_add?_one {n next : Int64} (added : Integer.add? n 1 = some next) :
    next.toInt = n.toInt + 1 :=
  Integer.narrow?_eq_some_iff.mp added

/-- A counting loop ends when its rounds last for the numbers that are left. -/
theorem countLoop_ends {loop : ScopeId} {name : String} {last current : Int64} {span : Span}
    {body : ScopeId → Action Flow} (unassigned : ¬ P (.assigns name))
    (inside : ∀ inner, Answers P limits left (some inner) (body inner))
    (order : InOrder P limits left (some loop) m) (counter : Counter m.heap loop name current)
    (enough : last.toInt - current.toInt + 1 < fuel) (pos : 0 < fuel) :
    (countLoop loop name last span (nested loop body) fuel m).Ended (Crash.Justified limits) := by
  -- Each round takes one from the rounds and one from the numbers that are left.
  induction fuel generalizing m current with
  | zero => cases pos
  | succ fuel ih =>
      unfold countLoop
      refine bind_ended (by rw [counter.loopVariable]; trivial) ?_
      intro now m₁ read
      rw [counter.loopVariable] at read
      cases read
      by_cases more : current.toInt ≤ last.toInt
      · simp only [more, if_true]
        have round : Answers P limits left (some loop) (nested loop body) := by
          refine .enter fun inner => .bind (inside inner) fun flow => ?_
          cases flow with
          | value v => exact .of_native (.pure _)
          | returned => exact .of_native (.pure _)
        refine bind_ended (round.ends m order) ?_
        intro flow m₂ ended
        have reached := round.leads m order.carries
        have counter₂ := counter.nested unassigned order inside
        rw [ended] at reached counter₂
        have order₂ := order.after reached
        cases flow with
        | returned => trivial
        | value v =>
            refine bind_ended (by rw [Counter.loopVariable counter₂]; trivial) ?_
            intro now m₃ read
            rw [Counter.loopVariable counter₂] at read
            cases read
            cases added : Integer.add? current 1 with
            | none => trivial
            | some next =>
                have grown := toInt_of_add?_one added
                refine bind_ended trivial ?_
                intro _ m₄ stored
                cases stored
                refine ih ?_ (counter₂.set (order₂.hosts loop rfl) next) (by omega) (by omega)
                exact order₂.after ⟨.bind name _, rfl⟩
      · simp only [more, if_false]
        trivial

/-- A counting loop ends: there are fewer than `2 ^ 64 + 1` numbers to count. -/
theorem count_ends {name : String} {first last : Int64} {span : Span}
    {body : ScopeId → Action Flow} (unassigned : ¬ P (.assigns name)) (ample : twoPow 64 < fuel)
    (inside : ∀ inner, Answers P limits left (some inner) (body inner))
    (order : InOrder P limits left (some s) m) :
    ((newBlock s >>= fun loop => declare loop name (.integer first) >>= fun _ =>
      countLoop loop name last span (nested loop body) fuel) m).Ended (Crash.Justified limits) := by
  have valid := order.hosts s rfl
  let h₁ := (m.heap.newBlock s).2
  let loop := m.heap.scopes.size
  have order₁ : InOrder P limits left (some loop) { m with heap := h₁ } := order.enter valid false
  have empty : h₁.hasLocal loop name = false := Heap.hasLocal_newScope_self _ name
  have declared : declare loop name (.integer first) { m with heap := h₁ }
      = .done () { m with heap := h₁.setLocal loop name (.integer first) } := by
    simp only [declare, tryChangeHeap_apply, Heap.declare, empty]
    rfl
  have counter : Counter (h₁.setLocal loop name (.integer first)) loop name first := by
    refine ⟨Heap.local?_setLocal_self name _ (order₁.hosts loop rfl), ?_⟩
    intro o mem
    exact Nat.ne_of_lt (order.sound.anchors (.object o mem rfl))
  change ((declare loop name (.integer first) >>= fun _ => _) { m with heap := h₁ }).Ended _
  rw [bind_apply, declared]
  have bounds := Integer.toInt_bounds first
  have bounds' := Integer.toInt_bounds last
  have size : twoPow 64 = 18446744073709551616 := by decide
  simp only [Integer.least, Integer.greatest] at bounds bounds'
  refine countLoop_ends unassigned inside (order₁.after ⟨.bind name _, rfl⟩) counter ?_ ?_ <;> omega

/-! ### Whole programs -/

/-- The discipline of actions that come to an end, for code whose loops are capped
or count variables that it never assigns to. -/
def answering (capped : ¬ P .repeats) (apart : ∀ name, P (.counts name) → ¬ P (.assigns name))
    (limits : Limits) (left : Nat) (ample : twoPow 64 < fuel) : Discipline limits P fuel where
  rel s _ x y := x = y ∧ Answers P limits left (some s) x
  leaf h := ⟨rfl, .leaf h⟩
  bind := by
    rintro s α β x _ f g ⟨rfl, first⟩ second
    obtain rfl : f = g := funext fun a => (second a).1
    exact ⟨rfl, first.bind fun a => (second a).2⟩
  orAt := by
    rintro s α x _ span ⟨rfl, answers⟩
    exact ⟨rfl, answers.orAt span⟩
  enter inside := ⟨rfl, .enter fun inner => (inside inner).2⟩
  signal v := ⟨rfl, .tryChangeHeap fun _ _ => .signal v, fun m _ => tryChangeHeap_ended _ m⟩
  terminated := ⟨rfl, .ofHeap _, fun _ _ => trivial⟩
  count := by
    intro s name first last span body counts inside
    have related : ∀ inner, (leading limits P fuel).rel inner (body inner) (body inner) := fun inner =>
      ⟨rfl, (inside inner).2.leads⟩
    refine ⟨rfl, ((leading limits P fuel).count counts related).2, ?_⟩
    exact fun m order => count_ends (apart name counts) ample (fun inner => (inside inner).2) order
  untilLoop repeats := absurd repeats capped

theorem bindParameters_answers (names : List String) (vs : List Value) :
    Answers P limits left (some s) (bindParameters s names vs) := by
  induction names generalizing vs with
  | nil => exact .of_native (.pure _)
  | cons name names ih =>
      cases vs with
      | nil => exact .of_native (.pure _)
      | cons v vs => exact .bind (.leaf (.declare name v)) fun _ => ih vs

/-- One call deeper, one call less is left to nest. -/
theorem deeper_answers {x : Action α} (answers : Answers P limits left own x) :
    Answers P limits (left + 1) own (deeper x) := by
  refine ⟨deeper_leads answers.leads, ?_⟩
  intro m order
  have enough : limits.depth ≤ left + (m.depth + 1) := by
    have := order.depth
    omega
  have ends := answers.ends { m with depth := m.depth + 1 }
    ⟨order.carries, order.sound, order.hosts, enough⟩
  rw [deeper_apply]
  cases ran : x { m with depth := m.depth + 1 } with
  | done _ _ | failed _ _ => trivial
  | crashed _ _ | exhausted =>
      rw [ran] at ends
      exact ends

/-- A call comes to an end: either the limit on depth is met, or the body has one
call less to nest. -/
theorem callRoutine_answers (capped : ¬ P .repeats)
    (apart : ∀ name, P (.counts name) → ¬ P (.assigns name)) (limits : Limits)
    (ample : twoPow 64 < fuel) (left : Nat) (id : RoutineId) (args : List Value) (span : Span) :
    Answers P limits left own (callRoutine limits fuel left id args span) := by
  refine ⟨callRoutine_leads limits fuel left id args span, ?_⟩
  induction left generalizing own id args span with
  | zero =>
      intro m order
      unfold callRoutine
      rw [invoke_eq]
      have met : limits.depth ≤ m.depth := by simpa using order.depth
      split
      · trivial
      · split
        · trivial
        · trivial
  | succ left ih =>
      intro m order
      unfold callRoutine
      rw [invoke_eq]
      split
      · trivial
      · rename_i decl scope found
        have mem := Array.mem_of_getElem? found
        split
        · trivial
        · split
          · trivial
          · let ctx := contextAt limits fuel left
            let D : Discipline ctx.limits P ctx.fuel := answering capped apart limits left ample
            have calls : D.Calls ctx ctx := fun _ id args span =>
              ⟨rfl, callRoutine_leads limits fuel left id args span, ih id args span⟩
            have permitted : Permits P (Stmt.featuresAll decl.body) :=
              (permits_routine.mp (order.carries.routines _ mem)).2
            have body := (Discipline.executeBlock calls m.heap.scopes.size .null decl.body permitted).2
            have order₁ := order.enter (order.sound.anchors (.routine _ mem rfl)) true
            have inside : Answers P limits (left + 1) (some m.heap.scopes.size)
                (callBody decl args (fun decl s => executeBlock ctx s .null decl.body)
                  m.heap.scopes.size) := by
              refine .bind (bindParameters_answers decl.params args) fun _ => ?_
              refine .bind (deeper_answers body) fun _ => ?_
              refine .bind ⟨.changeHeap fun _ _ => .take, fun _ _ => trivial⟩ fun v => ?_
              cases decl.kind with
              | function => exact .of_native (.pure _)
              | procedure => exact .of_native (.pure _)
            exact inside.ends _ order₁

theorem executeBlock_answers (capped : ¬ P .repeats)
    (apart : ∀ name, P (.counts name) → ¬ P (.assigns name)) (limits : Limits)
    (ample : twoPow 64 < fuel) (left : Nat) (s : ScopeId) (last : Value) {block : List Stmt}
    (permitted : Permits P (Stmt.featuresAll block)) :
    Answers P limits left (some s) (executeBlock (contextAt limits fuel left) s last block) := by
  let ctx := contextAt limits fuel left
  let D : Discipline ctx.limits P ctx.fuel := answering capped apart limits left ample
  have calls : D.Calls ctx ctx := fun _ id args span =>
    ⟨rfl, callRoutine_answers capped apart limits ample left id args span⟩
  exact (Discipline.executeBlock calls s last block permitted).2

end Action

namespace Session

/-- Code without uncapped loops, whose counting loops count the given variables
and which assigns to none of them. -/
def Bounded (counted : String → Prop) : Feature → Prop
  | .assigns name => ¬ counted name
  | .counts name => counted name
  | .repeats => False
  | .flaw => True

/-- A program without `do … until` loops that assigns to no variable of its
counting loops comes to an end in every new session and under any limits: with a value,
with a fault, or with a crash at a bound of the machine. More than `2 ^ 64` rounds are
enough for its counting loops. The walks through scopes that it makes on the way end by
themselves, whatever bound they are given. -/
theorem run_ends (limits : Limits) (world : World) (p : Program) (capped : .repeats ∉ p.features)
    (apart : ∀ name, .assigns name ∈ p.features → .counts name ∉ p.features) :
    ((∃ v, ((start limits world).run p).1 = .ok v) ∨
      (∃ f, ((start limits world).run p).1 = .error (.fault f)) ∨
      ∃ c, ((start limits world).run p).1 = .error (.crashed c) ∧ c.Justified limits) ∧
    (∀ fuel, twoPow 64 < fuel →
      (Action.executeBlock (Action.context limits fuel) (start limits world).globals .null p.body
        (start limits world).machine).Ended (Crash.Justified limits)) ∧
    ∀ h : Heap, h.Reachable → ∀ (s steps : Nat) (name : String), s < steps →
      h.lookupFrom name steps s = h.lookup? s name ∧
      h.resolveFrom name steps s = h.resolve? s name ∧
      h.boundaryFrom steps s = h.boundaryFrom (s + 1) s := by
  let P := Bounded fun name => Feature.counts name ∈ p.features
  have permitted : Permits P p.features := by
    intro f mem
    cases f with
    | assigns name => exact apart name mem
    | counts name => exact mem
    | repeats => exact capped mem
    | flaw => trivial
  have ends : ∀ fuel, twoPow 64 < fuel →
      (Action.executeBlock (Action.context limits fuel) (start limits world).globals .null p.body
        (start limits world).machine).Ended (Crash.Justified limits) := by
    intro fuel ample
    have answers := Action.executeBlock_answers (P := P) id (fun _ counts assigns => assigns counts)
      limits ample limits.depth (start limits world).globals .null permitted
    refine answers.ends (start limits world).machine ⟨⟨?_, ?_⟩, ?_, ?_, ?_⟩
    · exact fun r mem => (Array.not_mem_empty r mem).elim
    · exact fun c mem => (Array.not_mem_empty c mem).elim
    · exact Heap.sound_start limits world
    · exact Heap.hosts_some Nat.one_pos
    · exact Nat.le_refl _
  refine ⟨?_, ends, ?_⟩
  · have ended := ends ampleFuel (by decide)
    rw [run_eq]
    cases ran : Action.executeBlock (Action.context limits ampleFuel) (start limits world).globals
        .null p.body (start limits world).machine with
    | done flow m =>
        left
        cases flow with
        | value v => exact ⟨v, congrArg (fun o => ((start limits world).finish o).1) ran⟩
        | returned => exact ⟨.null, congrArg (fun o => ((start limits world).finish o).1) ran⟩
    | failed f m => exact .inr (.inl ⟨f, congrArg (fun o => ((start limits world).finish o).1) ran⟩)
    | crashed c m =>
        rw [ran] at ended
        exact .inr (.inr ⟨c, congrArg (fun o => ((start limits world).finish o).1) ran, ended⟩)
    | exhausted =>
        rw [ran] at ended
        exact ended.elim
  · intro h reachable s steps name enough
    have sound := reachable.sound
    exact ⟨sound.lookupFrom_eq name enough, sound.resolveFrom_eq name enough,
      sound.boundaryFrom_eq enough⟩

/-- A routine that calls itself in every round of a loop. -/
def callingItself : Program :=
  ⟨[.routine ⟨.function, "f", ["x"],
      [.count .unplaced "i" (.integer .unplaced 1) (.identifier .unplaced "x")
        [.expression (.assign .unplaced (.identifier .unplaced "y")
          (.call .unplaced (.identifier .unplaced "f") [.identifier .unplaced "x"]))]], .unplaced⟩,
    .expression (.call .unplaced (.identifier .unplaced "f") [.integer .unplaced 3])]⟩

/-- Draws from a range whose bounds are no numbers. -/
def drawingNoNumber : String :=
  "let a = 10000000000000000.0\nlet b = a * a * a * a\nlet c = b * b * b * b * b\nrandom(c - c, 1.0)"

/-- The run came to a crash. -/
def hasCrashed : Except Failure Value → Bool
  | .error (.crashed _) => true
  | _ => false

theorem exists_of_hasCrashed {result : Except Failure Value} (crashed : hasCrashed result = true) :
    ∃ c, result = .error (.crashed c) := by
  cases result with
  | ok => cases crashed
  | error failure =>
      cases failure with
      | crashed c => exact ⟨c, rfl⟩
      | notAProgram | fault | exhausted => cases crashed

/-- A program without loops that comes to neither a value nor a fault. -/
theorem run_drawingNoNumber_crashes :
    ∃ p c, parse drawingNoNumber = .ok p ∧ p.features = [] ∧
      ((start {} {}).run p).1 = .error (.crashed c) := by
  have crashes : ((parse drawingNoNumber).toOption.any fun p =>
      p.features.isEmpty && hasCrashed ((start {} {}).run p).1) = true := by
    decide +kernel
  cases parsed : parse drawingNoNumber with
  | error problem =>
      rw [parsed] at crashes
      cases crashes
  | ok p =>
      rw [parsed] at crashes
      obtain ⟨none, crashed⟩ := Bool.and_eq_true_iff.mp crashes
      obtain ⟨c, ran⟩ := exists_of_hasCrashed crashed
      exact ⟨p, c, rfl, List.isEmpty_iff.mp none, ran⟩

/-- Two rounds of a loop, and five calls inside one another. -/
def narrow : Limits := { rounds := 2, depth := 5 }

theorem run_callingItself_ends :
    callingItself.features = [.counts "i", .assigns "y"] ∧
      ((∃ v, ((start narrow {}).run callingItself).1 = .ok v) ∨
        (∃ f, ((start narrow {}).run callingItself).1 = .error (.fault f)) ∨
        ∃ c, ((start narrow {}).run callingItself).1 = .error (.crashed c) ∧ c.Justified narrow) := by
  have features : callingItself.features = [.counts "i", .assigns "y"] := by decide
  refine ⟨features, (run_ends narrow {} callingItself ?_ ?_).1⟩
  · rw [features]
    decide
  · intro name assigned
    rw [features] at assigned ⊢
    simp only [List.mem_cons, Feature.assigns.injEq, reduceCtorEq, List.not_mem_nil, or_false,
      false_or] at assigned
    subst assigned
    decide

end Session

end Pseudocode

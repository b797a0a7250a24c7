import Pseudocode.Proofs.Classes.Building
import Pseudocode.Proofs.Classes.Moments
import Pseudocode.Proofs.Constructors

/-!
New objects.

To instantiate a class its layers are built, and then the constructor of the nearest class
that declares one is called (`Constructor`, `construct`). At every moment of a session all
classes can be instantiated in this way, unless a member of one is called like the layer
above it (`instances_layer_by_layer`).
-/

namespace Pseudocode

namespace Heap

/-! ### The nearest constructor -/

/-- The routine that the nearest layer whose class declares a constructor binds to its name,
if a class declares one. The routine is closed over this layer. -/
inductive Constructor (h : Heap) : List ClassId → List (ObjectId × ScopeId) → Option RoutineId → Prop where
  | here {c : ClassId} {cs : List ClassId} {cell : ClassCell} {o : ObjectId} {s : ScopeId}
      {ls : List (ObjectId × ScopeId)} {visibility : Visibility} {span : Span} {decl : RoutineDecl}
      {id : RoutineId} {v : Value} (found : h.classes[c]? = some cell)
      (declares : Member.method visibility span decl ∈ cell.decl.members) (named : decl.name = constructorName)
      (bound : h.local? s constructorName = some v) (routine : v.IsRoutine id)
      (closed : h.routines[id]? = some ⟨decl, s⟩) : Constructor h (c :: cs) ((o, s) :: ls) (some id)
  | above {c : ClassId} {cs : List ClassId} {l : ObjectId × ScopeId} {ls : List (ObjectId × ScopeId)}
      {id? : Option RoutineId} (silent : ¬ h.Names c constructorName) (rest : Constructor h cs ls id?) :
      Constructor h (c :: cs) (l :: ls) id?
  | missing : Constructor h [] [] none

variable {h h' : Heap} {c : ClassId} {cs : List ClassId} {cell : ClassCell} {around s : ScopeId}
  {base : Option ObjectId} {o : ObjectId} {ls : List (ObjectId × ScopeId)} {members : List Member} {m : Member}
  {bindings : Bindings Value} {name : String} {id? : Option RoutineId} {steps : Nat}

theorem MemberBound.called {b : String × Value} (bound : h.MemberBound s m b) : b.1 = m.name := by
  cases bound <;> rfl

/-- What members are bound to is found under their names. -/
theorem lookup_of_membersBound (bound : List.Forall₂ (h.MemberBound s) members bindings)
    (distinct : (members.map Member.name).Nodup) (mem : m ∈ members) :
    ∃ v, bindings.lookup m.name = some v ∧ h.MemberBound s m (m.name, v) := by
  induction bound with
  | nil => cases mem
  | @cons first b members bindings here _ ih =>
      obtain ⟨other, distinct⟩ := List.nodup_cons.mp distinct
      obtain ⟨name, v⟩ := b
      have same : name = first.name := here.called
      subst same
      rcases List.mem_cons.mp mem with rfl | later
      · exact ⟨v, List.lookup_cons_self, here⟩
      · have ne : m.name ≠ first.name := by
          intro same
          rw [← same] at other
          exact other (List.mem_map_of_mem later)
        obtain ⟨w, found, bound⟩ := ih distinct later
        refine ⟨w, ?_, bound⟩
        rw [List.lookup_cons, beq_false_of_ne ne]
        exact found

/-- A layer whose class declares a constructor binds its name to a routine. -/
theorem Layer.constructor (layer : h.Layer c cell around base o s) (proper : cell.decl.Proper)
    (names : h.Names c constructorName) :
    ∃ id, h.Constructor (c :: cs) ((o, s) :: ls) (some id) := by
  obtain ⟨m, mem, named⟩ := (names_iff layer.found).mp names
  obtain ⟨bindings, scope, members⟩ := layer.binds
  obtain ⟨v, found, bound⟩ := lookup_of_membersBound members proper.distinct mem
  have here : h.local? s constructorName = some v := by
    rw [local?, scope, ← named]
    have differs : (m.name == superName) = false := by
      rw [named]
      rfl
    cases base with
    | none => exact found
    | some b =>
        change List.lookup m.name ((superName, .object b) :: bindings) = some v
        rw [List.lookup_cons, differs]
        exact found
  cases bound with
  | field visibility span name => exact absurd named (proper.fields _ mem rfl)
  | function visibility span _ closed => exact ⟨_, .here layer.found mem named here .function closed⟩
  | procedure visibility span _ closed => exact ⟨_, .here layer.found mem named here .procedure closed⟩

theorem Layer.exists_constructor (layer : h.Layer c cell around base o s) (orderly : h.Orderly)
    (rest : h.Constructor cs ls id?) : ∃ id?, h.Constructor (c :: cs) ((o, s) :: ls) id? := by
  by_cases names : h.Names c constructorName
  · obtain ⟨id, here⟩ := layer.constructor (orderly.classes _ (Array.mem_of_getElem? layer.found)) names
    exact ⟨some id, here⟩
  · exact ⟨id?, .above names rest⟩

theorem Built.exists_constructor (built : h.Built cs ls) (orderly : h.Orderly) :
    ∃ id?, h.Constructor cs ls id? := by
  induction built with
  | oldest layer => exact layer.exists_constructor orderly .missing
  | upon layer _ ih =>
      obtain ⟨id?, rest⟩ := ih
      exact layer.exists_constructor orderly rest

/-! ### The search for it -/

/-- What the search for the constructor finds stands for the routine, or for none. -/
inductive StandsFor (h : Heap) : Option (Object × Member) → Option RoutineId → Prop where
  | routine {layer : Object} {m : Member} {v : Value} {id : RoutineId}
      (bound : h.local? layer.scope constructorName = some v) (routine : v.IsRoutine id) :
      StandsFor h (some (layer, m)) (some id)
  | missing : StandsFor h none none

theorem Layer.layerFrom_here (layer : h.Layer c cell around base o s) (names : h.Names c name) (steps : Nat) :
    ∃ m, h.layerFrom name (steps + 1) o = some (⟨c, s, base⟩, m) := by
  cases declared : h.ownMember? ⟨c, s, base⟩ name with
  | none =>
      obtain ⟨cell', found, m, mem, named⟩ := names
      exact absurd named (ownMember?_eq_none_iff.mp declared m ⟨cell', found, mem⟩)
  | some m => exact ⟨m, by simp only [layerFrom, layer.object, declared]⟩

theorem Layer.layerFrom_above (layer : h.Layer c cell around base o s) (silent : ¬ h.Names c name)
    (steps : Nat) : h.layerFrom name (steps + 1) o = base.bind (h.layerFrom name steps) := by
  have absent : h.ownMember? ⟨c, s, base⟩ name = none := by
    rw [ownMember?_eq_none_iff]
    rintro m ⟨cell', found, mem⟩ named
    exact silent ⟨cell', found, m, mem, named⟩
  simp only [layerFrom, layer.object, absent]
  cases base <;> rfl

theorem Built.first (built : h.Built (c :: cs) ((o, s) :: ls)) :
    ∃ cell around base, h.Layer c cell around base o s := by
  cases built with
  | oldest layer => exact ⟨_, _, _, layer⟩
  | upon layer _ => exact ⟨_, _, _, layer⟩

/-- The search comes to the nearest constructor: bases are older, so it has steps enough. -/
theorem Constructor.standsFor (constructor : h.Constructor cs ls id?) (built : h.Built cs ls)
    (order : ls.Pairwise fun l l' => l'.1 < l.1 ∧ l'.2 < l.2) :
    ∀ l ∈ ls.head?, ∀ steps, l.1 < steps → h.StandsFor (h.layerFrom constructorName steps l.1) id? := by
  induction constructor with
  | here found declares named bound routine closed =>
      rintro _ ⟨⟩ steps enough
      obtain ⟨steps, rfl⟩ := Nat.exists_eq_add_one_of_ne_zero (Nat.ne_zero_of_lt enough)
      obtain ⟨cell, around, base, layer⟩ := built.first
      obtain ⟨m, here⟩ := layer.layerFrom_here ⟨_, found, _, declares, named⟩ steps
      rw [here]
      exact .routine bound routine
  | above silent rest ih =>
      rintro _ ⟨⟩ steps enough
      obtain ⟨steps, rfl⟩ := Nat.exists_eq_add_one_of_ne_zero (Nat.ne_zero_of_lt enough)
      cases built with
      | oldest layer =>
          cases rest
          rw [layer.layerFrom_above silent]
          exact .missing
      | upon layer above =>
          obtain ⟨older, order⟩ := List.pairwise_cons.mp order
          have below := (List.forall_mem_cons.mp older).1.1
          rw [layer.layerFrom_above silent]
          exact ih above order _ rfl steps (Nat.lt_of_lt_of_le below (Nat.le_of_lt_succ enough))
  | missing => exact fun _ mem => nomatch mem

end Heap

namespace Action

/-- What is left to do when the layers of an object are there: the constructor is called, and
without one there must not be arguments. -/
def construct (ctx : Context) (className : String) (id? : Option RoutineId) (o : ObjectId) (args : List Value)
    (span : Span) : Action Value :=
  match id? with
  | some id => do
      let _ ← ctx.call id args span
      return .object o
  | none =>
      if args.isEmpty then return .object o
      else failAt span (.arity className 0 args.length)

variable {c : ClassId} {m : Machine} {h' : Heap} {o : ObjectId} {id? : Option RoutineId}

theorem instantiate_of_ok (built : m.heap.buildObject c = (.ok o, h'))
    (stands : h'.StandsFor (h'.layer? o Heap.constructorName) id?) (ctx : Context) (args : List Value)
    (span : Span) :
    instantiate ctx c args span m = construct ctx (h'.className c) id? o args span { m with heap := h' } := by
  have made : orAt span (tryChangeHeap fun h => h.buildObject c) m = .done o { m with heap := h' } := by
    rw [orAt, tryChangeHeap_apply, built]
  unfold instantiate
  rw [bind_apply, made]
  simp only [bind_apply, ofHeap]
  generalize h'.layer? o Heap.constructorName = answer at stands
  cases stands with
  | @routine layer member v id bound routine =>
      have found : lookup layer.scope Heap.constructorName { m with heap := h' } =
          .done v { m with heap := h' } := by
        rw [lookup, tryOfHeap, Heap.lookup_of_local? bound]
      simp only [bind_apply, found]
      cases routine <;> rfl
  | missing =>
      cases args <;> rfl

theorem instantiate_of_error {cause : Cause} (failed : m.heap.buildObject c = (.error cause, h'))
    (ctx : Context) (args : List Value) (span : Span) :
    instantiate ctx c args span m = .failed ⟨cause, span⟩ { m with heap := h' } := by
  have stuck : orAt span (tryChangeHeap fun h => h.buildObject c) m = .failed ⟨cause, span⟩ { m with heap := h' } := by
    rw [orAt, tryChangeHeap_apply, failed]
    rfl
  unfold instantiate
  rw [bind_apply, stuck]

/-- Once the layers are built, the nearest constructor is called. -/
theorem instantiate_of_builds {cs : List ClassId} {ls : List (ObjectId × ScopeId)}
    (builds : m.heap.Builds c cs o ls h') (constructor : h'.Constructor cs ls id?) (ctx : Context)
    (args : List Value) (span : Span) :
    instantiate ctx c args span m = construct ctx (m.heap.className c) id? o args span { m with heap := h' } := by
  obtain ⟨l, first, own⟩ := Option.map_eq_some_iff.mp builds.own
  have stands := constructor.standsFor builds.layers builds.unshared.order l first (o + 1)
  rw [own] at stands
  have same : h'.className c = m.heap.className c := by
    unfold Heap.className
    rw [builds.grows.classes]
  rw [instantiate_of_ok builds.result (stands (Nat.lt_succ_self o)), same]

end Action

namespace Session

variable {limits : Limits} {world : World} {earlier : List String} {source : String} {c : ClassId} {m : Machine}

/-- Objects are built layer by layer. Whenever a session that is given source texts has a class
value, the class has a lineage, up to a class that inherits from none. An object of it cannot
be built exactly when a class of the lineage that has a parent declares a member under the name
by which its layer knows the one above. Else new layers are built, one for each class of the
lineage, and no object that is built at another time has one of them. Then the constructor of
the nearest class that declares one is called, once and with the given arguments; without a
constructor there must be no arguments. -/
theorem instances_layer_by_layer (has : ((start limits world).feed earlier).HasClass source c m) :
    ∃ cs, m.heap.Lineage c cs ∧
      (m.heap.Shadows cs → ∃ h', m.heap.buildObject c = (.error (.redeclaration Heap.superName), h') ∧
        ∀ ctx args span, Action.instantiate ctx c args span m =
          .failed ⟨.redeclaration Heap.superName, span⟩ { m with heap := h' }) ∧
      (¬ m.heap.Shadows cs → ∃ o ls h' id?, m.heap.Builds c cs o ls h' ∧ h'.Constructor cs ls id? ∧
        (∀ ctx args span, Action.instantiate ctx c args span m =
          Action.construct ctx (m.heap.className c) id? o args span { m with heap := h' }) ∧
        ∀ later c₂ cs₂ o₂ ls₂ after, Heap.Builds later c₂ cs₂ o₂ ls₂ after →
          h'.objects.size ≤ later.objects.size → h'.scopes.size ≤ later.scopes.size → Heap.Apart ls ls₂) := by
  obtain ⟨orderly, valid⟩ := has.known (feed_orderly limits world earlier)
  obtain ⟨cs, lineage⟩ := orderly.exists_lineage c valid
  refine ⟨cs, lineage, ?_, ?_⟩
  · intro shadows
    obtain ⟨h', failed, -⟩ := Heap.buildFrom_error orderly lineage shadows (Nat.lt_succ_self c)
    exact ⟨h', failed, Action.instantiate_of_error failed⟩
  · intro clear
    obtain ⟨o, ls, h', builds⟩ := orderly.exists_builds lineage clear
    have orderly' : h'.Orderly := by
      have kept := orderly.buildFrom (c + 1) c
      change (m.heap.buildObject c).2.Orderly at kept
      rwa [builds.result] at kept
    obtain ⟨id?, constructor⟩ := builds.layers.exists_constructor orderly'
    refine ⟨o, ls, h', id?, builds, constructor, Action.instantiate_of_builds builds constructor, ?_⟩
    intro later c₂ cs₂ o₂ ls₂ after second
    exact builds.apart second

/-- The class that a value is. -/
def classOf? : Value → Option ClassId
  | .classRef c => some c
  | _ => none

/-- A class that a scope binds a name to when a text has come to its end. -/
theorem hasClass_of_local? (session : Session) {name : String} {s : ScopeId}
    (ended : (session.execute source).1.toBool = true)
    (bound : ((session.execute source).2.machine.heap.local? s name).bind classOf? = some c) :
    session.HasClass source c (session.execute source).2.machine := by
  obtain ⟨v, found, named⟩ := Option.bind_eq_some_iff.mp bound
  cases v with
  | classRef c' =>
      cases named
      exact .held (visits_end ended) (.bound found)
  | _ => cases named

/-- A text with the class `Pet`, which has a constructor. -/
def petText : String := "class Pet\n public name\n public procedure new(n)\n  name = n\n endprocedure\nendclass"

/-- A text with a class that inherits from it. -/
def dogText : String := "class Dog inherits Pet\n private breed\nendclass"

/-- A session that knows the class `Pet`. -/
def petShop : Session := (start {} {}).feed [petText]

/-- When the second text has come to its end, a new `Dog` is object 1, over the layer that its
parent class has. -/
theorem instances_layer_by_layer_dog :
    ∃ cs ls h' id?, (petShop.execute dogText).2.machine.heap.Lineage 1 cs ∧
      (petShop.execute dogText).2.machine.heap.Builds 1 cs 1 ls h' ∧ h'.Constructor cs ls id? ∧
      ∀ ctx args span, Action.instantiate ctx 1 args span (petShop.execute dogText).2.machine =
        Action.construct ctx "Dog" id? 1 args span { (petShop.execute dogText).2.machine with heap := h' } := by
  obtain ⟨ended, bound, result, called⟩ : (petShop.execute dogText).1.toBool = true ∧
      ((petShop.execute dogText).2.machine.heap.local? 0 "Dog").bind classOf? = some 1 ∧
      ((petShop.execute dogText).2.machine.heap.buildObject 1).1.toOption = some 1 ∧
      (petShop.execute dogText).2.machine.heap.className 1 = "Dog" := by
    decide +kernel
  obtain ⟨cs, lineage, fails, builds⟩ :=
    @instances_layer_by_layer {} {} [petText] dogText 1 _ (hasClass_of_local? petShop ended bound)
  -- From here on the machine is any machine of which these facts hold.
  generalize (petShop.execute dogText).2.machine = m at result called lineage fails builds ⊢
  have clear : ¬ m.heap.Shadows cs := by
    intro shadows
    obtain ⟨h', failed, -⟩ := fails shadows
    rw [failed] at result
    cases result
  obtain ⟨o, ls, h', id?, made, constructor, runs, -⟩ := builds clear
  have own : o = 1 := by
    have answer := made.result
    rw [answer] at result
    exact Option.some.inj result
  subst own
  rw [← called]
  exact ⟨cs, ls, h', id?, lineage, made, constructor, runs⟩

end Session

end Pseudocode

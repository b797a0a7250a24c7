import Pseudocode.Proofs.Marks

/-!
Evaluation does not look at marks.

`Veiled f` says of a change of the heap that it does the same on the plain heap,
which has no marks, and leaves the marks of older scopes alone. `Veils s x y`
says that the action `y` does on plain machines what `x` does in scope `s`,
which in turn changes no marks of older scopes. All steps that expressions are
made of have this property with themselves (`Veils.leaf`), so evaluation has it
as far as calls do (`veiling`).
-/

namespace Pseudocode

/-- The machine without the marks of its scopes. -/
def Machine.plain (m : Machine) : Machine := { m with heap := m.heap.plain }

namespace Heap

variable {α : Type} {h h' : Heap}

/-! ### Reading -/

theorem parent?_plain (h : Heap) (s : ScopeId) : h.plain.parent? s = h.parent? s := by
  unfold parent?
  rw [scope?_plain]
  cases h.scope? s <;> rfl

theorem lookupFrom_plain (h : Heap) (name : String) (steps : Nat) (s : ScopeId) :
    h.plain.lookupFrom name steps s = h.lookupFrom name steps s :=
  lookupFrom_congr (fun s => h.local?_plain s name) h.parent?_plain steps s

theorem lookup_plain (h : Heap) (s : ScopeId) (name : String) :
    h.plain.lookup s name = h.lookup s name := by
  simp only [lookup, lookup?, lookupFrom_plain]

theorem hasLocal_plain (h : Heap) (s : ScopeId) (name : String) :
    h.plain.hasLocal s name = h.hasLocal s name := by
  simp only [hasLocal, local?_plain]

theorem resolveFrom_plain (h : Heap) (name : String) (steps : Nat) (s : ScopeId) :
    h.plain.resolveFrom name steps s = h.resolveFrom name steps s :=
  resolveFrom_congr (fun s => h.hasLocal_plain s name) h.parent?_plain steps s

theorem layer?_plain (h : Heap) (o : ObjectId) (name : String) :
    h.plain.layer? o name = h.layer? o name :=
  h.layerFrom_withScopes _ name (o + 1) o

/-! ### Changing -/

/-- A change that neither depends on marks nor touches them. -/
structure Veiled (f : Heap → α × Heap) : Prop where
  commutes : ∀ h : Heap, f h.plain = ((f h).1, (f h).2.plain)
  alike : ∀ h : Heap, h.Alike (f h).2

theorem plain_setLocal (h : Heap) (t : ScopeId) (name : String) (v : Value) :
    (h.setLocal t name v).plain = h.plain.setLocal t name v := by
  unfold plain setLocal modifyScope
  congr 1
  apply Array.ext_getElem?
  intro i
  rw [Array.getElem?_map, Array.getElem?_modify, Array.getElem?_modify, Array.getElem?_map]
  split
  · cases h.scopes[i]? <;> rfl
  · rfl

theorem plain_newScope (h : Heap) (scope : Scope) :
    (h.newScope scope).2.plain = (h.plain.newScope scope.plain).2 := by
  unfold plain newScope
  simp only [Array.map_push]

theorem veiled_setLocal (t : ScopeId) (name : String) (v : Value) :
    Veiled fun h => ((), h.setLocal t name v) :=
  ⟨fun h => congrArg _ (h.plain_setLocal t name v).symm, fun h => h.alike_setLocal t name v⟩

theorem veiled_declare (s : ScopeId) (name : String) (v : Value) :
    Veiled fun h => h.declare s name v := by
  constructor
  · intro h
    simp only [declare, hasLocal_plain]
    split
    · rfl
    · exact congrArg _ (h.plain_setLocal s name v).symm
  · intro h
    simp only [declare]
    split
    · exact .refl
    · exact h.alike_setLocal s name v

theorem veiled_assign (s : ScopeId) (name : String) (v : Value) :
    Veiled fun h => ((), h.assign s name v) := by
  constructor
  · intro h
    simp only [assign, resolve?, resolveFrom_plain, plain_setLocal]
  · intro h
    exact h.alike_setLocal _ name v

theorem veiled_assignIndexed (s : ScopeId) (name : String) (i : Int64) (v : Value) :
    Veiled fun h => h.assignIndexed s name i v := by
  have store : ∀ a, Action.Unscoped.Blind fun h => h.storeElement a i v := fun a =>
    storeElement_blind a i v
  constructor
  · intro h
    simp only [assignIndexed, lookup_plain]
    split
    · rename_i a _
      have kept : (h.storeElement a i v).2.scopes = h.scopes :=
        congrArg (fun r => r.2.scopes) ((store a).commutes h h.scopes)
      have commutes := (store a).commutes h (h.scopes.map Scope.plain)
      refine commutes.trans ?_
      unfold plain withScopes
      rw [kept]
    · rfl
    · rfl
  · intro h
    simp only [assignIndexed]
    split
    · rename_i a _
      exact alike_of_scopes_eq (congrArg (fun r => r.2.scopes) ((store a).commutes h h.scopes))
    · exact .refl
    · exact .refl

theorem veiled_closure (decl : RoutineDecl) (s : ScopeId) : Veiled fun h => h.closure decl s :=
  ⟨fun _ => rfl, fun _ => alike_of_scopes_eq rfl⟩

theorem veiled_setMember (o : ObjectId) (name : String) (v : Value) :
    Veiled fun h => h.setMember o name v := by
  constructor
  · intro h
    simp only [setMember, layer?_plain]
    split
    · rfl
    · rename_i layer m _
      cases m.visibility with
      | within => rfl
      | everywhere =>
          dsimp only
          split
          · rfl
          · exact congrArg _ (h.plain_setLocal layer.scope name v).symm
  · intro h
    simp only [setMember]
    split
    · exact .refl
    · split
      · exact .refl
      · split
        · exact .refl
        · exact h.alike_setLocal _ name v

/-! ### Building objects -/

/-- One change after another, as long as they succeed. -/
def andThen {β : Type} (f : Heap → Except Cause α × Heap) (g : α → Heap → Except Cause β × Heap)
    (h : Heap) : Except Cause β × Heap :=
  match (f h).1 with
  | .error cause => (.error cause, (f h).2)
  | .ok a => g a (f h).2

theorem Veiled.andThen {β : Type} {f : Heap → Except Cause α × Heap}
    {g : α → Heap → Except Cause β × Heap} (first : Veiled f) (second : ∀ a, Veiled (g a)) :
    Veiled (andThen f g) := by
  constructor
  · intro h
    unfold Heap.andThen
    rw [first.commutes h]
    dsimp only
    cases (f h).1 with
    | error cause => rfl
    | ok a => exact (second a).commutes (f h).2
  · intro h
    have alike := first.alike h
    unfold Heap.andThen
    cases (f h).1 with
    | error cause => exact alike
    | ok a => exact alike.trans ((second a).alike (f h).2)

theorem bindMembers_eq_andThen (s : ScopeId) (m : Member) (rest : List Member) (h : Heap) :
    bindMembers s (m :: rest) h =
      andThen (fun h' => h'.declare s m.name (memberValue s h m).1)
        (fun _ => bindMembers s rest) (memberValue s h m).2 := by
  rw [bindMembers_cons]
  unfold andThen
  dsimp only
  obtain ⟨verdict, h'⟩ := (memberValue s h m).2.declare s m.name (memberValue s h m).1
  cases verdict <;> rfl

theorem veiled_memberValue (s : ScopeId) (m : Member) : Veiled fun h => memberValue s h m := by
  cases m with
  | field visibility span name => exact ⟨fun _ => rfl, fun _ => .refl⟩
  | method visibility span decl => exact veiled_closure decl s

theorem veiled_bindMembers (s : ScopeId) (members : List Member) : Veiled (bindMembers s members) := by
  induction members with
  | nil => exact ⟨fun _ => rfl, fun _ => .refl⟩
  | cons m rest ih =>
      have value := veiled_memberValue s m
      -- The member's value is made first; it is then declared and the rest follows.
      have bound : ∀ v, Veiled (andThen (fun h => h.declare s m.name v) fun _ => bindMembers s rest) :=
        fun v => (veiled_declare s m.name v).andThen fun _ => ih
      constructor
      · intro h
        rw [bindMembers_eq_andThen, bindMembers_eq_andThen, value.commutes]
        exact (bound (memberValue s h m).1).commutes (memberValue s h m).2
      · intro h
        rw [bindMembers_eq_andThen]
        exact (value.alike h).trans ((bound (memberValue s h m).1).alike (memberValue s h m).2)

theorem fillLayer_eq_andThen (c : ClassId) (decl : ClassDecl) (base : Option ObjectId) (s : ScopeId)
    (h : Heap) :
    fillLayer c decl base s h = andThen (bindMembers s decl.members)
      (fun _ h' => (.ok h'.objects.size, (h'.newObject ⟨c, s, base⟩).2)) h := by
  unfold fillLayer andThen
  obtain ⟨verdict, h'⟩ := bindMembers s decl.members h
  cases verdict <;> rfl

theorem veiled_fillLayer (c : ClassId) (decl : ClassDecl) (base : Option ObjectId) (s : ScopeId) :
    Veiled (fillLayer c decl base s) := by
  rw [funext (fillLayer_eq_andThen c decl base s)]
  refine (veiled_bindMembers s decl.members).andThen fun _ => ?_
  exact ⟨fun _ => rfl, fun _ => alike_of_scopes_eq rfl⟩

/-- The first half of a layer, given its scope: the name of the layer below. -/
def bindSuper (s : ScopeId) : Option ObjectId → Heap → Except Cause Unit × Heap
  | none, h => (.ok (), h)
  | some o, h => h.declare s superName (.object o)

theorem newLayer_eq_andThen (c : ClassId) (decl : ClassDecl) (around : ScopeId)
    (base : Option ObjectId) (h : Heap) :
    newLayer c decl around base h = andThen (bindSuper h.scopes.size base)
      (fun _ => fillLayer c decl base h.scopes.size) (h.newBlock around).2 := by
  cases base with
  | none => exact newLayer_none c decl around h
  | some o =>
      rw [newLayer_some]
      unfold andThen bindSuper
      dsimp only
      obtain ⟨verdict, h'⟩ := (h.newBlock around).2.declare h.scopes.size superName (.object o)
      cases verdict <;> rfl

theorem veiled_newLayer (c : ClassId) (decl : ClassDecl) (around : ScopeId)
    (base : Option ObjectId) : Veiled (newLayer c decl around base) := by
  have start : ∀ h : Heap, (h.newBlock around).2.plain = (h.plain.newBlock around).2 := fun h =>
    h.plain_newScope _
  have filled : ∀ s, Veiled (andThen (bindSuper s base) fun _ => fillLayer c decl base s) := by
    intro s
    refine Veiled.andThen ?_ fun _ => veiled_fillLayer c decl base s
    cases base with
    | none => exact ⟨fun _ => rfl, fun _ => .refl⟩
    | some o => exact veiled_declare s superName (.object o)
  constructor
  · intro h
    rw [newLayer_eq_andThen, newLayer_eq_andThen, size_plain, ← start]
    exact (filled h.scopes.size).commutes (h.newBlock around).2
  · intro h
    rw [newLayer_eq_andThen]
    have made : h.Alike (h.newBlock around).2 := h.alike_newScope _
    exact made.trans ((filled h.scopes.size).alike (h.newBlock around).2)

theorem buildFrom_eq_andThen (steps : Nat) (c : ClassId) (h : Heap) :
    buildFrom (steps + 1) c h = match h.classes[c]? with
      | none => (.error (.notCallable .classRef), h)
      | some cell => match cell.parent with
        | none => newLayer c cell.decl cell.scope none h
        | some p => andThen (buildFrom steps p)
            (fun base h => newLayer c cell.decl (h.objectScope base) (some base) h) h := by
  rw [buildFrom]
  cases h.classes[c]? with
  | none => rfl
  | some cell =>
      dsimp only
      cases cell.parent with
      | none => rfl
      | some p =>
          unfold andThen
          dsimp only
          obtain ⟨verdict, h'⟩ := buildFrom steps p h
          cases verdict <;> rfl

theorem veiled_buildFrom (steps : Nat) (c : ClassId) : Veiled (buildFrom steps c) := by
  induction steps generalizing c with
  | zero => exact ⟨fun _ => rfl, fun _ => .refl⟩
  | succ steps ih =>
      have above : ∀ (decl : ClassDecl) (p : ClassId), Veiled (andThen (buildFrom steps p)
          fun base h => newLayer c decl (h.objectScope base) (some base) h) := by
        intro decl p
        refine (ih p).andThen fun base => ⟨?_, ?_⟩
        · intro h
          exact (veiled_newLayer c decl (h.objectScope base) (some base)).commutes h
        · intro h
          exact (veiled_newLayer c decl (h.objectScope base) (some base)).alike h
      constructor
      · intro h
        have same : h.plain.classes[c]? = h.classes[c]? := rfl
        rw [buildFrom_eq_andThen, buildFrom_eq_andThen, same]
        cases h.classes[c]? with
        | none => rfl
        | some cell =>
            dsimp only
            cases cell.parent with
            | none => exact (veiled_newLayer c cell.decl cell.scope none).commutes h
            | some p => exact (above cell.decl p).commutes h
      · intro h
        rw [buildFrom_eq_andThen]
        cases h.classes[c]? with
        | none => exact .refl
        | some cell =>
            dsimp only
            cases cell.parent with
            | none => exact (veiled_newLayer c cell.decl cell.scope none).alike h
            | some p => exact (above cell.decl p).alike h

end Heap

namespace Action

variable {α β : Type} {s : ScopeId}

/-! ### Actions on plain machines -/

structure Veils (s : ScopeId) (x y : Action α) : Prop where
  leads : Leads (fun _ => True) (some s) x
  agrees : ∀ m, m.heap.Sound → s < m.heap.scopes.size →
    y m.plain = (x m).onMachine Machine.plain
  alike : ∀ m, m.heap.Sound → s < m.heap.scopes.size → (x m).All fun m' => m.heap.Alike m'.heap

namespace Veils

theorem of_unscoped {x : Action α} (unscoped : Unscoped x) : Veils s x x where
  leads := .of_unscoped unscoped
  agrees m _ _ := by
    have commutes := unscoped.commutes m (m.heap.scopes.map Scope.plain)
    refine Eq.trans commutes (Outcome.onMachine_congr ((unscoped.scopes_eq m).imp ?_))
    intro m' same
    unfold Machine.withScopes Machine.plain Heap.withScopes Heap.plain
    rw [same]
  alike m _ _ := (unscoped.scopes_eq m).imp fun _ same => Heap.alike_of_scopes_eq same

theorem ofHeap {f : Heap → α} (read : ∀ h : Heap, f h.plain = f h) :
    Veils s (ofHeap f) (ofHeap f) where
  leads := .ofHeap f
  agrees m _ _ := congrArg (fun a => Outcome.done a m.plain) (read m.heap)
  alike _ _ _ := Heap.Alike.refl

theorem tryOfHeap {f : Heap → Except Cause α} (read : ∀ h : Heap, f h.plain = f h) :
    Veils s (tryOfHeap f) (tryOfHeap f) where
  leads := .tryOfHeap f
  agrees m _ _ := by
    have same : f m.plain.heap = f m.heap := read m.heap
    unfold Action.tryOfHeap
    rw [same]
    cases f m.heap <;> rfl
  alike m _ _ := by
    unfold Action.tryOfHeap
    cases f m.heap <;> exact Heap.Alike.refl

theorem changeHeap {f : Heap → α × Heap} (veiled : Heap.Veiled f)
    (leads : Leads (fun _ => True) (some s) (changeHeap f)) :
    Veils s (changeHeap f) (changeHeap f) where
  leads := leads
  agrees m _ _ := by
    have same : f m.plain.heap = ((f m.heap).1, (f m.heap).2.plain) := veiled.commutes m.heap
    rw [changeHeap_apply, changeHeap_apply, same]
    rfl
  alike m _ _ := veiled.alike m.heap

theorem tryChangeHeap {f : Heap → Except Cause α × Heap} (veiled : Heap.Veiled f)
    (leads : Leads (fun _ => True) (some s) (tryChangeHeap f)) :
    Veils s (tryChangeHeap f) (tryChangeHeap f) where
  leads := leads
  agrees m _ _ := by
    have same : f m.plain.heap = ((f m.heap).1, (f m.heap).2.plain) := veiled.commutes m.heap
    rw [tryChangeHeap_apply, tryChangeHeap_apply, same]
    dsimp only
    cases (f m.heap).1 <;> rfl
  alike m _ _ := by
    rw [tryChangeHeap_apply]
    cases (f m.heap).1 <;> exact veiled.alike m.heap

/-- The machine after an action is as good a start as the one before. -/
theorem after {x y : Action α} (veils : Veils s x y) {m m' : Machine} {a : α}
    (sound : m.heap.Sound) (valid : s < m.heap.scopes.size) (ended : x m = .done a m') :
    m'.heap.Sound ∧ s < m'.heap.scopes.size ∧ m.heap.Alike m'.heap ∧
      y m.plain = .done a m'.plain := by
  have leads := veils.leads m (Heap.carries_true m.heap)
  have alike := veils.alike m sound valid
  have agrees := veils.agrees m sound valid
  rw [ended] at leads alike agrees
  exact ⟨leads.1.sound sound (Heap.hosts_some valid), Nat.lt_of_lt_of_le valid leads.1.size_le,
    alike, agrees⟩

theorem bind {x y : Action α} {f g : α → Action β} (first : Veils s x y)
    (second : ∀ a, Veils s (f a) (g a)) : Veils s (x >>= f) (y >>= g) where
  leads := first.leads.bind fun a => (second a).leads
  agrees m sound valid := by
    have agrees := first.agrees m sound valid
    rw [bind_apply, bind_apply, agrees]
    cases ended : x m with
    | done a m' =>
        obtain ⟨sound', valid', -, -⟩ := first.after sound valid ended
        exact (second a).agrees m' sound' valid'
    | failed _ _ | crashed _ _ | exhausted => rfl
  alike m sound valid := by
    have alike := first.alike m sound valid
    rw [bind_apply]
    cases ended : x m with
    | done a m' =>
        obtain ⟨sound', valid', alike', -⟩ := first.after sound valid ended
        exact ((second a).alike m' sound' valid').imp fun _ alike'' => alike'.trans alike''
    | failed _ m' | crashed _ m' =>
        rw [ended] at alike
        exact alike
    | exhausted => trivial

theorem orAt {x y : Action α} (span : Span) (veils : Veils s x y) :
    Veils s (orAt span x) (orAt span y) where
  leads := veils.leads.orAt span
  agrees m sound valid := by
    unfold Action.orAt
    rw [veils.agrees m sound valid]
    cases x m <;> rfl
  alike m sound valid := all_orAt span (veils.alike m sound valid)

theorem declare (name : String) (v : Value) : Veils s (declare s name v) (declare s name v) :=
  tryChangeHeap (Heap.veiled_declare s name v) (.declare name v)

theorem declareClass (decl : ClassDecl) : Veils s (declareClass decl s) (declareClass decl s) := by
  have leads : Leads (fun _ => True) (some s) (Action.declareClass decl s) :=
    .declareClass fun _ _ => trivial
  have read : ∀ h : Heap, h.plain.parentClass decl s = h.parentClass decl s := by
    intro h
    simp only [Heap.parentClass, Heap.lookup_plain]
  -- What follows the search for the parent class.
  have made : ∀ (parent : Option ClassId) (m : Machine), m.heap.Sound → s < m.heap.scopes.size →
      m.heap.parentClass decl s = .ok parent →
      let x : Action Value := do
        let v ← Action.changeHeap fun h => h.newClass ⟨decl, s, parent⟩
        Action.orAt decl.span (Action.declare s decl.name v)
        return v
      x m.plain = (x m).onMachine Machine.plain ∧ (x m).All fun m' => m.heap.Alike m'.heap := by
    intro parent m sound valid found
    have run : Heap.Run (fun _ => True) (some s) m.heap (m.heap.newClass ⟨decl, s, parent⟩).2 :=
      .classCell decl parent (fun _ _ => trivial) found
    let m₁ : Machine := { m with heap := (m.heap.newClass ⟨decl, s, parent⟩).2 }
    have named := (orAt decl.span (declare (s := s) decl.name (.classRef m.heap.classes.size))).bind
      fun _ => of_unscoped (.pure (Value.classRef m.heap.classes.size))
    have sound₁ : m₁.heap.Sound := run.sound sound (Heap.hosts_some valid)
    refine ⟨named.agrees m₁ sound₁ valid, ?_⟩
    refine (named.alike m₁ sound₁ valid).imp fun m' alike => ?_
    exact Heap.Alike.trans (Heap.alike_of_scopes_eq rfl) alike
  refine ⟨leads, ?_, ?_⟩
  · intro m sound valid
    unfold Action.declareClass
    have same : m.plain.heap.parentClass decl s = m.heap.parentClass decl s := read m.heap
    rw [bind_apply, bind_apply]
    simp only [Action.ofHeap, same]
    cases found : m.heap.parentClass decl s with
    | error f => rfl
    | ok parent => exact (made parent m sound valid found).1
  · intro m sound valid
    unfold Action.declareClass
    rw [bind_apply]
    simp only [Action.ofHeap]
    cases found : m.heap.parentClass decl s with
    | error f => exact Heap.Alike.refl
    | ok parent => exact (made parent m sound valid found).2

theorem leaf {limits : Limits} {x : Action α} (leaf : Leaf limits (fun _ => True) s x) : Veils s x x := by
  have leads : Leads (fun _ => True) (some s) x := .leaf leaf
  cases leaf with
  | pure a => exact of_unscoped (.pure a)
  | fail cause => exact of_unscoped (.fail cause)
  | failAt span cause => exact of_unscoped (.failAt span cause)
  | lookup t name => exact tryOfHeap fun h => h.lookup_plain t name
  | assign name v permitted => exact changeHeap (Heap.veiled_assign s name v) leads
  | assignIndexed name i v => exact tryChangeHeap (Heap.veiled_assignIndexed s name i v) leads
  | storeAt container i v => exact of_unscoped (.storeAt container i v)
  | storeMember object field v =>
      unfold Action.storeMember at leads ⊢
      split
      · exact tryChangeHeap (Heap.veiled_setMember _ field v) leads
      · exact of_unscoped (.fail _)
  | binary op l r => exact of_unscoped (.binary op l r)
  | unary op v => exact of_unscoped (.unary op v)
  | member object field =>
      unfold Action.member
      split
      · refine tryOfHeap fun h => ?_
        simp only [Heap.getMember, Heap.layer?_plain, Heap.lookup_plain]
        rfl
      · exact tryOfHeap fun _ => rfl
      · exact of_unscoped (.ofExcept _)
  | index object i => exact of_unscoped (.index object i)
  | callNative f args => exact of_unscoped (.callNative f args)
  | callMethod m receiver args => exact of_unscoped (.callMethod m receiver args)
  | buildObject c => exact tryChangeHeap (Heap.veiled_buildFrom (c + 1) c) leads
  | layer o name => exact ofHeap fun h => h.layer?_plain o name
  | className c => exact ofHeap fun _ => rfl
  | truthy v => exact of_unscoped (.ofHeap fun h scopes => h.truthy_withScopes scopes v)
  | valuesEqual u v => exact of_unscoped (.ofHeap fun h scopes => h.valuesEqual_withScopes scopes u v)
  | declare name v => exact declare name v
  | makeArray sizes => exact of_unscoped (.makeArray _ sizes)
  | refuseRound span => exact of_unscoped (.refuseRound _ span)
  | closure decl permitted => exact changeHeap (Heap.veiled_closure decl s) leads
  | declareClass decl permitted => exact declareClass decl

end Veils

/-- Evaluation on plain machines and on machines with marks. -/
def veiling (limits : Limits) : Congruence limits fun _ => True where
  rel s _ x y := Veils s x y
  leaf h := .leaf h
  bind first second := .bind first second
  orAt span veils := .orAt span veils

end Action

end Pseudocode

import Pseudocode.Proofs.Moments

/-!
The layers that objects are made of.

The base of a layer is older than the layer, so that a walk from base to base ends,
and no class that has objects declares a name twice, so that a layer has one
declaration for a name. Both are decided when an object is built, and hold at every
moment of a run (`Session.Reachable.passes_layered`).
-/

namespace Pseudocode

namespace Heap

/-! ### Layers -/

/-- The layer at a position is over an older one, if over any, and its class gives each
name once. -/
structure Settled (h : Heap) (o : ObjectId) (layer : Object) : Prop where
  older : ∀ b, layer.base = some b → b < o
  distinct : ∃ cell, h.classes[layer.classId]? = some cell ∧
    (cell.decl.members.map Member.name).Nodup

/-- All layers are settled. -/
structure Layered (h : Heap) : Prop where
  settled : ∀ {o : ObjectId} {layer : Object}, h.objects[o]? = some layer → h.Settled o layer

variable {h h' : Heap} {s : ScopeId} {c : ClassId} {cell : ClassCell} {members : List Member}
  {base : Option ObjectId}

/-- More classes make no difference. -/
theorem Layered.of_extends (layered : h.Layered)
    (classes : ∀ {i : ClassId} {c : ClassCell}, h.classes[i]? = some c → h'.classes[i]? = some c)
    (objects : h'.objects = h.objects) : h'.Layered := by
  constructor
  intro o layer found
  rw [objects] at found
  obtain ⟨older, cell, inClass, distinct⟩ := layered.settled found
  exact ⟨older, cell, classes inClass, distinct⟩

theorem Layered.of_eq (layered : h.Layered) (classes : h'.classes = h.classes)
    (objects : h'.objects = h.objects) : h'.Layered := by
  apply layered.of_extends _ objects
  rw [classes]
  exact id

theorem Layered.newObject (layered : h.Layered) {layer : Object}
    (settled : h.Settled h.objects.size layer) : (h.newObject layer).2.Layered := by
  constructor
  intro o layer' found
  change (h.objects.push layer)[o]? = some layer' at found
  rw [Array.getElem?_push] at found
  split at found
  · rename_i last
    cases found
    rw [last]
    exact ⟨settled.older, settled.distinct⟩
  · obtain ⟨older, distinct⟩ := layered.settled found
    exact ⟨older, distinct⟩

/-! ### Building layers -/

theorem declare_layers (s : ScopeId) (name : String) (v : Value) (h : Heap) :
    (h.declare s name v).2.classes = h.classes ∧ (h.declare s name v).2.objects = h.objects := by
  unfold declare
  split
  · exact ⟨rfl, rfl⟩
  · exact ⟨rfl, rfl⟩

theorem bindMembers_layers (s : ScopeId) (members : List Member) (h : Heap) :
    (bindMembers s members h).2.classes = h.classes ∧
      (bindMembers s members h).2.objects = h.objects := by
  induction members generalizing h with
  | nil => exact ⟨rfl, rfl⟩
  | cons m rest ih =>
      have made : (memberValue s h m).2.classes = h.classes ∧ (memberValue s h m).2.objects = h.objects := by
        cases m <;> exact ⟨rfl, rfl⟩
      have declared := declare_layers s m.name (memberValue s h m).1 (memberValue s h m).2
      rw [made.1, made.2] at declared
      rw [bindMembers_cons]
      split
      · rename_i h' same
        rw [same] at declared
        rw [(ih h').1, (ih h').2]
        exact declared
      · exact declared

/-- Members are bound one after the other, each under a name that was free. -/
theorem nodup_of_bindMembers (valid : s < h.scopes.size)
    (bound : bindMembers s members h = (.ok (), h')) :
    (members.map Member.name).Nodup ∧ ∀ m ∈ members, h.hasLocal s m.name = false := by
  induction members generalizing h with
  | nil => exact ⟨List.nodup_nil, nofun⟩
  | cons m rest ih =>
      obtain ⟨h₁, run, free, here, others⟩ := bindMembers_step valid bound
      obtain ⟨distinct, fresh⟩ := ih (Nat.lt_of_lt_of_le valid run.size_le) others
      constructor
      · rw [List.map_cons, List.nodup_cons]
        constructor
        · -- A later member of this name would not have found it free.
          intro again
          obtain ⟨m', mem, same⟩ := List.mem_map.mp again
          have absent := fresh m' mem
          rw [same, here] at absent
          cases absent
        · exact distinct
      · intro m' mem
        rcases List.mem_cons.mp mem with rfl | mem
        · exact free
        · apply Bool.eq_false_iff.mpr
          intro present
          have absent := fresh m' mem
          rw [run.hasLocal present] at absent
          cases absent

theorem Layered.fillLayer (layered : h.Layered) (valid : s < h.scopes.size)
    (found : h.classes[c]? = some cell) (older : ∀ b, base = some b → b < h.objects.size) :
    (fillLayer c cell.decl base s h).2.Layered := by
  obtain ⟨classes, objects⟩ := bindMembers_layers s cell.decl.members h
  have kept := layered.of_eq classes objects
  unfold Heap.fillLayer
  split
  · rename_i cause h' failed
    rwa [failed] at kept
  · rename_i h' bound
    rw [bound] at kept classes objects
    apply kept.newObject
    constructor
    · intro b under
      rw [objects]
      exact older b under
    · rw [classes]
      exact ⟨cell, found, (nodup_of_bindMembers valid bound).1⟩

theorem Layered.newLayer (layered : h.Layered) (around : ScopeId)
    (found : h.classes[c]? = some cell) (older : ∀ b, base = some b → b < h.objects.size) :
    (newLayer c cell.decl around base h).2.Layered := by
  have entered : (h.newBlock around).2.Layered := layered.of_eq rfl rfl
  have valid : h.scopes.size < (h.newBlock around).2.scopes.size := by
    simp only [newBlock, size_newScope, Nat.lt_succ_self]
  cases base with
  | none => exact entered.fillLayer valid found older
  | some b =>
      obtain ⟨classes, objects⟩ := declare_layers h.scopes.size superName (.object b) (h.newBlock around).2
      have run := declare_run (P := fun _ => True) h.scopes.size superName (.object b) (h.newBlock around).2
      have kept := entered.of_eq classes objects
      rw [newLayer_some]
      split
      · rename_i cause h' failed
        rwa [failed] at kept
      · rename_i h' bound
        rw [bound] at kept classes objects run
        apply kept.fillLayer (Nat.lt_of_lt_of_le valid run.size_le)
        · rw [classes]
          exact found
        · rw [objects]
          exact older

theorem lt_size_of_newLayer {decl : ClassDecl} {around : ScopeId} {o : ObjectId}
    (built : newLayer c decl around base h = (.ok o, h')) : o < h'.objects.size :=
  (Array.getElem?_eq_some_iff.mp (objects_of_newLayer built)).1

/-- The layer of the parent class is built first, so it is older. -/
theorem Layered.buildFrom (layered : h.Layered) (steps : Nat) (c : ClassId) :
    (buildFrom steps c h).2.Layered ∧
      ∀ {o : ObjectId} {h' : Heap}, Heap.buildFrom steps c h = (.ok o, h') → o < h'.objects.size := by
  induction steps generalizing c with
  | zero =>
      constructor
      · exact layered
      · rintro _ _ ⟨⟩
  | succ steps ih =>
      unfold Heap.buildFrom
      split
      · constructor
        · exact layered
        · rintro _ _ ⟨⟩
      · rename_i cell found
        split
        · constructor
          · apply layered.newLayer cell.scope found
            rintro _ ⟨⟩
          · exact lt_size_of_newLayer
        · rename_i p inherits
          have run : Run (fun _ => True) none h (Heap.buildFrom steps p h).2 :=
            (buildFrom_run steps p h.carries_true).1
          have classes := run.extends.classes found
          obtain ⟨kept, lower⟩ := ih p
          split
          · rename_i cause h' failed
            rw [failed] at kept
            constructor
            · exact kept
            · rintro _ _ ⟨⟩
          · rename_i b h' built
            rw [built] at kept classes
            constructor
            · apply kept.newLayer _ classes
              rintro _ ⟨⟩
              exact lower built
            · exact lt_size_of_newLayer

theorem Layered.setMember (layered : h.Layered) (o : ObjectId) (name : String) (v : Value) :
    (h.setMember o name v).2.Layered := by
  unfold Heap.setMember
  split
  · exact layered
  · split
    · exact layered
    · split
      · exact layered
      · exact layered.of_eq rfl rfl

end Heap

namespace Action

variable {α β : Type}

/-- However the action ends, layers are still as they should be. -/
def KeepsLayers (x : Action α) : Prop := ∀ m, m.heap.Layered → (x m).All fun m' => m'.heap.Layered

namespace KeepsLayers

theorem of_unscoped {x : Action α} (unscoped : Unscoped x) : KeepsLayers x := by
  intro m layered
  apply (unscoped.keeps m).imp
  intro m' ⟨code, _⟩
  exact layered.of_eq code.classes code.objects

theorem ofHeap (f : Heap → α) : KeepsLayers (ofHeap f) := fun _ layered => layered

theorem tryOfHeap (f : Heap → Except Cause α) : KeepsLayers (tryOfHeap f) := by
  intro m layered
  unfold Action.tryOfHeap
  cases f m.heap <;> exact layered

theorem changeHeap {f : Heap → α × Heap} (kept : ∀ h : Heap, h.Layered → (f h).2.Layered) :
    KeepsLayers (changeHeap f) :=
  fun m layered => kept m.heap layered

theorem tryChangeHeap {f : Heap → Except Cause α × Heap}
    (kept : ∀ h : Heap, h.Layered → (f h).2.Layered) : KeepsLayers (tryChangeHeap f) := by
  intro m layered
  rw [tryChangeHeap_apply]
  cases (f m.heap).1 <;> exact kept m.heap layered

theorem declare (s : ScopeId) (name : String) (v : Value) : KeepsLayers (declare s name v) := by
  apply tryChangeHeap
  intro h layered
  obtain ⟨classes, objects⟩ := h.declare_layers s name v
  exact layered.of_eq classes objects

theorem bind {x : Action α} {f : α → Action β} (first : KeepsLayers x)
    (second : ∀ a, KeepsLayers (f a)) : KeepsLayers (x >>= f) :=
  fun m layered => all_bind (first m layered) (fun _ kept => kept) second

theorem declareClass (decl : ClassDecl) (s : ScopeId) : KeepsLayers (declareClass decl s) := by
  apply bind (ofHeap _)
  intro found
  cases found with
  | error f => exact of_unscoped (.failAt _ _)
  | ok parent =>
      have made : KeepsLayers (Action.changeHeap fun h => h.newClass ⟨decl, s, parent⟩) :=
        changeHeap fun h layered => layered.of_extends (Heap.getElem?_push_of_eq_some _) rfl
      apply bind made
      intro v
      have named : KeepsLayers (Action.orAt decl.span (Action.declare s decl.name v)) :=
        fun m layered => all_orAt decl.span (declare s decl.name v m layered)
      exact bind named fun _ => of_unscoped (.pure _)

theorem leaf {limits : Limits} {P : Feature → Prop} {s : ScopeId} {x : Action α}
    (leaf : Leaf limits P s x) :
    KeepsLayers x := by
  cases leaf with
  | pure a => exact of_unscoped (.pure a)
  | fail cause => exact of_unscoped (.fail cause)
  | failAt span cause => exact of_unscoped (.failAt span cause)
  | lookup t name => exact tryOfHeap _
  | assign name v _ => exact changeHeap fun h layered => layered.of_eq rfl rfl
  | assignIndexed name i v =>
      apply tryChangeHeap
      intro h layered
      unfold Heap.assignIndexed
      split
      · rename_i a _
        have same := (Heap.storeElement_blind a i v).keeps h
        exact layered.of_eq same.classes same.objects
      · exact layered
      · exact layered
  | storeAt container i v => exact of_unscoped (.storeAt container i v)
  | storeMember object field v =>
      cases object with
      | object o => exact tryChangeHeap fun h layered => layered.setMember o field v
      | _ => exact of_unscoped (.fail _)
  | binary op l r => exact tryOfHeap _
  | unary op v => exact tryOfHeap _
  | member object field =>
      unfold Action.member
      split
      · exact tryOfHeap _
      · exact tryOfHeap _
      · exact of_unscoped (.ofExcept _)
  | index object i => exact of_unscoped (.index object i)
  | callNative f args => exact of_unscoped (.callNative f args)
  | callMethod m receiver args => exact of_unscoped (.callMethod m receiver args)
  | buildObject c => exact tryChangeHeap fun h layered => (layered.buildFrom (c + 1) c).1
  | layer o name => exact ofHeap _
  | className c => exact ofHeap _
  | truthy v => exact ofHeap _
  | valuesEqual u v => exact ofHeap _
  | declare name v => exact declare s name v
  | makeArray sizes => exact of_unscoped (.makeArray _ sizes)
  | refuseRound span => exact of_unscoped (.refuseRound _ span)
  | closure decl _ => exact changeHeap fun h layered => layered.of_eq rfl rfl
  | declareClass decl _ => exact declareClass decl s

end KeepsLayers

/-- Layers are well placed throughout a run. -/
theorem layered_invariant : Invariant fun m => m.heap.Layered where
  leaf isLeaf := KeepsLayers.leaf isLeaf
  scopes _ layered := layered.of_eq rfl rfl
  depth _ layered := layered

end Action

namespace Session

variable {session : Session} {p : Program} {active : List RoutineId} {m : Machine}

theorem Reachable.layered (reachable : session.Reachable) : session.heap.Layered := by
  induction reachable with
  | start limits world => exact ⟨fun found => nomatch found⟩
  | run _ p ih => exact run_invariant Action.layered_invariant ih p
  | execute _ source ih =>
      exact execute_kept (Q := fun after => after.heap.Layered) ih
        (fun p _ => run_invariant Action.layered_invariant ih p) fun _ layered => layered

theorem Reachable.passes_layered (reachable : session.Reachable) (passes : session.Passes p active m) :
    m.heap.Layered := by
  obtain ⟨fuel, passes⟩ := passes
  exact Action.layered_invariant.passes passes reachable.layered

end Session

end Pseudocode

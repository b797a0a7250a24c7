import Pseudocode.Proofs.Flawless
import Pseudocode.Proofs.Members

/-!
The constructors of new objects.

When the layers of an object have been built and nothing has run since, the nearest layer
that declares a constructor binds its name to a routine (`constructor_of_buildObject`).
No field is called like the constructor, and no member of a class is bound over another.
-/

namespace Pseudocode

/-- A value that stands for a routine of a program. -/
inductive Value.IsRoutine (id : RoutineId) : Value → Prop where
  | function : IsRoutine id (.function id)
  | procedure : IsRoutine id (.procedure id)

namespace Heap

/-- Whatever is bound stays bound to its value. -/
structure KeepsBindings (h h' : Heap) : Prop where
  kept : ∀ {t : ScopeId} {name : String} {v : Value}, h.local? t name = some v →
    h'.local? t name = some v

/-- If the class of a layer declares a constructor, the layer binds it to a routine. -/
def Constructs (h : Heap) (layer : Object) : Prop :=
  ∀ member, h.Declares layer member → member.name = constructorName →
    ∃ v id, h.local? layer.scope constructorName = some v ∧ v.IsRoutine id

/-- The objects from position `n` on are layers over one another, with routines for
constructors. -/
structure Fresh (h : Heap) (n : ObjectId) : Prop where
  grown : n ≤ h.objects.size
  constructs : ∀ {o : ObjectId} {layer : Object}, n ≤ o → h.objects[o]? = some layer → h.Constructs layer
  bases : ∀ {o b : ObjectId} {layer : Object}, n ≤ o → h.objects[o]? = some layer →
    layer.base = some b → n ≤ b

variable {h h' : Heap} {s t : ScopeId} {n o : ObjectId} {c : ClassId} {cell : ClassCell}
  {member : Member} {members : List Member} {layer : Object} {base : Option ObjectId}

/-! ### Binding members -/

theorem isRoutine_closure (decl : RoutineDecl) (s : ScopeId) (h : Heap) :
    (h.closure decl s).1.IsRoutine h.routines.size := by
  unfold closure
  cases decl.kind with
  | function => exact .function
  | procedure => exact .procedure

theorem KeepsBindings.trans {h'' : Heap} (first : h.KeepsBindings h') (second : h'.KeepsBindings h'') :
    h.KeepsBindings h'' :=
  ⟨fun bound => second.kept (first.kept bound)⟩

theorem keepsBindings_newScope (scope : Scope) : h.KeepsBindings (h.newScope scope).2 := by
  constructor
  intro t name v bound
  obtain ⟨old, found, value⟩ := Option.bind_eq_some_iff.mp bound
  unfold local?
  rw [scope?_newScope, if_neg (Nat.ne_of_lt (lt_of_scope? found)), found]
  exact value

theorem declare_eq_ok {name : String} {v : Value} (declared : h.declare s name v = (.ok (), h')) :
    h.hasLocal s name = false ∧ h' = h.setLocal s name v := by
  have free := not_hasLocal_of_declare declared
  unfold declare at declared
  rw [free] at declared
  cases declared
  exact ⟨free, rfl⟩

theorem keepsBindings_of_declare {name : String} {v : Value}
    (declared : h.declare s name v = (.ok (), h')) : h.KeepsBindings h' := by
  obtain ⟨free, rfl⟩ := declare_eq_ok declared
  constructor
  intro t other w bound
  rw [local?_setLocal_of_ne]
  · exact bound
  · -- Only the name that was free is bound anew.
    by_contra same
    simp only [not_or, not_not] at same
    obtain ⟨rfl, rfl⟩ := same
    rw [hasLocal, bound] at free
    cases free

theorem keepsBindings_of_bindMembers (bound : bindMembers s members h = (.ok (), h')) :
    h.KeepsBindings h' := by
  induction members generalizing h with
  | nil =>
      cases bound
      exact ⟨id⟩
  | cons m rest ih =>
      rw [bindMembers_cons] at bound
      have made : h.KeepsBindings (memberValue s h m).2 := by
        cases m <;> exact ⟨id⟩
      split at bound
      · rename_i h₁ declared
        exact made.trans ((keepsBindings_of_declare declared).trans (ih bound))
      · rename_i failed
        exact absurd bound (failed h')

/-- A method is bound to a routine; a field that is called like the constructor would be
a flaw. -/
theorem constructor_of_bindMembers (valid : s < h.scopes.size)
    (permitted : Permits Flawless (Member.featuresAll members))
    (bound : bindMembers s members h = (.ok (), h')) (mem : member ∈ members)
    (called : member.name = constructorName) :
    ∃ v id, h'.local? s constructorName = some v ∧ v.IsRoutine id := by
  induction members generalizing h with
  | nil => cases mem
  | cons m rest ih =>
      rw [Member.featuresAll, permits_append] at permitted
      have run := memberValue_run s permitted.1 h
      rw [bindMembers_cons] at bound
      split at bound
      · rename_i h₁ declared
        have grown : s < h₁.scopes.size := by
          have named := declare_run (P := Flawless) s m.name (memberValue s h m).1 (memberValue s h m).2
          rw [declared] at named
          exact Nat.lt_of_lt_of_le valid (run.trans named).size_le
        rcases List.mem_cons.mp mem with rfl | later
        · cases member with
          | field visibility span name =>
              exact absurd called (permits_flawless_unless.mp permitted.1)
          | method visibility span decl =>
              obtain ⟨-, rfl⟩ := declare_eq_ok declared
              have here := local?_setLocal_self decl.name (h.closure decl s).1
                (Nat.lt_of_lt_of_le valid run.size_le)
              have kept := (keepsBindings_of_bindMembers bound).kept here
              rw [← called]
              exact ⟨_, _, kept, isRoutine_closure decl s h⟩
        · exact ih grown permitted.2 bound later
      · rename_i failed
        exact absurd bound (failed h')

/-! ### Layers -/

theorem fresh_size : h.Fresh h.objects.size where
  grown := Nat.le_refl _
  constructs new found := absurd (Array.getElem?_eq_some_iff.mp found).1 (Nat.not_lt_of_le new)
  bases new found := absurd (Array.getElem?_eq_some_iff.mp found).1 (Nat.not_lt_of_le new)

theorem Fresh.of_keepsBindings (fresh : h.Fresh n) (keeps : h.KeepsBindings h')
    (classes : h'.classes = h.classes) (objects : h'.objects = h.objects) : h'.Fresh n := by
  have declares : ∀ {layer member}, h'.Declares layer member → h.Declares layer member := by
    unfold Declares
    rw [classes]
    exact id
  constructor
  · rw [objects]
    exact fresh.grown
  · intro o layer new found member declared called
    rw [objects] at found
    obtain ⟨v, id, bound, routine⟩ := fresh.constructs new found member (declares declared) called
    exact ⟨v, id, keeps.kept bound, routine⟩
  · intro o b layer new found
    rw [objects] at found
    exact fresh.bases new found

theorem Fresh.newObject (fresh : h.Fresh n) (constructs : h.Constructs layer)
    (above : ∀ b, layer.base = some b → n ≤ b) : (h.newObject layer).2.Fresh n := by
  have last : ∀ {o : ObjectId} {layer' : Object}, (h.newObject layer).2.objects[o]? = some layer' →
      layer' = layer ∨ h.objects[o]? = some layer' := by
    intro o layer' found
    change (h.objects.push layer)[o]? = some layer' at found
    rw [Array.getElem?_push] at found
    split at found
    · exact .inl (Option.some.inj found).symm
    · exact .inr found
  constructor
  · change n ≤ (h.objects.push layer).size
    rw [Array.size_push]
    exact Nat.le_succ_of_le fresh.grown
  · intro o layer' new found
    rcases last found with rfl | old
    · exact constructs
    · exact fresh.constructs new old
  · intro o b layer' new found
    rcases last found with rfl | old
    · exact above b
    · exact fresh.bases new old

theorem Fresh.fillLayer (fresh : h.Fresh n) (valid : s < h.scopes.size)
    (found : h.classes[c]? = some cell) (permitted : Permits Flawless cell.decl.features)
    (above : ∀ b, base = some b → n ≤ b)
    (filled : fillLayer c cell.decl base s h = (.ok o, h')) : h'.Fresh n ∧ n ≤ o := by
  obtain ⟨classes, objects⟩ := bindMembers_layers s cell.decl.members h
  have inMembers : Permits Flawless (Member.featuresAll cell.decl.members) := by
    obtain ⟨⟨name, parent, members, span⟩, scope, parentClass⟩ := cell
    simpa [ClassDecl.features] using permitted
  unfold Heap.fillLayer at filled
  split at filled
  · cases filled
  · rename_i h₁ bound
    cases filled
    rw [bound] at classes objects
    have kept := fresh.of_keepsBindings (keepsBindings_of_bindMembers bound) classes objects
    refine ⟨kept.newObject ?_ above, kept.grown⟩
    rintro member ⟨cell', inClass, mem⟩ called
    rw [classes, found] at inClass
    cases inClass
    exact constructor_of_bindMembers valid inMembers bound mem called

theorem Fresh.newLayer (fresh : h.Fresh n) (around : ScopeId) (found : h.classes[c]? = some cell)
    (permitted : Permits Flawless cell.decl.features) (above : ∀ b, base = some b → n ≤ b)
    (built : newLayer c cell.decl around base h = (.ok o, h')) : h'.Fresh n ∧ n ≤ o := by
  have entered : (h.newBlock around).2.Fresh n :=
    fresh.of_keepsBindings (keepsBindings_newScope _) rfl rfl
  have valid : h.scopes.size < (h.newBlock around).2.scopes.size := by
    simp only [newBlock, size_newScope, Nat.lt_succ_self]
  cases base with
  | none => exact entered.fillLayer valid found permitted above built
  | some b =>
      obtain ⟨classes, objects⟩ := declare_layers h.scopes.size superName (.object b) (h.newBlock around).2
      rw [newLayer_some] at built
      split at built
      · cases built
      · rename_i h₁ declared
        rw [declared] at classes objects
        have kept := entered.of_keepsBindings (keepsBindings_of_declare declared) classes objects
        have grown : h.scopes.size < h₁.scopes.size := by
          obtain ⟨-, rfl⟩ := declare_eq_ok declared
          rwa [size_setLocal]
        apply kept.fillLayer grown _ permitted above built
        rw [classes]
        exact found

theorem Fresh.buildFrom (fresh : h.Fresh n) (carries : h.Carries Flawless) {steps : Nat}
    (built : buildFrom steps c h = (.ok o, h')) : h'.Fresh n ∧ n ≤ o := by
  induction steps generalizing c o h' with
  | zero => cases built
  | succ steps ih =>
      unfold Heap.buildFrom at built
      split at built
      · cases built
      · rename_i cell found
        have permitted := carries.classes cell (Array.mem_of_getElem? found)
        split at built
        · apply fresh.newLayer cell.scope found permitted _ built
          rintro _ ⟨⟩
        · rename_i p inherits
          have run : Run Flawless none h (Heap.buildFrom steps p h).2 := (buildFrom_run steps p carries).1
          split at built
          · cases built
          · rename_i base h₁ below
            obtain ⟨kept, above⟩ := ih below
            rw [below] at run
            apply kept.newLayer _ (run.extends.classes found) permitted _ built
            rintro _ ⟨⟩
            exact above

/-! ### The nearest constructor -/

theorem Fresh.layerFrom (fresh : h.Fresh n) {steps : Nat} (new : n ≤ o)
    (found : h.layerFrom constructorName steps o = some (layer, member)) :
    ∃ v id, h.lookup layer.scope constructorName = .ok v ∧ v.IsRoutine id := by
  induction steps generalizing o with
  | zero => cases found
  | succ steps ih =>
      simp only [Heap.layerFrom] at found
      split at found
      · cases found
      · rename_i cell here
        split at found
        · rename_i m declared
          cases found
          unfold ownMember? at declared
          obtain ⟨c, inClass, first⟩ := Option.bind_eq_some_iff.mp declared
          have named : member.name = constructorName := by simpa using List.find?_some first
          have declares : h.Declares layer member := ⟨c, inClass, List.mem_of_find?_eq_some first⟩
          obtain ⟨v, id, bound, routine⟩ := fresh.constructs new here member declares named
          exact ⟨v, id, lookup_of_local? bound, routine⟩
        · split at found
          · cases found
          · rename_i b under
            exact ih (fresh.bases new here under) found

theorem constructor_of_buildObject (carries : h.Carries Flawless)
    (built : h.buildObject c = (.ok o, h'))
    (found : h'.layer? o constructorName = some (layer, member)) :
    ∃ v id, h'.lookup layer.scope constructorName = .ok v ∧ v.IsRoutine id := by
  obtain ⟨fresh, new⟩ := (fresh_size (h := h)).buildFrom carries built
  exact fresh.layerFrom new found

end Heap

end Pseudocode

import Pseudocode.Proofs.Layers

/-!
Members of objects, seen from outside.

A member is looked for from layer to layer, and its value is then read by an ordinary
lookup from the scope of the layer, which could go on to the scopes around it. It
never does: a layer binds all that its class declares, at every moment of a run. So a
member is exactly what the nearest layer holds that declares it (`Reads`), and setting
one changes a single binding (`Rebinds`).
-/

namespace Pseudocode

namespace Heap

/-! ### The nearest declaration -/

/-- The class of a layer declares a member. -/
def Declares (h : Heap) (layer : Object) (member : Member) : Prop :=
  ∃ cell, h.classes[layer.classId]? = some cell ∧ member ∈ cell.decl.members

/-- The layers of an object: its own, and those from base to base. -/
inductive LayerOf (h : Heap) : ObjectId → Object → Prop where
  | own {o : ObjectId} {layer : Object} (found : h.objects[o]? = some layer) : LayerOf h o layer
  | base {o b : ObjectId} {first layer : Object} (found : h.objects[o]? = some first)
      (under : first.base = some b) (rest : LayerOf h b layer) : LayerOf h o layer

/-- The nearest layer of an object, from its own on, whose class declares a name, and the
declaration. -/
inductive Nearest (h : Heap) (name : String) : ObjectId → Object → Member → Prop where
  | own {o : ObjectId} {layer : Object} {member : Member} (found : h.objects[o]? = some layer)
      (declares : h.Declares layer member) (named : member.name = name) : Nearest h name o layer member
  | base {o b : ObjectId} {first layer : Object} {member : Member} (found : h.objects[o]? = some first)
      (silent : ∀ other, h.Declares first other → other.name ≠ name) (under : first.base = some b)
      (rest : Nearest h name b layer member) : Nearest h name o layer member

variable {h : Heap} {o : ObjectId} {name : String} {layer : Object} {member : Member}

theorem Nearest.named (nearest : h.Nearest name o layer member) :
    h.LayerOf o layer ∧ h.Declares layer member ∧ member.name = name := by
  induction nearest with
  | own found declares named => exact ⟨.own found, declares, named⟩
  | base found silent under rest ih => exact ⟨.base found under ih.1, ih.2⟩

/-- A name that some layer declares is declared by a nearest one. -/
theorem LayerOf.exists_nearest (isLayer : h.LayerOf o layer) (declares : h.Declares layer member) :
    ∃ layer' member', h.Nearest member.name o layer' member' := by
  induction isLayer with
  | own found => exact ⟨_, _, .own found declares rfl⟩
  | @base o b first layer found under _ ih =>
      by_cases here : ∃ other, h.Declares first other ∧ other.name = member.name
      · obtain ⟨other, declares', named⟩ := here
        exact ⟨first, other, .own found declares' named⟩
      · obtain ⟨layer', member', nearest⟩ := ih declares
        have silent : ∀ other, h.Declares first other → other.name ≠ member.name :=
          fun other declares' named => here ⟨other, declares', named⟩
        exact ⟨layer', member', .base found silent under nearest⟩

/-! ### Finding the nearest declaration -/

theorem ownMember?_eq_none_iff :
    h.ownMember? layer name = none ↔ ∀ other, h.Declares layer other → other.name ≠ name := by
  unfold ownMember? Declares ClassDecl.member?
  cases h.classes[layer.classId]? with
  | none => simp
  | some cell => simp

/-- Where each name is given once, the first declaration of a name is the only one. -/
theorem find?_of_nodup {members : List Member} (distinct : (members.map Member.name).Nodup)
    (mem : member ∈ members) : members.find? (fun m => m.name == member.name) = some member := by
  induction members with
  | nil => cases mem
  | cons first rest ih =>
      rw [List.map_cons, List.nodup_cons] at distinct
      rcases List.mem_cons.mp mem with rfl | later
      · exact List.find?_cons_of_pos (beq_self_eq_true _)
      · have other : first.name ≠ member.name := by
          intro same
          apply distinct.1
          rw [same]
          exact List.mem_map_of_mem later
        rw [List.find?_cons_of_neg (by rwa [beq_iff_eq])]
        exact ih distinct.2 later

theorem Settled.ownMember?_eq_some_iff (settled : h.Settled o layer) :
    h.ownMember? layer name = some member ↔ h.Declares layer member ∧ member.name = name := by
  obtain ⟨-, cell, inClass, distinct⟩ := settled
  unfold ownMember? Declares ClassDecl.member?
  rw [inClass, Option.bind_some]
  constructor
  · intro first
    have named := List.find?_some first
    exact ⟨⟨cell, rfl, List.mem_of_find?_eq_some first⟩, beq_iff_eq.mp named⟩
  · rintro ⟨⟨_, ⟨⟩, mem⟩, rfl⟩
    exact find?_of_nodup distinct mem

theorem Layered.layerFrom_eq_some_iff (layered : h.Layered) {steps : Nat} (enough : o < steps) :
    h.layerFrom name steps o = some (layer, member) ↔ h.Nearest name o layer member := by
  induction steps generalizing o with
  | zero => exact absurd enough (Nat.not_lt_zero o)
  | succ steps ih =>
      -- The walk goes on to an older object, for which fewer steps are enough.
      have nearer : ∀ {first : Object} {b : ObjectId}, h.objects[o]? = some first →
          first.base = some b → b < steps := by
        intro first b here under
        exact Nat.lt_of_lt_of_le ((layered.settled here).older b under) (Nat.le_of_lt_succ enough)
      simp only [layerFrom]
      constructor
      · intro found
        split at found
        · cases found
        · rename_i first here
          split at found
          · rename_i declared
            cases found
            obtain ⟨declares, named⟩ := (layered.settled here).ownMember?_eq_some_iff.mp declared
            exact .own here declares named
          · rename_i silent
            split at found
            · cases found
            · rename_i b under
              have nearest := (ih (nearer here under)).mp found
              exact .base here (ownMember?_eq_none_iff.mp silent) under nearest
      · intro nearest
        cases nearest with
        | own found declares named =>
            have declared := (layered.settled found).ownMember?_eq_some_iff.mpr ⟨declares, named⟩
            simp only [found, declared]
        | base found silent under rest =>
            simp only [found, ownMember?_eq_none_iff.mpr silent, under]
            exact (ih (nearer found under)).mpr rest

theorem Layered.layer?_eq_some_iff (layered : h.Layered) :
    h.layer? o name = some (layer, member) ↔ h.Nearest name o layer member :=
  layered.layerFrom_eq_some_iff (Nat.lt_succ_self o)

theorem Layered.layer?_eq_none_iff (layered : h.Layered) :
    h.layer? o name = none ↔
      ∀ layer, h.LayerOf o layer → ∀ member, h.Declares layer member → member.name ≠ name := by
  constructor
  · rintro absent layer isLayer member declares rfl
    obtain ⟨layer', member', nearest⟩ := isLayer.exists_nearest declares
    rw [layered.layer?_eq_some_iff.mpr nearest] at absent
    cases absent
  · intro silent
    cases found : h.layer? o name with
    | none => rfl
    | some pair =>
        obtain ⟨layer, member⟩ := pair
        obtain ⟨isLayer, declares, named⟩ := (layered.layer?_eq_some_iff.mp found).named
        exact absurd named (silent layer isLayer member declares)

/-! ### Reading members -/

/-- What a member is when seen from outside: what the nearest layer binds its name to, if the
declaration there is public. -/
inductive Reads (h : Heap) (o : ObjectId) (name : String) : Except Cause Value → Prop where
  | found {layer : Object} {member : Member} {v : Value} (nearest : h.Nearest name o layer member)
      (isPublic : member.visibility = .everywhere) (bound : h.local? layer.scope name = some v) :
      Reads h o name (.ok v)
  | hidden {layer : Object} {member : Member} (nearest : h.Nearest name o layer member)
      (isPrivate : member.visibility = .within) :
      Reads h o name (.error (.privateMember name (h.className layer.classId)))
  | missing (silent : ∀ layer, h.LayerOf o layer → ∀ member, h.Declares layer member → member.name ≠ name) :
      Reads h o name (.error (.misuse (.noMember (h.objectClass o) name)))

theorem LayerOf.mem (isLayer : h.LayerOf o layer) : layer ∈ h.objects := by
  induction isLayer with
  | own found => exact Array.mem_of_getElem? found
  | base _ _ _ ih => exact ih

/-- A layer binds in its own scope what its class declares. -/
theorem Sound.bound (sound : h.Sound) (isLayer : h.LayerOf o layer) (declares : h.Declares layer member) :
    ∃ v, h.local? layer.scope member.name = some v := by
  obtain ⟨cell, inClass, bound⟩ := sound.layers layer isLayer.mem
  obtain ⟨cell', inClass', mem⟩ := declares
  rw [inClass] at inClass'
  cases inClass'
  exact Option.isSome_iff_exists.mp (bound member mem)

theorem Nearest.bound (nearest : h.Nearest name o layer member) (sound : h.Sound) :
    ∃ v, h.local? layer.scope name = some v := by
  obtain ⟨isLayer, declares, rfl⟩ := nearest.named
  exact sound.bound isLayer declares

theorem Layered.reads_getMember (layered : h.Layered) (sound : h.Sound) (o : ObjectId) (name : String) :
    h.Reads o name (h.getMember o name) := by
  unfold getMember
  cases found : h.layer? o name with
  | none => exact .missing (layered.layer?_eq_none_iff.mp found)
  | some pair =>
      obtain ⟨layer, member⟩ := pair
      have nearest := layered.layer?_eq_some_iff.mp found
      dsimp only
      cases visible : member.visibility with
      | within => exact .hidden nearest visible
      | everywhere =>
          obtain ⟨v, bound⟩ := nearest.bound sound
          dsimp only
          rw [lookup_of_local? bound]
          exact .found nearest visible bound

theorem Layered.getMember_of_reads (layered : h.Layered) {answer : Except Cause Value}
    (reads : h.Reads o name answer) : h.getMember o name = answer := by
  unfold getMember
  cases reads with
  | found nearest isPublic bound =>
      simp only [layered.layer?_eq_some_iff.mpr nearest, isPublic, lookup_of_local? bound]
  | hidden nearest isPrivate =>
      simp only [layered.layer?_eq_some_iff.mpr nearest, isPrivate]
  | missing silent => simp only [layered.layer?_eq_none_iff.mpr silent]

/-! ### Setting members -/

/-- A scope without its bindings: where it lies, and how it was marked. -/
def frame (scope : Scope) : Scope := { scope with bindings := [] }

/-- The two heaps differ in the value of one name that a scope binds, and in nothing
else. -/
structure Rebinds (h : Heap) (s : ScopeId) (name : String) (v : Value) (h' : Heap) : Prop where
  before : ∃ old, h.local? s name = some old
  after : h'.local? s name = some v
  /-- Other names of the scope keep their values. -/
  others : ∀ other, other ≠ name → h'.local? s other = h.local? s other
  names : h'.localNames s = h.localNames s
  marks : (h'.scope? s).map frame = (h.scope? s).map frame
  elsewhere : ∀ t, t ≠ s → h'.scope? t = h.scope? t
  rest : h' = h.withScopes h'.scopes

theorem setLocal_rebinds {s : ScopeId} (v : Value) (bound : ∃ old, h.local? s name = some old) :
    h.Rebinds s name v (h.setLocal s name v) where
  before := bound
  after := by
    obtain ⟨old, value⟩ := bound
    obtain ⟨scope, found, -⟩ := Option.bind_eq_some_iff.mp value
    simp [local?, scope?_setLocal, found]
  others other ne := local?_setLocal_of_ne v (.inr ne)
  names := localNames_setLocal_of_bound v (Option.isSome_iff_exists.mpr bound) s
  marks := by
    rw [scope?_setLocal, if_pos rfl, Option.map_map]
    rfl
  elsewhere t ne := by rw [scope?_setLocal, if_neg (Ne.symm ne)]
  rest := rfl

/-- A member that can be set: a public field of the nearest layer that declares it. -/
structure Settable (h : Heap) (o : ObjectId) (name : String) (layer : Object) (member : Member) : Prop where
  nearest : h.Nearest name o layer member
  isPublic : member.visibility = .everywhere
  isField : member.isMethod = false

theorem Layered.setMember_of_settable (layered : h.Layered) (settable : h.Settable o name layer member)
    (v : Value) : h.setMember o name v = (.ok (), h.setLocal layer.scope name v) := by
  simp [Heap.setMember, layered.layer?_eq_some_iff.mpr settable.nearest, settable.isPublic, settable.isField]

/-- Setting a member that cannot be set fails and changes nothing. -/
theorem Layered.setMember_cases (layered : h.Layered) (o : ObjectId) (name : String) (v : Value) :
    (∃ layer member, h.Settable o name layer member) ∨ ∃ cause, h.setMember o name v = (.error cause, h) := by
  cases found : h.layer? o name with
  | none =>
      right
      simp [Heap.setMember, found]
  | some pair =>
      obtain ⟨layer, member⟩ := pair
      cases visible : member.visibility with
      | within =>
          right
          simp [Heap.setMember, found, visible]
      | everywhere =>
          cases kind : member.isMethod with
          | true =>
              right
              simp [Heap.setMember, found, visible, kind]
          | false =>
              left
              exact ⟨layer, member, layered.layer?_eq_some_iff.mp found, visible, kind⟩

/-- What was nearest is nearest when a value has changed. -/
theorem Nearest.setLocal (nearest : h.Nearest name o layer member) (s : ScopeId) (field : String) (v : Value) :
    (h.setLocal s field v).Nearest name o layer member := by
  induction nearest with
  | own found declares named => exact .own found declares named
  | base found silent under _ ih => exact .base found silent under ih

theorem Nearest.ownMember? (nearest : h.Nearest name o layer member) (layered : h.Layered) :
    h.ownMember? layer name = some member := by
  induction nearest with
  | own found declares named =>
      exact (layered.settled found).ownMember?_eq_some_iff.mpr ⟨declares, named⟩
  | base _ _ _ _ ih => exact ih

/-- The new value is read through every object for which the layer is the nearest. -/
theorem Layered.getMember_setMember (layered : h.Layered) (sound : h.Sound)
    (settable : h.Settable o name layer member) (v : Value) {o' : ObjectId} {member' : Member}
    (nearest : h.Nearest name o' layer member') :
    (h.setMember o name v).2.getMember o' name = .ok v := by
  have declared := nearest.ownMember? layered
  rw [settable.nearest.ownMember? layered] at declared
  cases declared
  -- Both objects come to one declaration, so the member is public for both.
  have rebinds := setLocal_rebinds v (nearest.bound sound)
  have kept : (h.setLocal layer.scope name v).Layered := layered.of_eq rfl rfl
  rw [layered.setMember_of_settable settable]
  exact kept.getMember_of_reads (.found (nearest.setLocal layer.scope name v) settable.isPublic rebinds.after)

end Heap

namespace Session

variable {session : Session} {p : Program} {active : List RoutineId} {m : Machine}

/-- Members of objects are what the nearest layer says that declares them, at every moment
of a session. Each layer of an object binds in its own scope what its class declares.
A member read from outside is what the nearest declaring layer binds its name to when
it is public there, a fault that names the class of this layer when it is private, and
a fault when no layer declares it. Exactly a public field can be set: this changes
the one binding, which is then read through every object that shares the layer.
Setting anything else changes nothing. -/
theorem members_resolve (reachable : session.Reachable) (passes : session.Passes p active m)
    (o : ObjectId) (name : String) :
    (∀ layer, m.heap.LayerOf o layer → ∀ member, m.heap.Declares layer member →
      ∃ v, m.heap.local? layer.scope member.name = some v) ∧
    (∀ answer, m.heap.getMember o name = answer ↔ m.heap.Reads o name answer) ∧
    ∀ v,
      ((m.heap.setMember o name v).1 = .ok () ↔ ∃ layer member, m.heap.Settable o name layer member) ∧
      (∀ cause, (m.heap.setMember o name v).1 = .error cause → (m.heap.setMember o name v).2 = m.heap) ∧
      ∀ layer member, m.heap.Settable o name layer member →
        m.heap.Rebinds layer.scope name v (m.heap.setMember o name v).2 ∧
        ∀ o' member', m.heap.Nearest name o' layer member' →
          (m.heap.setMember o name v).2.getMember o' name = .ok v := by
  have layered := reachable.passes_layered passes
  have sound := (reachable.passes_heap passes).sound
  constructor
  · intro layer isLayer member declares
    exact sound.bound isLayer declares
  constructor
  · intro answer
    constructor
    · rintro rfl
      exact layered.reads_getMember sound o name
    · exact layered.getMember_of_reads
  intro v
  constructor
  · constructor
    · intro succeeded
      rcases layered.setMember_cases o name v with settable | ⟨cause, failed⟩
      · exact settable
      · rw [failed] at succeeded
        cases succeeded
    · rintro ⟨layer, member, settable⟩
      rw [layered.setMember_of_settable settable]
  constructor
  · intro cause failed
    rcases layered.setMember_cases o name v with ⟨layer, member, settable⟩ | ⟨cause', unchanged⟩
    · rw [layered.setMember_of_settable settable] at failed
      cases failed
    · rw [unchanged]
  · intro layer member settable
    constructor
    · rw [layered.setMember_of_settable settable]
      exact Heap.setLocal_rebinds v (settable.nearest.bound sound)
    · intro o' member' nearest
      exact layered.getMember_setMember sound settable v nearest

/-- A session with a variable `breed`, and with an object whose layers are the objects 1
and 0: that of `Dog`, which declares no field `name`, over that of `Pet`. -/
def kennel : Session :=
  ((start {} {}).run ⟨[
    .classDecl ⟨"Pet", none, [.field .everywhere .unplaced "name"], .unplaced⟩,
    .classDecl ⟨"Dog", some ("Pet", .unplaced), [.field .within .unplaced "tricks"], .unplaced⟩,
    .declare .unplaced "breed" (.integer .unplaced 3),
    .expression (.create .unplaced (.identifier .unplaced "Dog") [])]⟩).2

theorem members_resolve_kennel :
    kennel.heap.Reads 1 "breed" (.error (.misuse (.noMember "Dog" "breed"))) ∧
      (kennel.heap.setMember 1 "name" (.integer 7)).2.getMember 0 "name" = .ok (.integer 7) := by
  have reachable : kennel.Reachable := .run (.start {} {}) _
  have breed := members_resolve reachable kennel.passes_idle 1 "breed"
  have name := members_resolve reachable kennel.passes_idle 1 "name"
  have missing : (match kennel.machine.heap.getMember 1 "breed" with
      | .ok _ => none
      | .error cause => some cause) = some (.misuse (.noMember "Dog" "breed")) := by
    decide +kernel
  have stores : (kennel.machine.heap.setMember 1 "name" (.integer 7)).1.toBool = true := by
    decide +kernel
  have dog : kennel.machine.heap.objects[1]? = some ⟨1, 2, some 0⟩ := by decide +kernel
  have silent : (kennel.machine.heap.ownMember? ⟨1, 2, some 0⟩ "name").isNone = true := by
    decide +kernel
  -- From here on the heap is any heap of which these facts hold.
  unfold Session.heap
  generalize kennel.machine.heap = h at *
  constructor
  · apply (breed.2.1 _).mp
    split at missing
    · cases missing
    · rename_i cause failed
      rw [← Option.some.inj missing]
      exact failed
  · obtain ⟨succeeds, -, stored⟩ := name.2.2 (.integer 7)
    have succeeded : (h.setMember 1 "name" (.integer 7)).1 = .ok () := by
      cases verdict : (h.setMember 1 "name" (.integer 7)).1 with
      | ok _ => rfl
      | error cause =>
          rw [verdict] at stores
          cases stores
    obtain ⟨layer, member, settable⟩ := succeeds.mp succeeded
    have inherited : h.Nearest "name" 0 layer member := by
      cases settable.nearest with
      | own found declares named =>
          rw [dog] at found
          cases found
          have absent := Heap.ownMember?_eq_none_iff.mp (Option.isNone_iff_eq_none.mp silent)
          exact absurd named (absent member declares)
      | base found _ under rest =>
          rw [dog] at found
          cases found
          cases under
          exact rest
    exact (stored layer member settable).2 0 member inherited

end Session

end Pseudocode

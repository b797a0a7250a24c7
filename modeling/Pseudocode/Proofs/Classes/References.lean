import Pseudocode.Proofs.Arrays.Storage
import Pseudocode.Proofs.Classes.Proper
import Pseudocode.Proofs.Moments

/-!
References to classes.

A class is declared under the class that the name of its parent stands for at that
moment. The heap is `Tidy` when every class that a value refers to is there; the
parent of a class is then older than the class, and the classes above it come to an end.
The code that a tidy heap keeps is of the kind that is run. The heap is `Orderly` when
it is tidy and its code is proper.
-/

namespace Pseudocode

theorem Bindings.mem_of_lookup {α : Type} {bs : Bindings α} {name : String} {v : α}
    (found : bs.lookup name = some v) : (name, v) ∈ bs := by
  obtain ⟨before, after, rfl, -⟩ := List.lookup_eq_some_iff.mp found
  exact List.mem_append_right _ List.mem_cons_self

/-! ### Values that refer to classes -/

/-- A value that refers to no class but the first `n` that were declared. -/
def Value.Below (n : Nat) : Value → Prop
  | .classRef c => c < n
  | _ => True

theorem Value.Below.mono {n k : Nat} {v : Value} (below : v.Below n) (le : n ≤ k) : v.Below k := by
  cases v with
  | classRef c => exact Nat.lt_of_lt_of_le below le
  | _ => trivial

theorem Value.below_zero {v : Value} (n : Nat) (below : v.Below 0) : v.Below n :=
  below.mono (Nat.zero_le n)

theorem Value.below_null (n : Nat) : Value.null.Below n := trivial

theorem Value.below_integer (i : Int64) (n : Nat) : (Value.integer i).Below n := trivial

namespace Heap

/-- A value that some cell of the heap holds. -/
inductive Contains (h : Heap) (v : Value) : Prop where
  | bound {t : ScopeId} {name : String} (bound : h.local? t name = some v)
  | parked {t : ScopeId} {scope : Scope} (found : h.scope? t = some scope)
      (parked : scope.returned = some v)
  | item {a : ArrayId} (mem : v ∈ h.items a)

structure Tidy (C : Code) (h : Heap) : Prop where
  below : ∀ {v : Value}, h.Contains v → v.Below h.classes.size
  older : ∀ {c p : ClassId} {cell : ClassCell}, h.classes[c]? = some cell → cell.parent = some p → p < c
  classes : ∀ cell ∈ h.classes, C.classDecl cell.decl
  routines : ∀ r ∈ h.routines, C.routine r.decl

structure Orderly (h : Heap) : Prop where
  below : ∀ {v : Value}, h.Contains v → v.Below h.classes.size
  older : ∀ {c p : ClassId} {cell : ClassCell}, h.classes[c]? = some cell → cell.parent = some p → p < c
  classes : ∀ cell ∈ h.classes, cell.decl.Proper
  routines : ∀ r ∈ h.routines, r.decl.Proper

theorem orderly_iff {h : Heap} : h.Orderly ↔ h.Tidy .proper :=
  ⟨fun ⟨below, older, classes, routines⟩ => ⟨below, older, classes, routines⟩,
    fun ⟨below, older, classes, routines⟩ => ⟨below, older, classes, routines⟩⟩

variable {C : Code} {h h' : Heap} {s : ScopeId} {v w : Value}

/-- An array whose elements are all in another one, in the same places, is not longer. -/
theorem size_le_of_getElem? {α : Type} {xs ys : Array α}
    (kept : ∀ {i : Nat} {a : α}, xs[i]? = some a → ys[i]? = some a) : xs.size ≤ ys.size := by
  apply Nat.le_of_not_lt
  intro fewer
  have here := kept (Array.getElem?_eq_getElem fewer)
  rw [Array.getElem?_eq_none (Nat.le_refl _)] at here
  cases here

theorem Extends.classes_le (grown : h.Extends h') : h.classes.size ≤ h'.classes.size :=
  size_le_of_getElem? grown.classes

theorem Extends.objects_le (grown : h.Extends h') : h.objects.size ≤ h'.objects.size :=
  size_le_of_getElem? grown.objects

/-! ### What is held after a change -/

theorem contains_of_lookupFrom {name : String} {steps : Nat} (found : h.lookupFrom name steps s = some v) :
    h.Contains v := by
  induction steps generalizing s with
  | zero => cases found
  | succ steps ih =>
      rw [lookupFrom_step] at found
      rcases Option.or_eq_some_iff.mp found with here | ⟨-, outside⟩
      · exact .bound here
      · obtain ⟨p, -, around⟩ := Option.bind_eq_some_iff.mp outside
        exact ih around

theorem contains_of_lookup {name : String} (found : h.lookup s name = .ok v) : h.Contains v := by
  unfold lookup at found
  split at found
  · rename_i here
    cases found
    exact contains_of_lookupFrom here
  · cases found

theorem Contains.of_eq (holds : h'.Contains w) (scopes : h'.scopes = h.scopes) (arrays : h'.arrays = h.arrays) :
    h.Contains w := by
  cases holds with
  | bound bound =>
      rw [local?, scope?, scopes] at bound
      exact .bound bound
  | parked found parked =>
      rw [scope?, scopes] at found
      exact .parked found parked
  | item mem =>
      rw [items, items?, arrays] at mem
      exact .item mem

theorem contains_setLocal {name : String} (holds : (h.setLocal s name v).Contains w) : h.Contains w ∨ w = v := by
  cases holds with
  | @bound t other bound =>
      by_cases same : s = t ∧ other = name
      · right
        obtain ⟨rfl, rfl⟩ := same
        have valid := lt_of_hasLocal (Option.isSome_iff_exists.mpr ⟨w, bound⟩)
        rw [size_setLocal] at valid
        rw [local?_setLocal_self other v valid] at bound
        exact (Option.some.inj bound).symm
      · left
        rw [local?_setLocal_of_ne v (not_and_or.mp same)] at bound
        exact .bound bound
  | @parked t scope found parked =>
      left
      rw [scope?_setLocal] at found
      split at found
      · obtain ⟨old, before, rfl⟩ := Option.map_eq_some_iff.mp found
        exact .parked before parked
      · exact .parked found parked
  | item mem => exact .inl (.item mem)

/-- A new scope holds nothing. -/
theorem contains_newScope {parent : Option ScopeId} {boundary : Bool}
    (holds : (h.newScope { parent, boundary }).2.Contains w) : h.Contains w := by
  cases holds with
  | bound bound =>
      unfold local? at bound
      rw [scope?_newScope] at bound
      split at bound
      · cases bound
      · exact .bound bound
  | parked found parked =>
      rw [scope?_newScope] at found
      split at found
      · cases found
        cases parked
      · exact .parked found parked
  | item mem => exact .item mem

theorem contains_signalReturn (holds : (h.signalReturn s v).2.Contains w) : h.Contains w ∨ w = v := by
  cases holds with
  | bound bound =>
      rw [local?_signalReturn] at bound
      exact .inl (.bound bound)
  | @parked t scope found parked =>
      unfold signalReturn at found
      split at found
      · exact .inl (.parked found parked)
      · dsimp only at found
        rw [scope?_modifyScope, scope?_foldl_terminate] at found
        split at found
        · obtain ⟨marked, before, rfl⟩ := Option.map_eq_some_iff.mp found
          exact .inr (Option.some.inj parked).symm
        · obtain ⟨old, before, rfl⟩ := Option.map_eq_some_iff.mp found
          exact .inl (.parked before parked)
  | item mem =>
      left
      unfold signalReturn at mem
      split at mem
      · exact .item mem
      · rename_i blocks b _
        dsimp only at mem
        rw [foldl_terminate_withScopes] at mem
        exact .item mem

theorem contains_takeReturned (holds : (h.takeReturned s).2.Contains w) : h.Contains w := by
  cases holds with
  | bound bound =>
      rw [local?_takeReturned] at bound
      exact .bound bound
  | @parked t scope found parked =>
      unfold takeReturned at found
      rw [scope?_modifyScope] at found
      split at found
      · obtain ⟨old, before, rfl⟩ := Option.map_eq_some_iff.mp found
        cases parked
      · exact .parked found parked
  | item mem => exact .item mem

theorem contains_newArray {xs : Array Value} (holds : (h.newArray xs).2.Contains w) : h.Contains w ∨ w ∈ xs := by
  cases holds with
  | bound bound => exact .inl (.bound bound)
  | parked found parked => exact .inl (.parked found parked)
  | item mem =>
      rw [items_newArray] at mem
      split at mem
      · exact .inr mem
      · exact .inl (.item mem)

theorem contains_storeElement {a : ArrayId} {index : Int64} (holds : (h.storeElement a index v).2.Contains w) :
    h.Contains w ∨ w = v := by
  cases position : position? index (h.items a).size with
  | none =>
      rw [storeElement_of_none position] at holds
      exact .inl holds
  | some i =>
      obtain ⟨same, inside⟩ := position?_eq_some_iff.mp position
      rw [storeElement_of_lt same inside] at holds
      cases holds with
      | bound bound => exact .inl (.bound bound)
      | parked found parked => exact .inl (.parked found parked)
      | item mem =>
          rw [items_setElement] at mem
          split at mem
          · rcases Array.mem_or_eq_of_mem_setIfInBounds mem with old | rfl
            · exact .inl (.item old)
            · exact .inr rfl
          · exact .inl (.item mem)

/-- Values that are made one after the other are no classes if none of them is. -/
theorem makeMany_below {make : Heap → Value × Heap}
    (each : ∀ h : Heap, (make h).1.Below 0 ∧ ∀ w, (make h).2.Contains w → h.Contains w ∨ w.Below 0)
    (count : Nat) {made : Array Value} (below : ∀ w ∈ made, w.Below 0) (h : Heap) :
    (∀ w ∈ (makeMany make count made h).1, w.Below 0) ∧
      ∀ w, (makeMany make count made h).2.Contains w → h.Contains w ∨ w.Below 0 := by
  induction count generalizing made h with
  | zero => exact ⟨below, fun _ holds => .inl holds⟩
  | succ count ih =>
      obtain ⟨first, held⟩ := each h
      have more : ∀ w ∈ made.push (make h).1, w.Below 0 := by
        intro w mem
        rcases Array.mem_push.mp mem with old | rfl
        · exact below w old
        · exact first
      obtain ⟨all, after⟩ := ih more (make h).2
      constructor
      · exact all
      · intro w holds
        rcases after w holds with between | new
        · exact held w between
        · exact .inr new

theorem makeArray_below (sizes : List Nat) (h : Heap) :
    (makeArray sizes h).1.Below 0 ∧ ∀ w, (makeArray sizes h).2.Contains w → h.Contains w ∨ w.Below 0 := by
  induction sizes generalizing h with
  | nil => exact ⟨trivial, fun _ holds => .inl holds⟩
  | cons size sizes ih =>
      obtain ⟨all, held⟩ := makeMany_below ih size (fun _ mem => absurd mem (Array.not_mem_empty _)) h
      constructor
      · trivial
      · intro w holds
        rcases contains_newArray holds with old | new
        · exact held w old
        · exact .inr (all w new)

/-! ### The heap stays tidy -/

namespace Tidy

/-- What is held afterwards was held before, or refers to no class that is missing. -/
theorem update (tidy : h.Tidy C) (classes : h'.classes = h.classes) (routines : h'.routines = h.routines)
    (held : ∀ w, h'.Contains w → h.Contains w ∨ w.Below h.classes.size) : h'.Tidy C where
  below {w} holds := by
    rw [classes]
    rcases held w holds with before | below
    · exact tidy.below before
    · exact below
  older found under := by
    rw [classes] at found
    exact tidy.older found under
  classes := by
    rw [classes]
    exact tidy.classes
  routines := by
    rw [routines]
    exact tidy.routines

/-- One value is added to what is held. -/
theorem add (tidy : h.Tidy C) (classes : h'.classes = h.classes) (routines : h'.routines = h.routines)
    (below : v.Below h.classes.size) (held : ∀ w, h'.Contains w → h.Contains w ∨ w = v) : h'.Tidy C := by
  apply tidy.update classes routines
  intro w holds
  rcases held w holds with before | rfl
  · exact .inl before
  · exact .inr below

/-- Nothing is added to what is held. -/
theorem keep (tidy : h.Tidy C) (classes : h'.classes = h.classes) (routines : h'.routines = h.routines)
    (held : ∀ w, h'.Contains w → h.Contains w) : h'.Tidy C :=
  tidy.update classes routines fun w holds => .inl (held w holds)

theorem setLocal (tidy : h.Tidy C) (s : ScopeId) (name : String) (below : v.Below h.classes.size) :
    (h.setLocal s name v).Tidy C :=
  tidy.add rfl rfl below fun _ => contains_setLocal

theorem declare (tidy : h.Tidy C) (s : ScopeId) (name : String) (below : v.Below h.classes.size) :
    (h.declare s name v).2.Tidy C := by
  unfold Heap.declare
  split
  · exact tidy
  · exact tidy.setLocal s name below

theorem newScope (tidy : h.Tidy C) (parent : Option ScopeId) (boundary : Bool) :
    (h.newScope { parent, boundary }).2.Tidy C :=
  tidy.keep rfl rfl fun _ => contains_newScope

theorem signalReturn (tidy : h.Tidy C) (s : ScopeId) (below : v.Below h.classes.size) :
    (h.signalReturn s v).2.Tidy C := by
  have same := signalReturn_sameCode h s v
  exact tidy.add same.classes same.routines below fun _ => contains_signalReturn

theorem takeReturned (tidy : h.Tidy C) (s : ScopeId) : (h.takeReturned s).2.Tidy C :=
  tidy.keep rfl rfl fun _ => contains_takeReturned

theorem newArray (tidy : h.Tidy C) {xs : Array Value} (below : ∀ w ∈ xs, w.Below h.classes.size) :
    (h.newArray xs).2.Tidy C := by
  have held : ∀ w, (h.newArray xs).2.Contains w → h.Contains w ∨ w.Below h.classes.size :=
    fun w holds => (contains_newArray holds).imp_right (below w)
  exact tidy.update rfl rfl held

theorem storeElement (tidy : h.Tidy C) (a : ArrayId) (index : Int64) (below : v.Below h.classes.size) :
    (h.storeElement a index v).2.Tidy C := by
  have same := (storeElement_blind a index v).keeps h
  exact tidy.add same.classes same.routines below fun _ => contains_storeElement

theorem makeArray (tidy : h.Tidy C) (sizes : List Nat) : (h.makeArray sizes).2.Tidy C := by
  have same := (makeArray_blind sizes).keeps h
  apply tidy.update same.classes same.routines
  intro w holds
  exact ((makeArray_below sizes h).2 w holds).imp_right (Value.below_zero _)

theorem setMember (tidy : h.Tidy C) (o : ObjectId) (name : String) (below : v.Below h.classes.size) :
    (h.setMember o name v).2.Tidy C := by
  unfold Heap.setMember
  split
  · exact tidy
  · split
    · exact tidy
    · split
      · exact tidy
      · exact tidy.setLocal _ name below

theorem newRoutine (tidy : h.Tidy C) {r : Routine} (kept : C.routine r.decl) :
    (h.newRoutine r).2.Tidy C where
  below holds := tidy.below (holds.of_eq rfl rfl)
  older := tidy.older
  classes := tidy.classes
  routines r' mem := by
    rcases Array.mem_push.mp mem with old | rfl
    · exact tidy.routines r' old
    · exact kept

/-- The parent of a new class was found among the values, so it is there already. -/
theorem newClass (tidy : h.Tidy C) {decl : ClassDecl} {parent : Option ClassId} (kept : C.classDecl decl)
    (found : h.parentClass decl s = .ok parent) : (h.newClass ⟨decl, s, parent⟩).2.Tidy C where
  below holds := by
    have before := tidy.below (holds.of_eq rfl rfl)
    apply before.mono
    simp [Heap.newClass]
  older {c p cell} there under := by
    change (h.classes.push ⟨decl, s, parent⟩)[c]? = some cell at there
    rw [Array.getElem?_push] at there
    split at there
    · rename_i last
      cases there
      unfold parentClass at found
      split at found
      · cases found
        cases under
      · split at found
        · cases found
        · split at found
          · cases found
          · rename_i id bound
            cases found
            cases under
            rw [last]
            exact tidy.below (contains_of_lookup bound)
          · cases found
    · exact tidy.older there under
  classes cell mem := by
    rcases Array.mem_push.mp mem with old | rfl
    · exact tidy.classes cell old
    · exact kept
  routines := tidy.routines

theorem newObject (tidy : h.Tidy C) (o : Object) : (h.newObject o).2.Tidy C :=
  tidy.keep rfl rfl fun _ holds => holds.of_eq rfl rfl

/-! ### New objects -/

theorem memberValue (tidy : h.Tidy C) (s : ScopeId) {m : Member} (kept : ∀ r ∈ m.routine?, C.routine r) :
    (Heap.memberValue s h m).2.Tidy C ∧ (Heap.memberValue s h m).1.Below 0 ∧
      (Heap.memberValue s h m).2.classes = h.classes := by
  cases m with
  | field visibility span name => exact ⟨tidy, trivial, rfl⟩
  | method visibility span decl =>
      have made : (h.newRoutine ⟨decl, s⟩).2.Tidy C := tidy.newRoutine (kept decl rfl)
      have plain : (h.closure decl s).1.Below 0 := by
        unfold closure
        cases decl.kind <;> trivial
      exact ⟨made, plain, rfl⟩

theorem bindMembers (tidy : h.Tidy C) (s : ScopeId) {members : List Member}
    (kept : ∀ m ∈ members, ∀ r ∈ m.routine?, C.routine r) : (Heap.bindMembers s members h).2.Tidy C := by
  induction members generalizing h with
  | nil => exact tidy
  | cons m rest ih =>
      rw [List.forall_mem_cons] at kept
      obtain ⟨made, plain, -⟩ := tidy.memberValue s kept.1
      have named := made.declare s m.name (Value.below_zero _ plain)
      rw [bindMembers_cons]
      split
      · rename_i h' declared
        rw [declared] at named
        exact ih named kept.2
      · exact named

theorem fillLayer (tidy : h.Tidy C) (c : ClassId) {decl : ClassDecl} (base : Option ObjectId)
    (s : ScopeId) (kept : C.classDecl decl) : (Heap.fillLayer c decl base s h).2.Tidy C := by
  have bound := tidy.bindMembers s (C.methods kept)
  unfold Heap.fillLayer
  split
  · rename_i cause h' failed
    rwa [failed] at bound
  · rename_i h' filled
    rw [filled] at bound
    exact bound.newObject _

theorem newLayer (tidy : h.Tidy C) (c : ClassId) {decl : ClassDecl} (around : ScopeId)
    (base : Option ObjectId) (kept : C.classDecl decl) : (Heap.newLayer c decl around base h).2.Tidy C := by
  have entered : (h.newBlock around).2.Tidy C := tidy.newScope (some around) false
  cases base with
  | none => exact entered.fillLayer c none h.scopes.size kept
  | some o =>
      have named := entered.declare h.scopes.size superName (v := .object o) trivial
      rw [newLayer_some]
      split
      · rename_i cause h' failed
        rwa [failed] at named
      · rename_i h' bound
        rw [bound] at named
        exact named.fillLayer c (some o) h.scopes.size kept

theorem buildFrom (tidy : h.Tidy C) (steps : Nat) (c : ClassId) : (Heap.buildFrom steps c h).2.Tidy C := by
  induction steps generalizing c with
  | zero => exact tidy
  | succ steps ih =>
      unfold Heap.buildFrom
      split
      · exact tidy
      · rename_i cell found
        have kept := tidy.classes cell (Array.mem_of_getElem? found)
        split
        · exact tidy.newLayer c cell.scope none kept
        · rename_i p inherits
          have below := ih p
          split
          · rename_i cause h' failed
            rwa [failed] at below
          · rename_i base h' built
            rw [built] at below
            exact below.newLayer c _ (some base) kept

/-! ### The first heap -/

theorem start (limits : Limits) (world : World) : (Session.start limits world).heap.Tidy C where
  below {w} holds := by
    have plain : ∀ b ∈ builtins, b.2.Below 0 := by
      simp [builtins, NativeFunction.all, Value.Below]
    have only : ∀ {t : ScopeId} {scope : Scope}, (Session.start limits world).heap.scope? t = some scope →
        scope = { bindings := builtins } := by
      intro t scope found
      change (({} : Heap).newScope { bindings := builtins }).2.scope? t = some scope at found
      rw [scope?_newScope] at found
      split at found
      · exact (Option.some.inj found).symm
      · cases found
    cases holds with
    | @bound t name bound =>
        obtain ⟨scope, found, value⟩ := Option.bind_eq_some_iff.mp bound
        rw [only found] at value
        exact Value.below_zero _ (plain _ (Bindings.mem_of_lookup value))
    | parked found parked =>
        rw [only found] at parked
        cases parked
    | item mem => exact absurd mem (Array.not_mem_empty _)
  older found := nomatch found
  classes _ mem := absurd mem (Array.not_mem_empty _)
  routines _ mem := absurd mem (Array.not_mem_empty _)

end Tidy

theorem Orderly.buildFrom (orderly : h.Orderly) (steps : Nat) (c : ClassId) :
    (Heap.buildFrom steps c h).2.Orderly :=
  orderly_iff.mpr ((orderly_iff.mp orderly).buildFrom steps c)

end Heap

end Pseudocode

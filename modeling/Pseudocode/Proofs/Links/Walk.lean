import Pseudocode.Proofs.Classes.References
import Pseudocode.Proofs.Layers
import Pseudocode.Proofs.ScopeTree.Chain

/-!
Walks along the links of a heap.

A scope is linked to the scope around it, a class to its parent class, and a layer of an
object to the layer below. `Walk next stop i path answer` says how a walk along such links
goes that nothing bounds: from `i` to the place that `next` gives, and on from there, until
`stop` gives an answer or there is no link. Where the links lead in a circle, a walk
that gets no answer is not there at all.

The heap is `Linked` when all links lead to older cells. Then every walk comes to an end
(`LinksBack.exists_walk`), and what `lookup`, `resolve?`, `signalReturn`, `layer?` and
`buildObject` find within their bounds is what the unbounded walks find
(`Linked.walksEnd`).
-/

namespace Pseudocode

variable {α : Type} {next : Nat → Option Nat} {stop : Nat → Option α} {i : Nat} {path : List Nat}
  {answer : Option α}

/-- The places that a walk comes to, and the answer it gets. -/
inductive Walk (next : Nat → Option Nat) (stop : Nat → Option α) : Nat → List Nat → Option α → Prop where
  | found {i : Nat} {a : α} (here : stop i = some a) : Walk next stop i [i] (some a)
  | ended {i : Nat} (silent : stop i = none) (last : next i = none) : Walk next stop i [i] none
  | on {i j : Nat} {path : List Nat} {answer : Option α} (silent : stop i = none) (link : next i = some j)
      (rest : Walk next stop j path answer) : Walk next stop i (i :: path) answer

/-- Every link leads to an older place. -/
def LinksBack (next : Nat → Option Nat) : Prop := ∀ ⦃i j : Nat⦄, next i = some j → j < i

theorem LinksBack.wellFounded (back : LinksBack next) : WellFounded fun j i => next i = some j :=
  Subrelation.wf (fun {_ _} link => back link) Nat.lt_wfRel.wf

/-- A walk along links that lead back comes to an end, and to no more places than there are up
to the one where it begins. -/
theorem LinksBack.exists_walk (back : LinksBack next) (stop : Nat → Option α) (i : Nat) :
    ∃ path answer, Walk next stop i path answer ∧ path.length ≤ i + 1 := by
  induction i using back.wellFounded.induction with
  | _ i ih =>
      cases here : stop i with
      | some a => exact ⟨[i], some a, .found here, Nat.le_add_left 1 i⟩
      | none =>
          cases link : next i with
          | none => exact ⟨[i], none, .ended here link, Nat.le_add_left 1 i⟩
          | some j =>
              obtain ⟨path, answer, rest, length⟩ := ih j link
              exact ⟨i :: path, answer, .on here link rest, Nat.succ_le_succ (Nat.le_trans length (back link))⟩

/-- A bounded search that looks at one place and goes on along its link finds what the walk
finds, when the bound is as long as the walk. -/
theorem Walk.search_eq {search : Nat → Nat → Option α} (walk : Walk next stop i path answer)
    (unfolds : ∀ steps i, search (steps + 1) i = (stop i).or ((next i).bind (search steps)))
    {steps : Nat} (enough : path.length ≤ steps) : search steps i = answer := by
  obtain ⟨more, rfl⟩ := Nat.exists_eq_add_of_le' enough
  clear enough
  induction walk with
  | found here => simp [unfolds, here]
  | ended silent last => simp [unfolds, silent, last]
  | on silent link _ ih => simp [← Nat.add_assoc, unfolds, silent, link, ih]

namespace Heap

/-! ### Links -/

/-- The class that a class inherits from. -/
def superclass? (h : Heap) (c : ClassId) : Option ClassId := (h.classes[c]?).bind ClassCell.parent

/-- The layer of the parent class, over which a layer was built. -/
def base? (h : Heap) (o : ObjectId) : Option ObjectId := (h.objects[o]?).bind Object.base

/-- The declaration of a name by the class of a layer, with the layer. -/
def declared? (h : Heap) (name : String) (o : ObjectId) : Option (Object × Member) :=
  (h.objects[o]?).bind fun layer => (h.ownMember? layer name).map (layer, ·)

/-- Every scope, class and layer is younger than the one it is linked to. -/
structure Linked (h : Heap) : Prop where
  scopes : LinksBack h.parent?
  classes : LinksBack h.superclass?
  objects : LinksBack h.base?

/-- The scopes, classes and layers of the first heap are in the second one where they were,
with the same links: others come after them. -/
structure KeepsLinks (h h' : Heap) : Prop where
  scopes : h.scopes.size ≤ h'.scopes.size ∧ ∀ s, s < h.scopes.size → h'.parent? s = h.parent? s
  classes : h.classes.size ≤ h'.classes.size ∧ ∀ c, c < h.classes.size → h'.superclass? c = h.superclass? c
  objects : h.objects.size ≤ h'.objects.size ∧ ∀ o, o < h.objects.size → h'.base? o = h.base? o

variable {h h' : Heap} {s : ScopeId} {c : ClassId} {name : String}

theorem Sound.linksBack (sound : h.Sound) : LinksBack h.parent? := by
  intro s p link
  obtain ⟨scope, found, around⟩ := Option.bind_eq_some_iff.mp link
  exact sound.parent_lt found around

theorem Tidy.linksBack {C : Code} (tidy : h.Tidy C) : LinksBack h.superclass? := by
  intro c p link
  obtain ⟨cell, found, inherits⟩ := Option.bind_eq_some_iff.mp link
  exact tidy.older found inherits

theorem Layered.linksBack (layered : h.Layered) : LinksBack h.base? := by
  intro o b link
  obtain ⟨layer, found, under⟩ := Option.bind_eq_some_iff.mp link
  exact (layered.settled found).older b under

/-- Cells that stay where they are keep what can be read off them. -/
theorem bind_getElem?_eq {β γ : Type} {xs ys : Array β} {f : β → Option γ} {i : Nat}
    (kept : ∀ {i : Nat} {x : β}, xs[i]? = some x → ys[i]? = some x) (valid : i < xs.size) :
    (ys[i]?).bind f = (xs[i]?).bind f := by
  have here := Array.getElem?_eq_getElem valid
  rw [kept here, here]

theorem Run.keepsLinks {P : Feature → Prop} {own : Option ScopeId} (run : Run P own h h') : h.KeepsLinks h' where
  scopes := by
    refine ⟨run.size_le, fun s old => ?_⟩
    rw [parent?_eq, parent?_eq, run.place?_eq old]
  classes := ⟨run.extends.classes_le, fun _ old => bind_getElem?_eq run.extends.classes old⟩
  objects := ⟨run.extends.objects_le, fun _ old => bind_getElem?_eq run.extends.objects old⟩

/-! ### Bounded walks -/

theorem layerFrom_step (h : Heap) (name : String) (steps : Nat) (o : ObjectId) :
    h.layerFrom name (steps + 1) o = (h.declared? name o).or ((h.base? o).bind (h.layerFrom name steps)) := by
  rw [layerFrom, declared?, base?]
  cases h.objects[o]? with
  | none => rfl
  | some layer =>
      cases own : h.ownMember? layer name <;> cases under : layer.base <;> simp [own, under]

/-- The walk of a `return` also lists the scopes that it leaves. -/
theorem boundaryFrom_eq_of_walk {b : Option ScopeId} (walk : Walk h.parent? (Option.guard h.isBoundary) s path b)
    {steps : Nat} (enough : path.length ≤ steps) : h.boundaryFrom steps s = b.map (path.dropLast, ·) := by
  obtain ⟨more, rfl⟩ := Nat.exists_eq_add_of_le' enough
  clear enough
  induction walk with
  | found here =>
      obtain ⟨rfl, boundary⟩ := Option.guard_eq_some_iff.mp here
      simp [boundaryFrom_step, boundary]
  | @ended s silent last =>
      have inside : h.isBoundary s = false := by simpa [Option.guard] using silent
      simp [boundaryFrom_step, inside, last]
  | @on s p path b silent link rest ih =>
      have inside : h.isBoundary s = false := by simpa [Option.guard] using silent
      have longer : path ≠ [] := by cases rest <;> simp
      simp [← Nat.add_assoc, boundaryFrom_step, inside, link, ih, List.dropLast_cons_of_ne_nil longer,
        Option.map_map, Function.comp_def]

/-- The scopes of the path but the last are terminated, and the value is parked in the last
one, if it is a boundary. -/
def returnAlong (h : Heap) (v : Value) (path : List ScopeId) : Option ScopeId → Except Cause Unit × Heap
  | none => (.error .returnOutsideFunction, h)
  | some b => (.ok (), (path.dropLast.foldl terminate h).modifyScope b
      ({ · with terminated := true, returned := some v }))

/-- The layers of an object of class `c` are built on those of an object of its parent class,
which are built first, and so on without a bound. -/
inductive BuildsTo (h : Heap) : ClassId → Except Cause ObjectId × Heap → Prop where
  | oldest {c : ClassId} {cell : ClassCell} (found : h.classes[c]? = some cell) (alone : cell.parent = none) :
      BuildsTo h c (newLayer c cell.decl cell.scope none h)
  | upon {c p : ClassId} {cell : ClassCell} {o : ObjectId} {h' : Heap} (found : h.classes[c]? = some cell)
      (inherits : cell.parent = some p) (below : BuildsTo h p (.ok o, h')) :
      BuildsTo h c (newLayer c cell.decl (h'.objectScope o) (some o) h')
  | failed {c p : ClassId} {cell : ClassCell} {cause : Cause} {h' : Heap} (found : h.classes[c]? = some cell)
      (inherits : cell.parent = some p) (below : BuildsTo h p (.error cause, h')) :
      BuildsTo h c (.error cause, h')

theorem buildsTo_buildFrom (back : LinksBack h.superclass?) (valid : c < h.classes.size) {steps : Nat}
    (enough : c < steps) : h.BuildsTo c (h.buildFrom steps c) := by
  induction steps generalizing c with
  | zero => exact absurd enough (Nat.not_lt_zero c)
  | succ steps ih =>
      obtain ⟨cell, found⟩ : ∃ cell, h.classes[c]? = some cell := ⟨_, Array.getElem?_eq_getElem valid⟩
      rw [buildFrom, found]
      dsimp only
      split
      · rename_i alone
        exact .oldest found alone
      · rename_i p inherits
        have link : h.superclass? c = some p := by rw [superclass?, found, Option.bind_some, inherits]
        have older := back link
        have built := ih (Nat.lt_trans older valid) (Nat.lt_of_lt_of_le older (Nat.le_of_lt_succ enough))
        split
        · rename_i cause h' failed
          rw [failed] at built
          exact .failed found inherits built
        · rename_i o h' made
          rw [made] at built
          exact .upon found inherits built

/-- What is looked for along the links of the heap is what a walk finds that nothing bounds:
the value of a name, the scope that binds it, the boundary of a `return` and the layer that
declares a member. The layers of an object are built as they are without a bound. -/
structure WalksEnd (h : Heap) : Prop where
  lookup : ∀ s name, ∃ path v?, Walk h.parent? (h.local? · name) s path v? ∧ path.length ≤ s + 1 ∧
    h.lookup s name = v?.elim (.error (.undefinedVariable name)) .ok
  resolve : ∀ s name, ∃ path t?, Walk h.parent? (Option.guard (h.hasLocal · name)) s path t? ∧
    path.length ≤ s + 1 ∧ h.resolve? s name = t?
  signalReturn : ∀ s v, ∃ path b?, Walk h.parent? (Option.guard h.isBoundary) s path b? ∧
    path.length ≤ s + 1 ∧ h.signalReturn s v = h.returnAlong v path b?
  layer : ∀ o name, ∃ path layer?, Walk h.base? (h.declared? name) o path layer? ∧
    path.length ≤ o + 1 ∧ h.layer? o name = layer?
  buildObject : ∀ c, c < h.classes.size → h.BuildsTo c (h.buildObject c)

theorem Linked.walksEnd (linked : h.Linked) : h.WalksEnd where
  lookup s name := by
    obtain ⟨path, v?, walk, length⟩ := linked.scopes.exists_walk (h.local? · name) s
    have found : h.lookup? s name = v? := walk.search_eq (h.lookupFrom_step name) length
    refine ⟨path, v?, walk, length, ?_⟩
    rw [Heap.lookup, found]
    cases v? <;> rfl
  resolve s name := by
    obtain ⟨path, t?, walk, length⟩ := linked.scopes.exists_walk (Option.guard (h.hasLocal · name)) s
    exact ⟨path, t?, walk, length, walk.search_eq (h.resolveFrom_step name) length⟩
  signalReturn s v := by
    obtain ⟨path, b?, walk, length⟩ := linked.scopes.exists_walk (Option.guard h.isBoundary) s
    refine ⟨path, b?, walk, length, ?_⟩
    rw [Heap.signalReturn, boundaryFrom_eq_of_walk walk length]
    cases b? <;> rfl
  layer o name := by
    obtain ⟨path, layer?, walk, length⟩ := linked.objects.exists_walk (h.declared? name) o
    exact ⟨path, layer?, walk, length, walk.search_eq (h.layerFrom_step name) length⟩
  buildObject c valid := buildsTo_buildFrom linked.classes valid (Nat.lt_succ_self c)

end Heap

end Pseudocode

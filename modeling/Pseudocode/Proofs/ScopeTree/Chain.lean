import Pseudocode.Proofs.Sound

/-!
The scopes around a scope.

`Chain h s ss` lists the scopes of a heap from `s` outward, the outermost one last.
Where every scope is younger than the scope around it (`Ordered`), each scope has a
chain, and it is never longer than the bound of a walk (`Chain.length_le`). So every
walk outward is a search in this list: for a value (`Chain.lookup?_eq`), for the scope
that binds a name (`Chain.resolve?_eq`), for a boundary (`Chain.boundary?_eq`).
-/

namespace Pseudocode.Heap

/-- Every scope is younger than the scope around it. -/
def Ordered (h : Heap) : Prop :=
  ∀ ⦃t p : ScopeId⦄ ⦃boundary : Bool⦄, h.place? t = some (some p, boundary) → p < t

inductive Chain (h : Heap) : ScopeId → List ScopeId → Prop where
  | outermost {s : ScopeId} {boundary : Bool} (place : h.place? s = some (none, boundary)) :
      Chain h s [s]
  | inside {s p : ScopeId} {boundary : Bool} {ss : List ScopeId}
      (place : h.place? s = some (some p, boundary)) (around : Chain h p ss) : Chain h s (s :: ss)

/-- A scope of a call. -/
def isBoundary (h : Heap) (t : ScopeId) : Bool :=
  match h.scope? t with
  | none => false
  | some scope => scope.boundary

variable {h h' : Heap} {s t : ScopeId} {ss ss' : List ScopeId} {name : String}

theorem boundaryFrom_step (h : Heap) (steps : Nat) (s : ScopeId) :
    h.boundaryFrom (steps + 1) s =
      if h.isBoundary s then some ([], s)
      else (h.parent? s).bind fun p => (h.boundaryFrom steps p).map fun (blocks, b) => (s :: blocks, b) := by
  rw [boundaryFrom, isBoundary, parent?]
  cases h.scope? s with
  | none => rfl
  | some scope => cases around : scope.parent <;> simp [around]

theorem parent?_eq (h : Heap) (s : ScopeId) : h.parent? s = (h.place? s).bind Prod.fst := by
  unfold parent? place?
  cases h.scope? s <;> rfl

theorem exists_scope_of_place? {parent : Option ScopeId} {boundary : Bool}
    (place : h.place? s = some (parent, boundary)) :
    ∃ scope, h.scope? s = some scope ∧ scope.parent = parent ∧ scope.boundary = boundary := by
  obtain ⟨scope, found, same⟩ := Option.map_eq_some_iff.mp place
  cases same
  exact ⟨scope, found, rfl, rfl⟩

theorem exists_place? (valid : s < h.scopes.size) :
    ∃ parent boundary, h.place? s = some (parent, boundary) := by
  obtain ⟨scope, found⟩ := exists_scope? valid
  exact ⟨scope.parent, scope.boundary, by rw [place?, found, Option.map_some]⟩

namespace Chain

theorem unique (first : h.Chain s ss) (second : h.Chain s ss') : ss = ss' := by
  induction first generalizing ss' with
  | outermost place =>
      cases second with
      | outermost _ => rfl
      | inside place' _ =>
          rw [place] at place'
          cases place'
  | inside place _ ih =>
      cases second with
      | outermost place' =>
          rw [place] at place'
          cases place'
      | inside place' around =>
          rw [place] at place'
          cases place'
          rw [ih around]

/-- Where the scopes of a chain lie as they did, it is a chain still. -/
theorem congr (chain : h.Chain s ss) (same : ∀ t ∈ ss, h'.place? t = h.place? t) :
    h'.Chain s ss := by
  induction chain with
  | outermost place =>
      rw [← same _ List.mem_cons_self] at place
      exact .outermost place
  | inside place _ ih =>
      rw [← same _ List.mem_cons_self] at place
      exact .inside place (ih fun t mem => same t (List.mem_cons_of_mem _ mem))

theorem valid (chain : h.Chain s ss) : ∀ t ∈ ss, t < h.scopes.size := by
  have lt_of_place? {t : ScopeId} {place : Option ScopeId × Bool} (found : h.place? t = some place) :
      t < h.scopes.size := by
    obtain ⟨scope, here, -⟩ := exists_scope_of_place? found
    exact lt_of_scope? here
  induction chain with
  | outermost place => exact List.forall_mem_singleton.mpr (lt_of_place? place)
  | inside place _ ih => exact List.forall_mem_cons.mpr ⟨lt_of_place? place, ih⟩

/-- The outermost scope may be the first one that was made, so the walk from `s` takes
at most `s + 1` steps. -/
theorem length_le (chain : h.Chain s ss) (ordered : h.Ordered) : ss.length ≤ s + 1 := by
  induction chain with
  | outermost _ => exact Nat.le_add_left 1 _
  | inside place _ ih =>
      have older := ordered place
      exact Nat.succ_le_succ (Nat.le_trans ih older)

/-! ### Walks -/

theorem lookupFrom_eq (chain : h.Chain s ss) {steps : Nat} (enough : ss.length ≤ steps) :
    h.lookupFrom name steps s = ss.findSome? (h.local? · name) := by
  obtain ⟨more, rfl⟩ := Nat.exists_eq_add_of_le' enough
  clear enough
  induction chain with
  | outermost place => simp [lookupFrom_step, parent?_eq, place]
  | @inside s _ _ _ place _ ih =>
      rw [List.length_cons, ← Nat.add_assoc, lookupFrom_step, parent?_eq, place]
      cases bound : h.local? s name <;> simp [bound, ih]

theorem resolveFrom_eq (chain : h.Chain s ss) {steps : Nat} (enough : ss.length ≤ steps) :
    h.resolveFrom name steps s = ss.find? (h.hasLocal · name) := by
  obtain ⟨more, rfl⟩ := Nat.exists_eq_add_of_le' enough
  clear enough
  induction chain with
  | @outermost s _ place =>
      cases bound : h.hasLocal s name <;> simp [resolveFrom_step, parent?_eq, place, Option.guard, bound]
  | @inside s _ _ _ place _ ih =>
      rw [List.length_cons, ← Nat.add_assoc, resolveFrom_step, parent?_eq, place]
      cases bound : h.hasLocal s name <;> simp [Option.guard, bound, ih]

theorem boundaryFrom_eq (chain : h.Chain s ss) {steps : Nat} (enough : ss.length ≤ steps) :
    h.boundaryFrom steps s =
      (ss.find? h.isBoundary).map fun b => (ss.takeWhile (!h.isBoundary ·), b) := by
  obtain ⟨more, rfl⟩ := Nat.exists_eq_add_of_le' enough
  clear enough
  induction chain with
  | @outermost s _ place =>
      cases bound : h.isBoundary s <;> simp [boundaryFrom_step, parent?_eq, place, bound]
  | @inside s _ _ _ place _ ih =>
      rw [List.length_cons, ← Nat.add_assoc, boundaryFrom_step, parent?_eq, place]
      cases bound : h.isBoundary s <;> simp [bound, ih, Option.map_map, Function.comp_def]

variable (ordered : h.Ordered)
include ordered

theorem lookup?_eq (chain : h.Chain s ss) : h.lookup? s name = ss.findSome? (h.local? · name) :=
  chain.lookupFrom_eq (chain.length_le ordered)

theorem resolve?_eq (chain : h.Chain s ss) : h.resolve? s name = ss.find? (h.hasLocal · name) :=
  chain.resolveFrom_eq (chain.length_le ordered)

theorem boundary?_eq (chain : h.Chain s ss) :
    h.boundaryFrom (s + 1) s =
      (ss.find? h.isBoundary).map fun b => (ss.takeWhile (!h.isBoundary ·), b) :=
  chain.boundaryFrom_eq (chain.length_le ordered)

end Chain

theorem Ordered.exists_chain (ordered : h.Ordered) (valid : s < h.scopes.size) :
    ∃ ss, h.Chain s ss := by
  induction s using Nat.strongRecOn with
  | ind s ih =>
      obtain ⟨parent, boundary, place⟩ := exists_place? valid
      cases parent with
      | none => exact ⟨[s], .outermost place⟩
      | some p =>
          have older := ordered place
          obtain ⟨ss, around⟩ := ih p older (Nat.lt_trans older valid)
          exact ⟨s :: ss, .inside place around⟩

end Pseudocode.Heap

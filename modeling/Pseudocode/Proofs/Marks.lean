import Pseudocode.Proofs.Sound

/-!
What a `return` writes on scopes.

A scope is its bindings and its marks. `Alike h h'` says that the scopes of `h`
have the same marks in `h'`. A `return` in scope `s` is then described by what it
marks, the scopes from `s` to the nearest boundary, and this depends on the marks
of the older scopes alone (`Alike.signalReturn`). Inside a block it marks, apart
from the scope of the block, what it marks outside (`alike_signalReturn_newBlock`);
in the scope of a call it marks no other scope (`alike_signalReturn_newCall`).
-/

namespace Pseudocode

/-- The scope without its bindings. -/
def Scope.marks (s : Scope) : Scope := { s with bindings := [] }

namespace Heap

variable {h h' h'' : Heap} {s t : ScopeId}

def marks? (h : Heap) (t : ScopeId) : Option Scope := (h.scope? t).map Scope.marks

/-- The scopes of the first heap have the same marks in the second. -/
def Alike (h h' : Heap) : Prop := ∀ t < h.scopes.size, h'.marks? t = h.marks? t

/-! ### Marks under each operation -/

theorem marks?_of_scope? {scope : Scope} (found : h.scope? t = some scope) :
    h.marks? t = some scope.marks := by
  unfold marks?
  rw [found]
  rfl

theorem lt_of_marks? {marks : Scope} (found : h.marks? t = some marks) : t < h.scopes.size := by
  unfold marks? at found
  obtain ⟨scope, here, -⟩ := Option.map_eq_some_iff.mp found
  exact lt_of_scope? here

theorem Alike.refl : h.Alike h := fun _ _ => rfl

theorem Alike.size_le (alike : h.Alike h') : h.scopes.size ≤ h'.scopes.size := by
  apply Nat.le_of_not_lt
  intro fewer
  obtain ⟨scope, found⟩ := exists_scope? fewer
  have same := alike _ fewer
  rw [marks?_of_scope? found] at same
  exact Nat.lt_irrefl _ (lt_of_marks? same)

theorem Alike.trans (first : h.Alike h') (second : h'.Alike h'') : h.Alike h'' := by
  intro t old
  rw [second t (Nat.lt_of_lt_of_le old first.size_le), first t old]

theorem alike_of_scopes_eq (same : h'.scopes = h.scopes) : h.Alike h' := by
  intro t _
  simp only [marks?, scope?, same]

/-- A change of one scope's marks, whatever its bindings. -/
theorem marks?_modifyScope (h : Heap) (t : ScopeId) {f : Scope → Scope}
    (marking : ∀ scope, (f scope).marks = f scope.marks) (s : ScopeId) :
    (h.modifyScope t f).marks? s = if t = s then (h.marks? s).map f else h.marks? s := by
  unfold marks?
  rw [scope?_modifyScope]
  split
  · cases h.scope? s with
    | none => rfl
    | some scope => exact congrArg some (marking scope)
  · rfl

theorem alike_setLocal (h : Heap) (t : ScopeId) (name : String) (v : Value) :
    h.Alike (h.setLocal t name v) := by
  intro s _
  unfold marks?
  rw [scope?_setLocal]
  split
  · cases h.scope? s <;> rfl
  · rfl

theorem alike_newScope (h : Heap) (scope : Scope) : h.Alike (h.newScope scope).2 := by
  intro t old
  unfold marks?
  rw [scope?_newScope, if_neg (Nat.ne_of_lt old)]

theorem isTerminated_eq (h : Heap) (t : ScopeId) :
    h.isTerminated t = ((h.marks? t).map Scope.terminated).getD false := by
  unfold isTerminated marks?
  cases h.scope? t <;> rfl

theorem Alike.isTerminated (alike : h.Alike h') (old : t < h.scopes.size) :
    h'.isTerminated t = h.isTerminated t := by
  rw [isTerminated_eq, isTerminated_eq, alike t old]

theorem takeReturned_fst (h : Heap) (t : ScopeId) :
    (h.takeReturned t).1 = (h.marks? t).bind Scope.returned := by
  unfold takeReturned marks?
  cases h.scope? t <;> rfl

theorem alike_takeReturned_of_ge (h : Heap) {t : ScopeId} {h₀ : Heap} (alike : h₀.Alike h)
    (new : h₀.scopes.size ≤ t) : h₀.Alike (h.takeReturned t).2 := by
  intro s old
  have other : t ≠ s := Nat.ne_of_gt (Nat.lt_of_lt_of_le old new)
  unfold takeReturned
  rw [marks?_modifyScope, if_neg other]
  · exact alike s old
  · intro scope
    rfl

/-! ### The scopes that a `return` marks -/

/-- The scopes from `s` outward up to the nearest boundary. -/
def boundary? (h : Heap) (s : ScopeId) : Option (List ScopeId × ScopeId) := h.boundaryFrom (s + 1) s

theorem boundaryFrom_succ (h : Heap) (steps : Nat) (s : ScopeId) :
    h.boundaryFrom (steps + 1) s =
      match h.marks? s with
      | none => none
      | some marks =>
          if marks.boundary then some ([], s)
          else match marks.parent with
            | none => none
            | some p => (h.boundaryFrom steps p).map fun (blocks, b) => (s :: blocks, b) := by
  unfold marks?
  rw [boundaryFrom]
  cases h.scope? s <;> rfl

theorem Sound.parent_lt_of_marks? (sound : h.Sound) {marks : Scope} {p : ScopeId}
    (found : h.marks? s = some marks) (around : marks.parent = some p) : p < s := by
  unfold marks? at found
  obtain ⟨scope, here, rfl⟩ := Option.map_eq_some_iff.mp found
  exact sound.parent_lt here around

theorem Alike.boundaryFrom_eq (alike : h.Alike h') (sound : h.Sound) (steps : Nat)
    (old : s < h.scopes.size) : h'.boundaryFrom steps s = h.boundaryFrom steps s := by
  induction steps generalizing s with
  | zero => rfl
  | succ steps ih =>
      rw [boundaryFrom_succ, boundaryFrom_succ, alike s old]
      cases found : h.marks? s with
      | none => rfl
      | some marks =>
          cases around : marks.parent with
          | none => simp only [around]
          | some p =>
              have older := sound.parent_lt_of_marks? found around
              simp only [around, ih (Nat.lt_trans older old)]

theorem Alike.boundary?_eq (alike : h.Alike h') (sound : h.Sound) (old : s < h.scopes.size) :
    h'.boundary? s = h.boundary? s :=
  alike.boundaryFrom_eq sound (s + 1) old

/-- The marks after scopes were terminated. -/
theorem marks?_foldl_terminate (blocks : List ScopeId) (h : Heap) (t : ScopeId) :
    (blocks.foldl terminate h).marks? t =
      if t ∈ blocks then (h.marks? t).map ({ · with terminated := true }) else h.marks? t := by
  unfold marks?
  rw [scope?_foldl_terminate]
  by_cases inside : t ∈ blocks
  · cases h.scope? t <;> simp [inside, Scope.marks]
  · cases h.scope? t <;> simp [inside]

theorem marks?_signalReturn {blocks : List ScopeId} {b : ScopeId}
    (found : h.boundary? s = some (blocks, b)) (v : Value) (t : ScopeId) :
    (h.signalReturn s v).2.marks? t =
      if b = t then (h.marks? t).map ({ · with terminated := true, returned := some v })
      else if t ∈ blocks then (h.marks? t).map ({ · with terminated := true })
      else h.marks? t := by
  unfold boundary? at found
  simp only [signalReturn, found]
  rw [marks?_modifyScope, marks?_foldl_terminate]
  · by_cases inside : t ∈ blocks
    · simp only [inside, if_true, Option.map_map]
      rfl
    · simp only [inside, if_false]
  · intro scope
    rfl

theorem signalReturn_of_none (outside : h.boundary? s = none) (v : Value) :
    h.signalReturn s v = (.error .returnOutsideFunction, h) := by
  unfold boundary? at outside
  simp only [signalReturn, outside]

theorem signalReturn_ok {blocks : List ScopeId} {b : ScopeId}
    (found : h.boundary? s = some (blocks, b)) (v : Value) : (h.signalReturn s v).1 = .ok () := by
  unfold boundary? at found
  simp only [signalReturn, found]

/-- A `return` marks the same scopes in heaps with the same marks. -/
theorem Alike.signalReturn (alike : h.Alike h') (sound : h.Sound) (old : s < h.scopes.size)
    (v : Value) : (h.signalReturn s v).2.Alike (h'.signalReturn s v).2 := by
  intro t older
  rw [size_signalReturn] at older
  have same := alike.boundary?_eq sound old
  cases found : h.boundary? s with
  | none =>
      rw [found] at same
      rw [signalReturn_of_none found, signalReturn_of_none same]
      exact alike t older
  | some chain =>
      obtain ⟨blocks, b⟩ := chain
      rw [found] at same
      rw [marks?_signalReturn found, marks?_signalReturn same, alike t older]

/-- The walk from the scope of a new block goes on outside it. -/
theorem boundary?_newBlock (sound : h.Sound) (valid : s < h.scopes.size) :
    (h.newBlock s).2.boundary? h.scopes.size =
      (h.boundary? s).map fun (blocks, b) => (h.scopes.size :: blocks, b) := by
  have made : (h.newBlock s).2.scope? h.scopes.size = some { parent := some s } := by
    rw [newBlock, scope?_newScope, if_pos rfl]
  have outside : (h.newBlock s).2.boundaryFrom h.scopes.size s = h.boundary? s := by
    have alike : h.Alike (h.newBlock s).2 := h.alike_newScope _
    rw [alike.boundaryFrom_eq sound _ valid]
    exact sound.boundaryFrom_eq valid
  unfold boundary?
  rw [boundaryFrom, made]
  exact congrArg (Option.map _) outside

/-- In a new block, a `return` marks what it marks outside, and the block. -/
theorem alike_signalReturn_newBlock (sound : h.Sound) (valid : s < h.scopes.size) (v : Value) :
    (h.signalReturn s v).2.Alike ((h.newBlock s).2.signalReturn h.scopes.size v).2 := by
  intro t old
  rw [size_signalReturn] at old
  have made : (h.newBlock s).2.marks? t = h.marks? t := h.alike_newScope _ t old
  have walk := boundary?_newBlock sound valid
  cases found : h.boundary? s with
  | none =>
      rw [found] at walk
      rw [signalReturn_of_none found, signalReturn_of_none walk]
      exact made
  | some chain =>
      obtain ⟨blocks, b⟩ := chain
      rw [found] at walk
      have other : t ≠ h.scopes.size := Nat.ne_of_lt old
      rw [marks?_signalReturn found, marks?_signalReturn walk, made]
      simp only [List.mem_cons, other, false_or]

/-- In the scope of a call, a `return` marks no other scope. -/
theorem boundary?_newCall (h : Heap) (s : ScopeId) :
    (h.newCall s).2.boundary? h.scopes.size = some ([], h.scopes.size) := by
  have made : (h.newCall s).2.scope? h.scopes.size = some { parent := some s, boundary := true } := by
    rw [newCall, scope?_newScope, if_pos rfl]
  unfold boundary?
  rw [boundaryFrom, made]
  rfl

theorem alike_signalReturn_newCall (h : Heap) (s : ScopeId) (v : Value) :
    h.Alike ((h.newCall s).2.signalReturn h.scopes.size v).2 := by
  intro t old
  have other : h.scopes.size ≠ t := Nat.ne_of_gt old
  rw [marks?_signalReturn (h.boundary?_newCall s), if_neg other, if_neg List.not_mem_nil]
  exact h.alike_newScope _ t old

/-- The walk to the boundary starts at the scope itself. -/
theorem mem_of_boundaryFrom {steps : Nat} {blocks : List ScopeId} {b : ScopeId}
    (found : h.boundaryFrom steps s = some (blocks, b)) :
    (∃ marks, h.marks? s = some marks) ∧ (b = s ∨ s ∈ blocks) := by
  cases steps with
  | zero => cases found
  | succ steps =>
      rw [boundaryFrom_succ] at found
      split at found
      · cases found
      · rename_i marks here
        refine ⟨⟨marks, here⟩, ?_⟩
        split at found
        · cases found
          exact .inl rfl
        · split at found
          · cases found
          · obtain ⟨⟨rest, b'⟩, _, equal⟩ := Option.map_eq_some_iff.mp found
            cases equal
            exact .inr List.mem_cons_self

/-- The scope of a `return` is among those it marks. -/
theorem isTerminated_signalReturn {blocks : List ScopeId} {b : ScopeId}
    (found : h.boundary? s = some (blocks, b)) (v : Value) :
    (h.signalReturn s v).2.isTerminated s = true := by
  obtain ⟨⟨marks, here⟩, among⟩ := mem_of_boundaryFrom found
  rw [isTerminated_eq, marks?_signalReturn found, here]
  by_cases last : b = s
  · rw [if_pos last]
    rfl
  · rw [if_neg last, if_pos (among.resolve_left last)]
    rfl

/-- The value that a `return` in the scope of a call parks there. -/
theorem returned_signalReturn_newCall (h : Heap) (s : ScopeId) (v : Value) :
    (((h.newCall s).2.signalReturn h.scopes.size v).2.marks? h.scopes.size).bind Scope.returned
      = some v := by
  have made : (h.newCall s).2.marks? h.scopes.size = some { parent := some s, boundary := true } := by
    unfold marks?
    rw [newCall, scope?_newScope, if_pos rfl]
    rfl
  rw [marks?_signalReturn (h.boundary?_newCall s), if_pos rfl, made]
  rfl

/-! ### The outermost scope -/

/-- A walk to the boundary ends before a scope with nothing around it. -/
theorem not_mem_of_boundaryFrom {steps : Nat} {blocks : List ScopeId} {b root : ScopeId}
    {marks : Scope} (found : h.boundaryFrom steps s = some (blocks, b))
    (here : h.marks? root = some marks) (outermost : marks.parent = none)
    (within : marks.boundary = false) : b ≠ root ∧ root ∉ blocks := by
  induction steps generalizing s blocks with
  | zero => cases found
  | succ steps ih =>
      rw [boundaryFrom_succ] at found
      split at found
      · cases found
      · rename_i marks' here'
        split at found
        · rename_i isBoundary
          cases found
          refine ⟨?_, List.not_mem_nil⟩
          rintro rfl
          rw [here] at here'
          cases here'
          rw [within] at isBoundary
          cases isBoundary
        · split at found
          · cases found
          · rename_i p around
            obtain ⟨⟨rest, b'⟩, walk, equal⟩ := Option.map_eq_some_iff.mp found
            cases equal
            obtain ⟨apart, outside⟩ := ih walk
            refine ⟨apart, ?_⟩
            intro mem
            rcases List.mem_cons.mp mem with rfl | mem
            · rw [here] at here'
              cases here'
              rw [outermost] at around
              cases around
            · exact outside mem

/-- The scope has nothing around it, is not that of a call and was not left by a
`return`. -/
structure Outermost (h : Heap) (root : ScopeId) : Prop where
  place : h.place? root = some (none, false)
  running : h.isTerminated root = false

/-- A `return` never marks the outermost scope. -/
theorem isTerminated_signalReturn_root {root : ScopeId} (place : h.place? root = some (none, false))
    (v : Value) : (h.signalReturn s v).2.isTerminated root = h.isTerminated root := by
  unfold place? at place
  obtain ⟨scope, found, equal⟩ := Option.map_eq_some_iff.mp place
  have here := marks?_of_scope? found
  cases walk : h.boundary? s with
  | none => rw [signalReturn_of_none walk]
  | some chain =>
      obtain ⟨blocks, b⟩ := chain
      obtain ⟨apart, outside⟩ := not_mem_of_boundaryFrom walk here (congrArg Prod.fst equal)
        (congrArg Prod.snd equal)
      rw [isTerminated_eq, isTerminated_eq, marks?_signalReturn walk, if_neg apart, if_neg outside]

theorem Run.outermost {P : Feature → Prop} {own : Option ScopeId} (run : Run P own h h')
    {root : ScopeId} (outermost : h.Outermost root) : h'.Outermost root := by
  have old : root < h.scopes.size := by
    apply Nat.lt_of_not_le
    intro absent
    have place := outermost.place
    rw [place?_eq_none_iff.mpr absent] at place
    cases place
  refine ⟨(run.place?_eq old).trans outermost.place, ?_⟩
  have place := outermost.place
  rw [← outermost.running]
  clear outermost
  induction run with
  | aside scopes code => simp only [isTerminated, scope?, scopes]
  | trans first _ ih ih' =>
      rw [ih' (Nat.lt_of_lt_of_le old first.size_le) ((first.place?_eq old).trans place),
        ih old place]
  | bind name v => exact Alike.isTerminated (alike_setLocal _ _ name v) old
  | assign name v permitted => exact Alike.isTerminated (alike_setLocal _ _ name v) old
  | setField v found => exact Alike.isTerminated (alike_setLocal _ _ _ v) old
  | closure decl permitted => rfl
  | classCell decl parent permitted found => rfl
  | layer base found bound => rfl
  | signal v => exact isTerminated_signalReturn_root place v
  | @take s h =>
      unfold isTerminated takeReturned
      rw [scope?_modifyScope]
      by_cases same : s = root
      · rw [if_pos same]
        cases h.scope? root <;> rfl
      · rw [if_neg same]
  | enter boundary lives inner ih =>
      rw [ih (by rw [size_newScope]; exact Nat.lt_succ_of_lt old)
        ((place?_newScope_of_lt _ old).trans place)]
      exact Alike.isTerminated (alike_newScope _ _) old

end Heap

/-- The outermost scope of a session is never left by a `return`. -/
theorem Session.Reachable.outermost {session : Session} (reachable : session.Reachable) :
    session.heap.Outermost session.globals := by
  induction reachable with
  | start limits world => exact ⟨rfl, rfl⟩
  | @run session _ p ih =>
      obtain ⟨run, same⟩ := session.run_heap p
      rw [same]
      exact run.outermost ih
  | @execute session _ source ih =>
      rw [session.execute_heap source |>.2]
      exact (session.execute_heap source).1.outermost ih

end Pseudocode

import Pseudocode.Proofs.ScopeTree.Steps
import Pseudocode.Proofs.Moments

/-!
Returning in trees of scopes.

A `return` looks along the chain outward from its scope for the nearest boundary. When
there is one, exactly the scopes up to it are terminated and it alone holds the value
(`Unwound`), which can be taken from it once (`Emptied`). When there is none, the heap
stays the one it was: no scope is marked before a boundary is found.
-/

namespace Pseudocode

namespace Heap

/-- The second heap is the first one after a `return` through the blocks to boundary `b`. -/
structure Unwound (h : Heap) (blocks : List ScopeId) (b : ScopeId) (v : Value) (h' : Heap) :
    Prop where
  scopes : ∀ t, h'.scope? t = (h.scope? t).map fun scope =>
    { scope with
      terminated := scope.terminated || decide (t ∈ blocks ++ [b])
      returned := if t = b then some v else scope.returned }
  rest : h' = h.withScopes h'.scopes

/-- The second heap is the first one without the value that scope `b` holds, and to take
it again gives nothing and changes nothing. -/
structure Emptied (h : Heap) (b : ScopeId) (h' : Heap) : Prop where
  scopes : ∀ t, h'.scope? t = (h.scope? t).map fun scope =>
    { scope with returned := if t = b then none else scope.returned }
  rest : h' = h.withScopes h'.scopes
  again : h'.takeReturned b = (none, h')

variable {h : Heap} {s t b : ScopeId} {ss blocks outer : List ScopeId} {v : Value}

/-! ### The nearest boundary -/

theorem Chain.boundary?_eq_none (chain : h.Chain s ss) (ordered : h.Ordered)
    (free : ∀ t ∈ ss, h.isBoundary t = false) : h.boundaryFrom (s + 1) s = none := by
  rw [chain.boundary?_eq ordered, List.find?_eq_none.mpr, Option.map_none]
  intro t mem
  rw [free t mem]
  exact Bool.false_ne_true

theorem Chain.boundary?_eq_some (chain : h.Chain s (blocks ++ b :: outer)) (ordered : h.Ordered)
    (inside : ∀ t ∈ blocks, h.isBoundary t = false) (boundary : h.isBoundary b = true) :
    h.boundaryFrom (s + 1) s = some (blocks, b) := by
  have passed : ∀ t ∈ blocks, (!h.isBoundary t) = true := by
    intro t mem
    rw [inside t mem, Bool.not_false]
  have nearest : (blocks ++ b :: outer).find? h.isBoundary = some b :=
    List.find?_eq_some_iff_append.mpr ⟨boundary, blocks, outer, rfl, passed⟩
  have before : (blocks ++ b :: outer).takeWhile (!h.isBoundary ·) = blocks := by
    rw [List.takeWhile_append_of_pos passed, List.takeWhile_cons_of_neg (by simp [boundary]),
      List.append_nil]
  rw [chain.boundary?_eq ordered, nearest, before, Option.map_some]

theorem exists_nearest_boundary (bounded : ∃ t ∈ ss, h.isBoundary t = true) :
    ∃ blocks b outer, ss = blocks ++ b :: outer ∧ (∀ t ∈ blocks, h.isBoundary t = false) ∧
      h.isBoundary b = true := by
  obtain ⟨b, found⟩ := Option.isSome_iff_exists.mp (List.find?_isSome.mpr bounded)
  obtain ⟨boundary, blocks, outer, split, passed⟩ := List.find?_eq_some_iff_append.mp found
  simp only [Bool.not_eq_true'] at passed
  exact ⟨blocks, b, outer, split, passed, boundary⟩

/-! ### Marks and values -/

theorem unwound_signalReturn (found : h.boundaryFrom (s + 1) s = some (blocks, b)) (v : Value) :
    (h.signalReturn s v).1 = .ok () ∧ h.Unwound blocks b v (h.signalReturn s v).2 := by
  have rest := h.signalReturn_withScopes s v
  unfold signalReturn at rest ⊢
  rw [found] at rest ⊢
  refine ⟨rfl, ?_, rest⟩
  intro t
  rw [scope?_modifyScope, scope?_foldl_terminate]
  by_cases last : t = b
  · subst last
    cases h.scope? t <;> simp
  · have other : b ≠ t := Ne.symm last
    cases h.scope? t <;> simp [last, other]

theorem modifyScope_eq_self {f : Scope → Scope}
    (fixed : ∀ scope, h.scope? b = some scope → f scope = scope) : h.modifyScope b f = h := by
  have same : h.scopes.modify b f = h.scopes := by
    apply Array.ext_getElem?
    intro t
    rw [Array.getElem?_modify]
    split
    · rename_i here
      subst here
      cases found : h.scopes[b]? with
      | none => rfl
      | some scope => exact congrArg some (fixed scope found)
    · rfl
  rw [modifyScope, same]

theorem emptied_takeReturned (h : Heap) (b : ScopeId) : h.Emptied b (h.takeReturned b).2 := by
  have scopes : ∀ t, (h.takeReturned b).2.scope? t = (h.scope? t).map fun scope =>
      { scope with returned := if t = b then none else scope.returned } := by
    intro t
    simp only [takeReturned, scope?_modifyScope]
    by_cases here : t = b
    · subst here
      simp
    · have other : b ≠ t := Ne.symm here
      simp [here, other]
  have gone : ((h.takeReturned b).2.scope? b).bind Scope.returned = none := by
    rw [scopes]
    cases h.scope? b <;> simp
  refine ⟨scopes, rfl, Prod.ext gone (modifyScope_eq_self ?_)⟩
  intro scope found
  rw [found, Option.bind_some] at gone
  rw [← gone]

end Heap

open Heap

/-- A `return` is exact and leaves nothing half done, in every scope of every tree. -/
theorem ScopeTree.signalReturn_exact {h : Heap} {s : ScopeId} (tree : ScopeTree h)
    (valid : s < h.scopes.size) (v : Value) :
    ∃ ss, h.Chain s ss ∧
      ((∀ t ∈ ss, h.isBoundary t = false) →
        h.signalReturn s v = (.error .returnOutsideFunction, h)) ∧
      ((∃ t ∈ ss, h.isBoundary t = true) →
        ∃ blocks b outer, ss = blocks ++ b :: outer ∧
          (∀ t ∈ blocks, h.isBoundary t = false) ∧ h.isBoundary b = true ∧
          ∃ h' h'', h.signalReturn s v = (.ok (), h') ∧ h.Unwound blocks b v h' ∧
            h'.takeReturned b = (some v, h'') ∧ h'.Emptied b h'') := by
  have ordered := tree.ordered
  obtain ⟨ss, chain⟩ := ordered.exists_chain valid
  refine ⟨ss, chain, ?_, ?_⟩
  · intro free
    rw [signalReturn, chain.boundary?_eq_none ordered free]
  · intro bounded
    obtain ⟨blocks, b, outer, rfl, inside, boundary⟩ := exists_nearest_boundary bounded
    have found := chain.boundary?_eq_some ordered inside boundary
    obtain ⟨done, unwound⟩ := unwound_signalReturn found v
    obtain ⟨scope, here⟩ := exists_scope? (chain.valid b (by simp))
    have held : ((h.signalReturn s v).2.takeReturned b).1 = some v := by
      simp [takeReturned, unwound.scopes, here]
    exact ⟨blocks, b, outer, rfl, inside, boundary, _, _, Prod.ext done rfl, unwound,
      Prod.ext held rfl, emptied_takeReturned _ b⟩

/-- A `return` from a block inside a call. -/
theorem ScopeTree.signalReturn_exact_in_block :
    ∃ h : Heap, ScopeTree h ∧ h.Chain 2 [2, 1, 0] ∧ h.isBoundary 1 = true ∧
      (h.signalReturn 2 (.integer 3)).1 = .ok () := by
  have root := ScopeTree.empty.step .newRoot (by nofun)
  have call := root.step (.newCall 0) (by rintro _ ⟨⟩; exact Nat.zero_lt_one)
  have block := call.step (.newBlock 1) (by rintro _ ⟨⟩; exact Nat.one_lt_two)
  obtain ⟨ss, chain, -, bounded⟩ := block.signalReturn_exact (s := 2) (by decide) (.integer 3)
  obtain rfl : ss = [2, 1, 0] := chain.unique (.inside rfl (.inside rfl (.outermost rfl)))
  obtain ⟨_, _, _, _, _, _, _, _, done, -⟩ := bounded ⟨1, by simp, rfl⟩
  exact ⟨_, block, chain, rfl, congrArg Prod.fst done⟩

end Pseudocode

import Pseudocode.Proofs.Classes.Tracked

/-!
Evaluation of proper code.

Where code is proper, tidy heaps are orderly ones. `Preserves n R x` and
`Careful ctx n R x` say of orderly heaps what `Upholds` and `Tracked` say of tidy ones, so
that evaluation of proper code is careful (`Tracked.careful`), and careful actions keep
heaps orderly (`Careful.preserves`).
-/

namespace Pseudocode

/-- However an action ended that began with `n` classes, the heap is orderly and no class
is gone; a result is as `R` says for the number of classes that there are now. -/
def Outcome.Within {α : Type} (n : Nat) (R : Nat → α → Prop) : Outcome α → Prop
  | .done a m => m.heap.Orderly ∧ n ≤ m.heap.classes.size ∧ R m.heap.classes.size a
  | .failed _ m | .crashed _ m => m.heap.Orderly ∧ n ≤ m.heap.classes.size
  | .exhausted => True

theorem Outcome.within_iff {α : Type} {n : Nat} {R : Nat → α → Prop} {o : Outcome α} :
    o.Within n R ↔ o.Ends .proper n R := by
  cases o with
  | done a m => exact and_congr_left fun _ => Heap.orderly_iff
  | failed _ m | crashed _ m => exact and_congr_left fun _ => Heap.orderly_iff
  | exhausted => exact Iff.rfl

theorem Outcome.Within.orderly {α : Type} {n : Nat} {R : Nat → α → Prop} {o : Outcome α}
    (ended : o.Within n R) : o.All fun m => m.heap.Orderly :=
  (within_iff.mp ended).tidy.imp fun _ => Heap.orderly_iff.mpr

namespace Action

variable {ctx : Context} {α β : Type} {n : Nat} {R : Nat → α → Prop} {x : Action α}

def Preserves (n : Nat) (R : Nat → α → Prop) (x : Action α) : Prop :=
  ∀ m, m.heap.Orderly → n ≤ m.heap.classes.size → (x m).Within m.heap.classes.size R

theorem preserves_iff : Preserves n R x ↔ Upholds .proper n R x := by
  unfold Preserves Upholds
  simp only [Heap.orderly_iff, Outcome.within_iff]

inductive Careful (ctx : Context) : Nat → {α : Type} → (Nat → α → Prop) → Action α → Prop where
  | leaf {n : Nat} {α : Type} {R : Nat → α → Prop} {x : Action α} (kept : Preserves n R x) : Careful ctx n R x
  | call {n : Nat} (id : RoutineId) {args : List Value} (span : Span) (below : AllBelow n args) :
      Careful ctx n Value.Below (ctx.call id args span)
  | bind {n : Nat} {α β : Type} {R : Nat → α → Prop} {R' : Nat → β → Prop} {x : Action α}
      {f : α → Action β} (first : Careful ctx n R x)
      (second : ∀ k a, n ≤ k → R k a → Careful ctx k R' (f a)) : Careful ctx n R' (x >>= f)
  | orAt {n : Nat} {α : Type} {R : Nat → α → Prop} {x : Action α} (span : Span)
      (inner : Careful ctx n R x) : Careful ctx n R (orAt span x)
  | deeper {n : Nat} {α : Type} {R : Nat → α → Prop} {x : Action α} (inner : Careful ctx n R x) :
      Careful ctx n R (deeper x)

theorem Tracked.careful (tracked : Tracked .proper ctx n R x) : Careful ctx n R x := by
  induction tracked with
  | leaf kept => exact .leaf (preserves_iff.mpr kept)
  | call id span below => exact .call id span below
  | bind _ _ first second => exact .bind first second
  | orAt span _ ih => exact .orAt span ih
  | deeper _ ih => exact .deeper ih

theorem Careful.tracked (careful : Careful ctx n R x) : Tracked .proper ctx n R x := by
  induction careful with
  | leaf kept => exact .leaf (preserves_iff.mp kept)
  | call id span below => exact .call id span below
  | bind _ _ first second => exact .bind first second
  | orAt span _ ih => exact .orAt span ih
  | deeper _ ih => exact .deeper ih

variable {limits : Limits} {fuel : Nat}

/-- Careful actions keep heaps orderly. -/
theorem Careful.preserves {left : Nat} (careful : Careful (contextAt limits fuel left) n R x) :
    Preserves n R x :=
  preserves_iff.mpr careful.tracked.upholds

end Action

end Pseudocode

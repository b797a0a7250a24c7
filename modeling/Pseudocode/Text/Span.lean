/-!
Spans: half-open ranges of byte offsets into a source text.

Every token, every node of a program and every error carries a span. The span
`Span.unplaced` stands for "no location": operations on values fail without
one, and the construct that ran them supplies its own (`Span.orElse`).
-/

namespace Pseudocode

/-- The bytes from `start` up to, not including, `stop`. -/
structure Span where
  start : Nat
  stop : Nat
  deriving DecidableEq, Repr, Inhabited

namespace Span

/-- The span of something that has no location. -/
def unplaced : Span := ⟨0, 0⟩

/-- A span is placed unless both ends are zero. -/
def isUnplaced (s : Span) : Bool := s.start == 0 && s.stop == 0

/-- The smallest span that covers both. -/
def merge (a b : Span) : Span := ⟨min a.start b.start, max a.stop b.stop⟩

/-- The span itself when it is placed, else the other one. -/
def orElse (s other : Span) : Span := if s.isUnplaced then other else s

theorem isUnplaced_iff {s : Span} : s.isUnplaced = true ↔ s = unplaced := by
  cases s
  simp [isUnplaced, unplaced]

@[simp] theorem orElse_unplaced (other : Span) : unplaced.orElse other = other := rfl

theorem orElse_of_placed {s : Span} (h : s.isUnplaced = false) (other : Span) :
    s.orElse other = s := by
  simp [orElse, h]

@[simp] theorem merge_self (s : Span) : s.merge s = s := by
  simp [merge]

end Span

end Pseudocode

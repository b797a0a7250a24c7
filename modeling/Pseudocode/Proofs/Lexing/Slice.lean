import Pseudocode.Proofs.Spans.Tokens

/-!
The text at a span, and the position of an offset.

`Span.slice?` cuts a span out of a text. It gives nothing when an end of the span is
past the end of the text or inside a character. `lineColumn` finds the position that
a walk over the text has reached at an offset (`lineColumn_eq`), and no two positions
of a text have the same line and column (`Position.place_after_ne`).
-/

namespace Pseudocode

/-! ### Slices -/

/-- The first bytes of a text and the rest of it, if they end between characters. -/
def splitBytes? : Nat → List Char → Option (List Char × List Char)
  | 0, cs => some ([], cs)
  | _ + 1, [] => none
  | n + 1, c :: cs =>
      if c.utf8Size ≤ n + 1 then
        (splitBytes? (n + 1 - c.utf8Size) cs).map fun parts => (c :: parts.1, parts.2)
      else none

theorem splitBytes?_append (before after : List Char) :
    splitBytes? (byteLength before) (before ++ after) = some (before, after) := by
  induction before with
  | nil => simp [splitBytes?]
  | cons c before ih =>
      have size := c.utf8Size_pos
      obtain ⟨n, eq⟩ := Nat.exists_eq_add_one.mpr (byteLength_pos (List.cons_ne_nil c before))
      have sum : c.utf8Size + byteLength before = n + 1 := eq
      have left : n + 1 - c.utf8Size = byteLength before := by omega
      rw [eq, List.cons_append, splitBytes?, if_pos (by omega), left, ih]
      rfl

theorem splitBytes?_eq_some {n : Nat} {cs before after : List Char} :
    splitBytes? n cs = some (before, after) ↔ cs = before ++ after ∧ n = byteLength before := by
  constructor
  · intro found
    induction cs generalizing n before with
    | nil =>
        cases n with
        | zero =>
            cases found
            exact ⟨rfl, rfl⟩
        | succ n => cases found
    | cons c cs ih =>
        cases n with
        | zero =>
            cases found
            exact ⟨rfl, rfl⟩
        | succ n =>
            rw [splitBytes?] at found
            split at found
            · rename_i fits
              obtain ⟨⟨first, rest⟩, more, eq⟩ := Option.map_eq_some_iff.mp found
              obtain ⟨rfl, rfl⟩ := Prod.mk.inj eq
              obtain ⟨rfl, left⟩ := ih more
              refine ⟨rfl, ?_⟩
              rw [byteLength_cons]
              dsimp only at left ⊢
              omega
            · cases found
  · rintro ⟨rfl, rfl⟩
    exact splitBytes?_append before after

/-- The text at a span, if it has both ends between characters. -/
def Span.slice? (s : Span) (cs : List Char) : Option (List Char) :=
  if s.start ≤ s.stop then do
    let (_, rest) ← splitBytes? s.start cs
    let (part, _) ← splitBytes? (s.stop - s.start) rest
    return part
  else none

theorem Span.slice?_eq_some {s : Span} {cs part : List Char} :
    s.slice? cs = some part ↔ ∃ before after, cs = before ++ (part ++ after) ∧
      s.start = byteLength before ∧ s.stop = byteLength before + byteLength part := by
  unfold slice?
  constructor
  · intro found
    split at found
    · rename_i ordered
      simp only [Option.bind_eq_bind, Option.bind_eq_some_iff, Prod.exists, Option.pure_def,
        Option.some.injEq] at found
      obtain ⟨before, rest, first, part', after, second, rfl⟩ := found
      obtain ⟨rfl, start⟩ := splitBytes?_eq_some.mp first
      obtain ⟨rfl, size⟩ := splitBytes?_eq_some.mp second
      exact ⟨before, after, rfl, start, by omega⟩
    · cases found
  · rintro ⟨before, after, rfl, start, stop⟩
    have size : s.stop - s.start = byteLength part := by omega
    rw [if_pos (by omega), size, start, splitBytes?_append]
    simp [splitBytes?_append]

/-! ### Positions -/

namespace Position

/-- The walk to an offset between characters stops there. -/
theorem seek_after (p : Position) (before after : List Char) :
    seek (p.after before).offset p (before ++ after) = p.after before := by
  induction before generalizing p with
  | nil =>
      cases after with
      | nil => rfl
      | cons c after => simp [seek]
  | cons c before ih =>
      have size := c.utf8Size_pos
      have offset : ((p.next c).after before).offset = p.offset + c.utf8Size + byteLength before := by
        rw [offset_after, offset_next]
      rw [after_cons, List.cons_append, seek, if_neg (by omega)]
      exact ih (p.next c)

/-- The line and column of a position. -/
def place (p : Position) : Nat × Nat := (p.line, p.column)

/-- Lines and columns tell positions of one text apart: each character leads to a
later line, or further on in the same line. -/
theorem place_after_lt (p : Position) {cs : List Char} (some : cs ≠ []) :
    p.line < (p.after cs).line ∨ p.line = (p.after cs).line ∧ p.column < (p.after cs).column := by
  have step (p : Position) (c : Char) :
      p.line < (p.next c).line ∨ p.line = (p.next c).line ∧ p.column < (p.next c).column := by
    unfold next
    split
    · exact .inl (Nat.lt_succ_self _)
    · exact .inr ⟨rfl, Nat.lt_succ_self _⟩
  induction cs generalizing p with
  | nil => exact absurd rfl some
  | cons c cs ih =>
      have first := step p c
      cases cs with
      | nil => exact first
      | cons d cs =>
          have rest := ih (p.next c) (List.cons_ne_nil d cs)
          rw [after_cons]
          omega

theorem place_after_ne (p : Position) {cs : List Char} (some : cs ≠ []) :
    (p.after cs).place ≠ p.place := by
  intro same
  obtain ⟨line, column⟩ := Prod.mk.inj same
  have later := p.place_after_lt some
  omega

end Position

theorem lineColumn_eq {source : String} {before after : List Char}
    (whole : source.toList = before ++ after) :
    lineColumn source (byteLength before) = (Position.first.after before).place := by
  have offset : (Position.first.after before).offset = byteLength before := by
    rw [Position.offset_after]
    exact Nat.zero_add _
  have found := Position.seek_after .first before after
  unfold lineColumn
  rw [offset] at found
  rw [whole, found]
  rfl

/-- Later offsets between characters have other lines and columns. -/
theorem lineColumn_ne {source : String} {before after before' after' : List Char}
    (whole : source.toList = before ++ after) (whole' : source.toList = before' ++ after')
    (later : byteLength before < byteLength before') :
    lineColumn source (byteLength before') ≠ lineColumn source (byteLength before) := by
  rw [lineColumn_eq whole, lineColumn_eq whole']
  rcases List.append_eq_append_iff.mp (whole.symm.trans whole') with ⟨more, rfl, _⟩ | ⟨more, rfl, _⟩
  · have some : more ≠ [] := by
      rintro rfl
      simp at later
    rw [Position.after_append]
    exact Position.place_after_ne _ some
  · rw [byteLength_append] at later
    omega

end Pseudocode

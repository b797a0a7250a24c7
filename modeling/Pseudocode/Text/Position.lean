/-!
Positions: where a character stands in a text, as a byte offset and as a line
and column.

Lines and columns count from one, columns count characters, and only a line
feed starts a new line. `Position.after` walks forward over text that has been
read; `lineColumn` finds the line and column of any offset from the start of
the text.
-/

namespace Pseudocode

structure Position where
  offset : Nat
  line : Nat
  column : Nat
  deriving DecidableEq, Repr, Inhabited

namespace Position

/-- The position of the first character. -/
def first : Position := ⟨0, 1, 1⟩

/-- The position just after `c`, when `c` stands at `p`. -/
def next (p : Position) (c : Char) : Position :=
  if c = '\n' then ⟨p.offset + c.utf8Size, p.line + 1, 1⟩
  else ⟨p.offset + c.utf8Size, p.line, p.column + 1⟩

/-- The position just after the characters `cs`, when they stand at `p`. -/
def after (p : Position) (cs : List Char) : Position := cs.foldl next p

@[simp] theorem after_nil (p : Position) : p.after [] = p := rfl

@[simp] theorem after_cons (p : Position) (c : Char) (cs : List Char) :
    p.after (c :: cs) = (p.next c).after cs := rfl

theorem after_append (p : Position) (cs ds : List Char) :
    p.after (cs ++ ds) = (p.after cs).after ds := by
  simp [after, List.foldl_append]

/-- The first position at or past `offset` that the walk from `p` over `cs`
reaches; the end of the text when there is none. -/
def seek (offset : Nat) : Position → List Char → Position
  | p, [] => p
  | p, c :: cs => if offset ≤ p.offset then p else seek offset (p.next c) cs

end Position

/-- The line and column of a byte offset. An offset inside a character counts as
the one after it, an offset past the end as the end. -/
def lineColumn (source : String) (offset : Nat) : Nat × Nat :=
  let p := Position.seek offset .first source.toList
  (p.line, p.column)

/-- The number of bytes in which `cs` is written. -/
def byteLength : List Char → Nat
  | [] => 0
  | c :: cs => c.utf8Size + byteLength cs

@[simp] theorem byteLength_nil : byteLength [] = 0 := rfl

@[simp] theorem byteLength_cons (c : Char) (cs : List Char) :
    byteLength (c :: cs) = c.utf8Size + byteLength cs := rfl

theorem byteLength_append (cs ds : List Char) :
    byteLength (cs ++ ds) = byteLength cs + byteLength ds := by
  induction cs with
  | nil => simp
  | cons c cs ih => rw [List.cons_append, byteLength_cons, byteLength_cons, ih, Nat.add_assoc]

namespace Position

theorem offset_next (p : Position) (c : Char) : (p.next c).offset = p.offset + c.utf8Size := by
  unfold next
  split <;> rfl

theorem offset_after (p : Position) (cs : List Char) :
    (p.after cs).offset = p.offset + byteLength cs := by
  induction cs generalizing p with
  | nil => rfl
  | cons c cs ih => rw [after_cons, ih, offset_next, byteLength_cons, Nat.add_assoc]

end Position

end Pseudocode

/-!
White space: the characters with the Unicode property White_Space, and texts
with it removed at their ends.
-/

namespace Pseudocode.Text

/-- The code points with the property White_Space, as inclusive ranges. -/
def blankRanges : List (Nat × Nat) :=
  [(0x9, 0xD), (0x20, 0x20), (0x85, 0x85), (0xA0, 0xA0), (0x1680, 0x1680), (0x2000, 0x200A),
   (0x2028, 0x2029), (0x202F, 0x202F), (0x205F, 0x205F), (0x3000, 0x3000)]

/-- White space of any script. -/
def isBlank (c : Char) : Bool := blankRanges.any fun r => r.1 ≤ c.toNat && c.toNat ≤ r.2

/-- A list with the elements that satisfy `p` removed at its end. -/
def dropEnd {α : Type} (p : α → Bool) (xs : List α) : List α := (xs.reverse.dropWhile p).reverse

/-- The text without white space at its end. -/
def trimEnd (s : String) : String := String.ofList (dropEnd isBlank s.toList)

/-- The text without white space at either end. -/
def trim (s : String) : String := String.ofList (dropEnd isBlank (s.toList.dropWhile isBlank))

/-- The characters of ASCII that leave a mark are not blank. -/
theorem not_isBlank_of_graphic {c : Char} (low : 0x21 ≤ c.toNat) (high : c.toNat ≤ 0x7E) :
    isBlank c = false := by
  simp only [isBlank, blankRanges, List.any_eq_false, Bool.and_eq_true, decide_eq_true_eq,
    List.mem_cons, List.not_mem_nil, or_false]
  rintro _ (rfl | rfl | rfl | rfl | rfl | rfl | rfl | rfl | rfl | rfl) <;> omega

end Pseudocode.Text

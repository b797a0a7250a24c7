import Pseudocode.Binary64.Basic

/-!
Random numbers.

A generator is any function that draws numbers from ranges and keeps to the laws of
`Generator`: it draws from a range exactly when the range is proper, and what it draws lies
in the range. Everything else about it is left open.
-/

namespace Pseudocode

/-- A range that a number is drawn from. -/
inductive Draw where
  /-- The integers from `first` to `last`, both included. -/
  | integer (first last : Int64)
  /-- The floats from `first` up to, not including, `last`. -/
  | float (first last : Float)

/-- The range has numbers in it. A range of floats must have a finite width, too. -/
def Draw.Proper : Draw → Prop
  | integer first last => first.toInt ≤ last.toInt
  | float first last => first < last ∧ (last - first).isFinite

instance : DecidablePred Draw.Proper
  | .integer first last => inferInstanceAs (Decidable (first.toInt ≤ last.toInt))
  | .float first last => inferInstanceAs (Decidable (first < last ∧ (last - first).isFinite))

/-- A source of random numbers. What is drawn depends on the range and on all ranges drawn
from before, the latest first. Without a number the one who asked crashes. -/
structure Generator where
  integer : List Draw → Int64 → Int64 → Option Int64
  float : List Draw → Float → Float → Option Float
  integer_isSome : ∀ drawn first last,
    (integer drawn first last).isSome ↔ (Draw.integer first last).Proper
  integer_mem : ∀ {drawn first last n}, integer drawn first last = some n →
    first.toInt ≤ n.toInt ∧ n.toInt ≤ last.toInt
  float_isSome : ∀ drawn first last, (float drawn first last).isSome ↔ (Draw.float first last).Proper
  float_mem : ∀ {drawn first last x}, float drawn first last = some x → first ≤ x ∧ x < last

namespace Generator

open Float.Model in
/-- A float below another one is a number, and so it is not above itself. -/
theorem le_self_of_lt {x y : Float} (below : x < y) : x ≤ x := by
  have number : x.toModel.unpack.compare y.toModel.unpack = some .lt := by
    have holds : x.toModel < y.toModel := of_decide_eq_true below
    exact eq_of_beq holds
  have same : x.toModel.unpack.compare x.toModel.unpack = some .eq := by
    generalize x.toModel.unpack = u at number
    cases u with
    | notANumber => cases number
    | zero sign => rfl
    | infinity sign => cases sign <;> rfl
    | finite sign m e pos =>
        have equal : (compare e e).then (compare m m) = .eq :=
          Ordering.then_eq_eq.mpr ⟨Std.ReflCmp.compare_self, Std.ReflCmp.compare_self⟩
        cases sign with
        | negative => exact congrArg (fun o => some (Ordering.swap o)) equal
        | positive => exact congrArg some equal
  have le : x.toModel ≤ x.toModel := by
    change Option.any (·.isLE) (x.toModel.unpack.compare x.toModel.unpack) = true
    rw [same]
    rfl
  exact decide_eq_true le

/-- A generator that follows a wish where the range has it, and gives the first number of
the range where it has not. -/
def guided (integer : List Draw → Int64 → Int64 → Int64) (float : List Draw → Float → Float → Float) :
    Generator where
  integer drawn first last :=
    let n := integer drawn first last
    if first.toInt ≤ n.toInt ∧ n.toInt ≤ last.toInt then some n
    else if first.toInt ≤ last.toInt then some first
    else none
  float drawn first last :=
    let x := float drawn first last
    if (Draw.float first last).Proper then some (if first ≤ x ∧ x < last then x else first) else none
  integer_isSome drawn first last := by
    dsimp only [Draw.Proper]
    split
    · rename_i inside
      exact ⟨fun _ => Int.le_trans inside.1 inside.2, fun _ => rfl⟩
    · split <;> simp [*]
  integer_mem given := by
    dsimp only at given
    split at given
    · cases given
      assumption
    · split at given
      · cases given
        exact ⟨Int.le_refl _, by assumption⟩
      · cases given
  float_isSome drawn first last := by
    dsimp only
    split <;> simp [*]
  float_mem given := by
    dsimp only at given
    split at given
    · rename_i proper
      cases given
      split
      · assumption
      · exact ⟨le_self_of_lt proper.1, proper.1⟩
    · cases given

/-- The generator that always draws the first number. -/
def lowest : Generator := guided (fun _ first _ => first) fun _ first _ => first

instance : Inhabited Generator := ⟨lowest⟩

/-! ### Pseudo-random numbers -/

/-- The word at a place of the sequence that a seed stands for. -/
def word (seed : UInt64) (place : Nat) : UInt64 :=
  let z := seed + 0x9E3779B97F4A7C15 * (UInt64.ofNat place + 1)
  let z := (z ^^^ (z >>> 30)) * 0xBF58476D1CE4E5B9
  let z := (z ^^^ (z >>> 27)) * 0x94D049BB133111EB
  z ^^^ (z >>> 31)

/-- The integer of a range that a word stands for. -/
def integerOf (word : UInt64) (first last : Int64) : Int64 :=
  let count := (last.toInt - first.toInt).toNat + 1
  Int64.ofInt (first.toInt + (word.toNat % count : Nat))

/-- The float that lies as far on the way from one float to another as a word on the way to
`2 ^ 64`. -/
def floatOf (word : UInt64) (first last : Float) : Float :=
  first + Binary64.ofRatio false (word.toNat / twoPow 11) (twoPow 53) * (last - first)

/-- The generator of the command line. -/
def seeded (seed : UInt64) : Generator :=
  guided (fun drawn => integerOf (word seed drawn.length)) fun drawn =>
    floatOf (word seed drawn.length)

end Generator

end Pseudocode

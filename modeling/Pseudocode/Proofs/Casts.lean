import Pseudocode.Native.Cast
import Pseudocode.Proofs.Binary64.Digits

/-!
The cast to an integer.

A number that is an integer of the language becomes this integer. Not every other number
is refused: the greatest double that is accepted is `2 ^ 63`, one more than the greatest
integer, and becomes the greatest integer (`floorToInteger_cast`); and digits whose value
is out of range are read as a double first, so that all of them that round to one of the
limits become this limit (`toInteger_casts`).
-/

namespace Pseudocode

open Binary64 Integer

namespace Native

/-- The number that is cast: the floor of a float, which has none when it is infinite or not
a number, or the integer that a text writes as an optional sign and digits. -/
inductive Means : Value → Option Int → Prop
  | float {x : Float} {q : ℚ} (number : number? x = some (.finite q)) : Means (.float x) (some ⌊q⌋)
  | unbounded {x : Float} (special : ∀ q, number? x ≠ some (.finite q)) : Means (.float x) none
  | text {s : String} {z : Int} (writes : Decimal.Writes (Text.trim s).toList z) :
      Means (.text s) (some z)

/-- What becomes of a number. Beyond the limits, it may miss the greatest integer by at most
`above` and the least one by at most `below` and still become that. -/
inductive Cast (above below : Nat) : Option Int → Except Cause Value → Prop
  | exact {z : Int} {n : Int64} (same : n.toInt = z) : Cast above below (some z) (.ok (.integer n))
  | greatest {z : Int} {n : Int64} (limit : n.toInt = Integer.greatest)
      (beyond : Integer.greatest < z) (near : z ≤ Integer.greatest + above) :
      Cast above below (some z) (.ok (.integer n))
  | least {z : Int} {n : Int64} (limit : n.toInt = Integer.least) (beyond : z < Integer.least)
      (near : Integer.least ≤ z + below) : Cast above below (some z) (.ok (.integer n))
  | refused {z : Int} (far : Integer.greatest + above < z ∨ z + below < Integer.least) (cause : Cause) :
      Cast above below (some z) (.error cause)
  | unbounded (cause : Cause) : Cast above below none (.error cause)

namespace Cast

variable {above below : Nat} {z : Int}

theorem accepted {r : Except Cause Value} (cast : Cast above below (some z) r)
    (low : Integer.least ≤ z + below) (high : z ≤ Integer.greatest + above) :
    ∃ n, r = .ok (.integer n) := by
  cases cast with
  | exact same => exact ⟨_, rfl⟩
  | greatest limit => exact ⟨_, rfl⟩
  | least limit => exact ⟨_, rfl⟩
  | refused far => omega

/-- A number that is accepted is cut off at the limits. -/
theorem clamped {n : Int64} (cast : Cast above below (some z) (.ok (.integer n))) :
    n.toInt = max Integer.least (min z Integer.greatest) := by
  have order : Integer.least < Integer.greatest := by decide
  have bounds := toInt_bounds n
  cases cast with
  | exact same => omega
  | greatest limit => omega
  | least limit => omega

end Cast

/-! ### Floats -/

theorem floorToInteger_cast {x : Float} {q : ℚ} (number : number? x = some (.finite q)) :
    Cast 1 0 (some ⌊q⌋) (floorToInteger x) := by
  unfold floorToInteger
  rw [floor?_of_finite number]
  dsimp only
  split
  · rename_i bounds
    split
    · rename_i fits
      exact .exact (Int64.toInt_ofInt_of_le bounds.1 (Int.lt_add_one_of_le fits))
    · rename_i beyond
      exact .greatest (by decide) (Int.not_le.mp beyond) bounds.2
  · rename_i out
    exact .refused (by omega) _

theorem floorToInteger_refused {x : Float} (unbounded : ∀ q, number? x ≠ some (.finite q)) :
    floorToInteger x = .error (.misuse (.outOfIntegerRange (Decimal.floatText x))) := by
  rw [floorToInteger, floor?_eq_none_iff.mpr unbounded]

theorem parseFinite?_of_finite {s : String} {x : Float} {q : ℚ}
    (read : Decimal.parseDouble? (Text.trim s).toList = some x)
    (finite : number? x = some (.finite q)) : parseFinite? s = some x := by
  unfold parseFinite?
  rw [read]
  unfold number? at finite
  cases shape : shape x <;> rw [shape] at finite
  case finite => simp only [shape]
  all_goals cases finite

theorem parseFinite?_of_infinite {s : String} {x : Float} {negative : Bool}
    (read : Decimal.parseDouble? (Text.trim s).toList = some x)
    (infinite : number? x = some (.infinite negative)) : parseFinite? s = none := by
  unfold parseFinite?
  rw [read]
  unfold number? at infinite
  cases shape : shape x <;> rw [shape] at infinite
  case infinite => simp only [shape]
  all_goals cases infinite

end Native

/-! ### Digits -/

/-- Rounding does not take a number across the limit `2 ^ 63`, but takes those that are
nearer to it than to the next double to the limit itself. -/
theorem Binary64.rounded_limit {m : Nat} (large : 2 ^ 63 ≤ m) :
    2 ^ 63 ≤ rounded m ∧ (rounded m ≤ 2 ^ 63 ↔ m ≤ 2 ^ 63 + 1024) := by
  have some : m ≠ 0 := by omega
  have bits : 63 ≤ m.log2 := (Nat.le_log2 some).mpr large
  by_cases huge : 2 ^ 64 ≤ m
  · have more : 64 ≤ m.log2 := (Nat.le_log2 some).mpr huge
    have unit : 2 ^ 12 ≤ 2 ^ excess m := Nat.pow_le_pow_right (by decide) (by unfold excess; omega)
    have mantissa := (mantissa_bounds (m := m) (by unfold excess; omega)).1.trans (le_roundDiv ..)
    have product : 2 ^ 52 * 2 ^ 12 ≤ rounded m := Nat.mul_le_mul mantissa unit
    omega
  · have less : m.log2 < 64 := (Nat.log2_lt some).mpr (Nat.not_le.mp huge)
    have unit : excess m = 11 := by
      unfold excess
      omega
    rw [rounded, unit]
    rcases roundDiv_cases m (2 ^ 11) with ⟨down, half, even⟩ | ⟨up, half, odd⟩
    · rw [down]
      omega
    · rw [up]
      omega

namespace Native

/-- The cast of the double nearest to an integer that is out of range. -/
theorem Cast.of_rounded {z : Int} {r : Except Cause Value}
    (out : z < Integer.least ∨ Integer.greatest < z)
    (cast : Cast 1 0 (some (z.sign * rounded z.natAbs)) r) : Cast 1025 1024 (some z) r := by
  have limits : Integer.greatest = 2 ^ 63 - 1 ∧ Integer.least = -2 ^ 63 := by decide
  obtain ⟨low, near⟩ := rounded_limit (m := z.natAbs) (by omega)
  rcases out with under | beyond
  · rw [Int.sign_eq_neg_one_of_neg (by omega)] at cast
    cases cast with
    | @exact _ n same =>
        have bounds := toInt_bounds n
        exact .least (by omega) under (by omega)
    | greatest limit beyond => omega
    | least limit under near => omega
    | refused far => exact .refused (by omega) _
  · rw [Int.sign_eq_one_of_pos (by omega)] at cast
    cases cast with
    | @exact _ n same =>
        have bounds := toInt_bounds n
        omega
    | greatest limit _ near => exact .greatest limit beyond (by omega)
    | least limit under near => omega
    | refused far => exact .refused (by omega) _

/-- An integer written with digits is read by the cast as a word if it fits, and else as
the double nearest to it. -/
theorem toInteger_digits {s : String} {z : Int} (writes : Decimal.Writes (Text.trim s).toList z) :
    Cast 1025 1024 (some z) (toInteger (.text s)) := by
  unfold toInteger
  dsimp only
  rw [writes.parse?]
  cases fits : narrow? z with
  | some n => exact .exact (narrow?_eq_some_iff.mp fits)
  | none =>
      have out := narrow?_eq_none_iff.mp fits
      obtain ⟨x, read, finite | ⟨large, negative, infinite⟩⟩ := writes.parseDouble?
      · have cast := floorToInteger_cast finite
        have whole : ⌊(z.sign * rounded z.natAbs : ℚ)⌋ = z.sign * rounded z.natAbs := by
          exact_mod_cast Int.floor_intCast (z.sign * rounded z.natAbs)
        rw [whole] at cast
        rw [parseFinite?_of_finite read finite]
        exact cast.of_rounded out
      · rw [parseFinite?_of_infinite read infinite]
        refine .refused ?_ _
        unfold Integer.least Integer.greatest at *
        omega

theorem number?_two_pow_63 : number? 9223372036854775808 = some (.finite (2 ^ 63)) := by
  have shape : shape 9223372036854775808 = .finite false (2 ^ 52) 11 := rfl
  rw [number?_of_finite shape]
  norm_num [signed]

theorem writes_below_least :
    Decimal.Writes (Text.trim " -9223372036854775809").toList (-9223372036854775809) := by
  have digits : Decimal.isDigits "9223372036854775809".toList = true := rfl
  have trimmed : (Text.trim " -9223372036854775809").toList = '-' :: "9223372036854775809".toList :=
    rfl
  have value : Decimal.value "9223372036854775809".toList = 9223372036854775809 := rfl
  have writes := Decimal.Writes.minus digits
  rwa [value, ← trimmed] at writes

/-- How far beyond the limits a float or a text may lie and still become a limit. -/
def tolerance : Value → Nat × Nat
  | .float _ => (1, 0)
  | _ => (1025, 1024)

/-- The cast to an integer gives the floor of a float, or the integer that a text writes,
when that is an integer of the language. Otherwise it refuses the number, but for the float
`2 ^ 63` and the digits of numbers that round to a limit as a double: these become the
limit. -/
theorem toInteger_casts {v : Value} {z : Option Int} (means : Means v z) :
    Cast (tolerance v).1 (tolerance v).2 z (toInteger v) := by
  cases means with
  | float number => exact floorToInteger_cast number
  | unbounded special =>
      rw [toInteger, floorToInteger_refused special]
      exact .unbounded _
  | text writes => exact toInteger_digits writes

/-- The float `2 ^ 63`, an infinity, and the integer below the least one. -/
theorem toInteger_casts_limits :
    Cast 1 0 (some ⌊(2 ^ 63 : ℚ)⌋) (toInteger (.float 9223372036854775808)) ∧
    Cast 1 0 none (toInteger (.float (Binary64.pack true 0 4000))) ∧
    Cast 1025 1024 (some (-9223372036854775809)) (toInteger (.text " -9223372036854775809")) := by
  refine ⟨toInteger_casts (.float number?_two_pow_63), toInteger_casts (.unbounded ?_),
    toInteger_casts (.text writes_below_least)⟩
  intro q finite
  rw [Decimal.number?_overflow] at finite
  cases finite

/-- Neither the float `2 ^ 63` nor the digits of the integer below the least one are refused. -/
theorem toInteger_beyond_limits :
    (number? 9223372036854775808 = some (.finite (2 ^ 63)) ∧
      toInteger (.float 9223372036854775808) = .ok (.integer 9223372036854775807)) ∧
    (Decimal.Writes (Text.trim " -9223372036854775809").toList (-9223372036854775809) ∧
      toInteger (.text " -9223372036854775809") = .ok (.integer (-9223372036854775808))) := by
  have floor : ⌊(2 ^ 63 : ℚ)⌋ = 9223372036854775808 := by norm_num
  refine ⟨⟨number?_two_pow_63, ?_⟩, writes_below_least, ?_⟩
  · have cast := floorToInteger_cast number?_two_pow_63
    rw [floor] at cast
    obtain ⟨n, result⟩ := cast.accepted (by decide) (by decide)
    rw [result] at cast
    have limit : n = 9223372036854775807 := Int64.toInt_inj.mp (cast.clamped.trans (by decide))
    rw [toInteger, result, limit]
  · have cast := toInteger_digits writes_below_least
    obtain ⟨n, result⟩ := cast.accepted (by decide) (by decide)
    rw [result] at cast
    have limit : n = -9223372036854775808 := Int64.toInt_inj.mp (cast.clamped.trans (by decide))
    rw [result, limit]

end Native

end Pseudocode

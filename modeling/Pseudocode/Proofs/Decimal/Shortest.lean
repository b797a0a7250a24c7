import Pseudocode.Decimal.Shortest
import Pseudocode.Proofs.Binary64.Rounding

/-!
What the shortest decimal of a double is.

Over the rationals the interval of a double is what lies within half a step of it, or
within a quarter below a power of two. A grid of seventeen digits is finer than that, so a
decimal is always found (`exists_shortest`), and it is a number of the interval
(`shortest_has`). It has no exponent below that of the last of seventeen digits
(`le_shortest_exponent`).
-/

namespace Pseudocode.Decimal

open Binary64 (Canonical leastExponent zpow_eq_div twoPow_eq)

theorem tenPow_eq (n : Nat) : tenPow n = 10 ^ n := rfl

/-! ### The number of digits -/

theorem digitCount_pos (n : Nat) : 0 < digitCount n := Nat.length_toDigits_pos

theorem lt_pow_digitCount (n : Nat) : n < 10 ^ digitCount n :=
  (Nat.length_toDigits_le_iff (by decide) (digitCount_pos n)).mp (Nat.le_refl _)

theorem pow_digitCount_le {n : Nat} (pos : 0 < n) : 10 ^ (digitCount n - 1) ≤ n := by
  by_cases one : digitCount n = 1
  · rw [one]
    exact pos
  · have some := digitCount_pos n
    by_contra small
    have few : digitCount n ≤ digitCount n - 1 :=
      (Nat.length_toDigits_le_iff (by decide) (by omega)).mpr (Nat.not_le.mp small)
    omega

theorem Tie.resolve_cases (tie : Tie) (n : Nat) : tie.resolve n = n ∨ tie.resolve n = n + 1 := by
  cases tie with
  | upper => exact .inr rfl
  | even =>
      unfold resolve
      dsimp only
      split
      · exact .inl rfl
      · exact .inr rfl

namespace Interval

variable {i : Interval} {k : Int} {n : Nat} {q : ℚ}

/-! ### Intervals of rationals -/

def lower (i : Interval) : ℚ := i.low / i.den

def middle (i : Interval) : ℚ := i.mid / i.den

def upper (i : Interval) : ℚ := i.high / i.den

/-- The number is in the interval. -/
def Has (i : Interval) (q : ℚ) : Prop :=
  if i.closed then i.lower ≤ q ∧ q ≤ i.upper else i.lower < q ∧ q < i.upper

theorem Has.bounds (has : i.Has q) : i.lower ≤ q ∧ q ≤ i.upper := by
  unfold Has at has
  split at has
  · exact has
  · exact ⟨has.1.le, has.2.le⟩

theorem has_of_lt (above : i.lower < q) (below : q < i.upper) : i.Has q := by
  unfold Has
  split
  · exact ⟨above.le, below.le⟩
  · exact ⟨above, below⟩

theorem contains_iff (pos : 0 < i.den) : i.contains n = true ↔ i.Has n := by
  have den : (0 : ℚ) < i.den := by exact_mod_cast pos
  unfold contains Has lower upper
  rw [div_le_iff₀ den, le_div_iff₀ den, div_lt_iff₀ den, lt_div_iff₀ den]
  norm_cast
  split <;> simp

/-! ### Units -/

/-- Moving a scale from the numerator of a quotient to its denominator. -/
theorem scaled_div (a d : Nat) (k : Int) :
    ((a * tenPow (-k).toNat : Nat) : ℚ) / (d * tenPow k.toNat : Nat) = a / d / 10 ^ k := by
  rw [zpow_eq_div, tenPow_eq, tenPow_eq]
  push_cast
  field_simp

theorem lower_inUnits (i : Interval) (k : Int) : (i.inUnits k).lower = i.lower / 10 ^ k :=
  scaled_div i.low i.den k

theorem middle_inUnits (i : Interval) (k : Int) : (i.inUnits k).middle = i.middle / 10 ^ k :=
  scaled_div i.mid i.den k

theorem upper_inUnits (i : Interval) (k : Int) : (i.inUnits k).upper = i.upper / 10 ^ k :=
  scaled_div i.high i.den k

theorem den_inUnits (pos : 0 < i.den) (k : Int) : 0 < (i.inUnits k).den :=
  Nat.mul_pos pos (tenPow_pos _)

theorem contains_inUnits (pos : 0 < i.den) : (i.inUnits k).contains n = true ↔ i.Has (n * 10 ^ k) := by
  have unit : (0 : ℚ) < 10 ^ k := by positivity
  have closed : (i.inUnits k).closed = i.closed := rfl
  rw [contains_iff (den_inUnits pos k)]
  unfold Has
  rw [closed, lower_inUnits, upper_inUnits, div_le_iff₀ unit, le_div_iff₀ unit, div_lt_iff₀ unit,
    lt_div_iff₀ unit]

/-! ### The neighbours -/

theorem contains_of_nearest? {tie : Tie} (found : i.nearest? tie = some n) : i.contains n = true := by
  unfold nearest? at found
  dsimp only at found
  split at found
  · rename_i here next
    have either : n = i.mid / i.den ∨ n = i.mid / i.den + 1 := by
      rw [← Option.some.inj found]
      split_ifs
      · exact .inl rfl
      · exact .inr rfl
      · exact tie.resolve_cases _
    rcases either with rfl | rfl
    · exact here
    · exact next
  · cases found
    assumption
  · cases found
    assumption
  · cases found

theorem exists_nearest? (tie : Tie)
    (hit : i.contains (i.mid / i.den) = true ∨ i.contains (i.mid / i.den + 1) = true) :
    ∃ n, i.nearest? tie = some n := by
  unfold nearest?
  dsimp only
  split
  · exact ⟨_, rfl⟩
  · exact ⟨_, rfl⟩
  · exact ⟨_, rfl⟩
  · simp_all

/-- The lower neighbour is the floor of the middle value. -/
theorem quotient_bounds (pos : 0 < i.den) :
    ((i.mid / i.den : Nat) : ℚ) ≤ i.middle ∧ i.middle < (i.mid / i.den : Nat) + 1 := by
  have den : (0 : ℚ) < i.den := by exact_mod_cast pos
  have next : i.mid < (i.mid / i.den + 1) * i.den := Nat.lt_mul_of_div_lt (Nat.lt_succ_self _) pos
  unfold middle
  rw [le_div_iff₀ den, div_lt_iff₀ den]
  exact ⟨by exact_mod_cast Nat.div_mul_le_self .., by exact_mod_cast next⟩

/-! ### The magnitude -/

/-- The whole number below a quotient that is more than one. -/
theorem below_bounds {a b : Nat} (pos : 0 < a) (lt : a < b) :
    0 < (b + a - 1) / a - 1 ∧ ((b + a - 1) / a - 1) * a < b ∧ b ≤ ((b + a - 1) / a - 1 + 1) * a := by
  have whole := Nat.div_add_mod' (b + a - 1) a
  have rest := Nat.mod_lt (b + a - 1) pos
  have two : 2 ≤ (b + a - 1) / a := (Nat.le_div_iff_mul_le pos).mpr (by omega)
  obtain ⟨c, same⟩ : ∃ c, (b + a - 1) / a = c + 2 := ⟨_, (Nat.sub_add_cancel two).symm⟩
  rw [same] at whole ⊢
  have split : (c + 2) * a = (c + 1) * a + a := by ring
  refine ⟨by omega, ?_, ?_⟩
  · change (c + 1) * a < b
    omega
  · change b ≤ (c + 2) * a
    omega

theorem magnitude_bounds (pos : 0 < i.mid) (den : 0 < i.den) :
    (10 : ℚ) ^ (i.magnitude - 1) ≤ i.middle ∧ i.middle < 10 ^ i.magnitude := by
  have denPos : (0 : ℚ) < i.den := by exact_mod_cast den
  unfold magnitude
  split
  · rename_i le
    obtain ⟨above, below⟩ := quotient_bounds den
    have some : 0 < i.mid / i.den := Nat.div_pos le den
    have count := digitCount_pos (i.mid / i.den)
    have least : (10 : ℚ) ^ (digitCount (i.mid / i.den) - 1) ≤ (i.mid / i.den : Nat) := by
      exact_mod_cast pow_digitCount_le some
    have greatest : ((i.mid / i.den : Nat) : ℚ) + 1 ≤ 10 ^ digitCount (i.mid / i.den) := by
      exact_mod_cast lt_pow_digitCount (i.mid / i.den)
    have exponent : (digitCount (i.mid / i.den) : Int) - 1 = (digitCount (i.mid / i.den) - 1 : Nat) := by
      omega
    rw [exponent, zpow_natCast, zpow_natCast]
    exact ⟨least.trans above, below.trans_le greatest⟩
  · rename_i lt
    obtain ⟨some, above, below⟩ := below_bounds pos (Nat.not_le.mp lt)
    generalize (i.den + i.mid - 1) / i.mid - 1 = c at some above below
    have midPos : (0 : ℚ) < i.mid := by exact_mod_cast pos
    have count := digitCount_pos c
    have least : (10 : ℚ) ^ (digitCount c - 1) * i.mid < i.den := by
      exact_mod_cast (Nat.mul_le_mul_right _ (pow_digitCount_le some)).trans_lt above
    have greatest : (i.den : ℚ) ≤ 10 ^ digitCount c * i.mid := by
      exact_mod_cast below.trans (Nat.mul_le_mul_right _ (lt_pow_digitCount c))
    have low : (1 : Int) - digitCount c - 1 = -(digitCount c : Int) := by omega
    have high : (1 : Int) - digitCount c = -((digitCount c - 1 : Nat) : Int) := by omega
    unfold middle
    rw [low, high, zpow_neg, zpow_neg, zpow_natCast, zpow_natCast, inv_le_iff_one_le_mul₀ (by positivity),
      lt_inv_comm₀ (by positivity) (by positivity), inv_div, lt_div_iff₀ midPos, div_mul_eq_mul_div,
      one_le_div denPos, mul_comm (i.mid : ℚ)]
    exact ⟨greatest, least⟩

/-! ### The interval of a double -/

section OfDouble

variable {m : Nat} {e : Int}

/-- How far the interval reaches below the double, in steps of its mantissa. -/
def reach (m : Nat) (e : Int) : ℚ := if m = twoPow 52 ∧ leastExponent < e then 1 / 4 else 1 / 2

theorem reach_le (m : Nat) (e : Int) : reach m e ≤ 1 / 2 := by
  unfold reach
  split <;> norm_num

theorem den_ofDouble (m : Nat) (e : Int) : 0 < (ofDouble m e).den := twoPow_pos _

/-- Quarters of a step over the denominator of the interval. -/
theorem quarters_div (a : Nat) (e : Int) :
    ((a * twoPow (e - 2).toNat : Nat) : ℚ) / (twoPow (2 - e).toNat : Nat) = a / 4 * 2 ^ e := by
  have quarter : (2 : ℚ) ^ (e - 2) = 2 ^ e / 4 := by
    rw [zpow_sub₀ (by decide)]
    norm_num
  have flipped : 2 - e = -(e - 2) := by omega
  rw [div_mul_eq_mul_div, mul_div_assoc, ← quarter, zpow_eq_div, flipped, twoPow_eq, twoPow_eq]
  push_cast
  ring

theorem middle_ofDouble (m : Nat) (e : Int) : (ofDouble m e).middle = m * 2 ^ e := by
  refine (quarters_div (4 * m) e).trans ?_
  push_cast
  ring

theorem upper_ofDouble (m : Nat) (e : Int) : (ofDouble m e).upper = (m + 1 / 2) * 2 ^ e := by
  refine (quarters_div (4 * m + 2) e).trans ?_
  push_cast
  ring

theorem lower_ofDouble (some : m ≠ 0) : (ofDouble m e).lower = (m - reach m e) * 2 ^ e := by
  refine (quarters_div (4 * m - _) e).trans ?_
  simp only [Bool.and_eq_true, decide_eq_true_eq]
  unfold reach
  by_cases bottom : m = twoPow 52 ∧ leastExponent < e
  · rw [if_pos bottom, if_pos bottom, Nat.cast_sub (by omega)]
    push_cast
    ring
  · rw [if_neg bottom, if_neg bottom, Nat.cast_sub (by omega)]
    push_cast
    ring

theorem closed_ofDouble (m : Nat) (e : Int) : (ofDouble m e).closed = (m % 2 == 0) := rfl

/-- What rounds to a double is not more than half a step from it. -/
theorem Has.abs_sub_le (some : m ≠ 0) (has : (ofDouble m e).Has q) : |q - m * 2 ^ e| ≤ 1 / 2 * 2 ^ e := by
  have step : (0 : ℚ) < 2 ^ e := by positivity
  obtain ⟨above, below⟩ := has.bounds
  rw [lower_ofDouble some] at above
  rw [upper_ofDouble] at below
  have near : reach m e * 2 ^ e ≤ 1 / 2 * 2 ^ e := mul_le_mul_of_nonneg_right (reach_le m e) step.le
  rw [abs_le]
  constructor <;> linarith

theorem Has.pos (some : m ≠ 0) (has : (ofDouble m e).Has q) : 0 < q := by
  have step : (0 : ℚ) < 2 ^ e := by positivity
  have mantissa : (1 : ℚ) ≤ m := by exact_mod_cast Nat.one_le_iff_ne_zero.mpr some
  have whole := mul_le_mul_of_nonneg_right mantissa step.le
  have near := (abs_le.mp (has.abs_sub_le some)).1
  linarith

/-- Steps that are fine enough for seventeen digits leave no double out: one of the two whole
numbers of steps around it rounds to it. -/
theorem has_neighbour (canonical : Canonical m e) (some : m ≠ 0) {n : ℕ} {k : ℤ}
    (fine : (10 : ℚ) ^ k * 10 ^ 16 ≤ m * 2 ^ e) (above : (n : ℚ) * 10 ^ k ≤ m * 2 ^ e)
    (below : (m : ℚ) * 2 ^ e < n * 10 ^ k + 10 ^ k) :
    (ofDouble m e).Has (n * 10 ^ k) ∨ (ofDouble m e).Has (n * 10 ^ k + 10 ^ k) := by
  have step : (0 : ℚ) < 2 ^ e := by positivity
  have upper := upper_ofDouble m e
  have lower := lower_ofDouble (e := e) some
  by_cases bottom : m = twoPow 52 ∧ leastExponent < e
  · -- Just above a power of two the grid is finer than half a step.
    have mantissa : (m : ℚ) = 2 ^ 52 := by exact_mod_cast bottom.1.trans (twoPow_eq 52)
    rw [mantissa] at fine
    have finer : (10 : ℚ) ^ k < 1 / 2 * 2 ^ e := by linarith
    have low : (0 : ℚ) < reach m e := by
      unfold reach
      split <;> norm_num
    refine .inr (has_of_lt ?_ ?_)
    · rw [lower]
      linarith [mul_pos low step]
    · rw [upper]
      linarith
  · have half : reach m e = 1 / 2 := if_neg bottom
    have size : (m : ℚ) < 2 ^ 53 := by exact_mod_cast canonical.lt
    have finer : (10 : ℚ) ^ k < 2 ^ e := by
      have bound : (m : ℚ) * 2 ^ e < 2 ^ 53 * 2 ^ e := mul_lt_mul_of_pos_right size step
      linarith
    rw [half] at lower
    by_cases near : (m : ℚ) * 2 ^ e - n * 10 ^ k < 1 / 2 * 2 ^ e
    · refine .inl (has_of_lt ?_ ?_)
      · rw [lower]
        linarith
      · rw [upper]
        linarith
    · refine .inr (has_of_lt ?_ ?_)
      · rw [lower]
        linarith
      · rw [upper]
        linarith

/-- One of the two neighbours of a double on a grid of seventeen digits rounds to it. -/
theorem exists_seventeen (canonical : Canonical m e) (some : m ≠ 0) (tie : Tie) :
    ∃ n, ((ofDouble m e).inUnits ((ofDouble m e).magnitude - 17)).nearest? tie = Option.some n := by
  have den := den_ofDouble m e
  have pos : 0 < (ofDouble m e).mid := Nat.mul_pos (by omega) (twoPow_pos _)
  have first := (magnitude_bounds pos den).1
  obtain ⟨k, last⟩ : ∃ k, (ofDouble m e).magnitude - 17 = k := ⟨_, rfl⟩
  have place : (ofDouble m e).magnitude - 1 = k + 16 := by omega
  have unitPos : (0 : ℚ) < 10 ^ k := by positivity
  have fine : (10 : ℚ) ^ k * 10 ^ 16 ≤ m * 2 ^ e := by
    rw [place, zpow_add₀ (by decide), middle_ofDouble] at first
    exact_mod_cast first
  obtain ⟨above, below⟩ := quotient_bounds (den_inUnits den k)
  rw [middle_inUnits, middle_ofDouble, le_div_iff₀ unitPos] at above
  rw [middle_inUnits, middle_ofDouble, div_lt_iff₀ unitPos, add_one_mul] at below
  rw [last]
  apply exists_nearest?
  rw [contains_inUnits den, contains_inUnits den]
  push_cast
  rw [add_one_mul]
  exact has_neighbour canonical some fine above below

end OfDouble

end Interval

/-! ### The shortest decimal -/

/-- The number that a decimal writes. -/
def Scientific.toRat (s : Scientific) : ℚ := s.digits * 10 ^ s.exponent

/-- Moving zeros into the exponent writes the same number. -/
theorem Scientific.normalize_spec (fuel n : Nat) (k : Int) :
    (normalize fuel n k).toRat = n * 10 ^ k ∧ k ≤ (normalize fuel n k).exponent := by
  induction fuel generalizing n k with
  | zero => exact ⟨rfl, Int.le_refl _⟩
  | succ fuel ih =>
      unfold normalize
      split
      · rename_i zero
        obtain ⟨same, le⟩ := ih (n / 10) (k + 1)
        obtain ⟨c, rfl⟩ := Nat.dvd_of_mod_eq_zero zero
        refine ⟨?_, by omega⟩
        rw [same, Nat.mul_div_cancel_left _ (by decide), zpow_add_one₀ (by decide)]
        push_cast
        ring
      · exact ⟨rfl, Int.le_refl _⟩

section Shortest

variable {m : Nat} {e : Int} (tie : Tie)

/-- Some grid of at most seventeen digits has a number that rounds to the double, and the
shortest decimal is that number. -/
theorem exists_shortest (canonical : Canonical m e) (some : m ≠ 0) :
    ∃ (n : Nat) (k : Int), (Interval.ofDouble m e).magnitude - 17 ≤ k ∧
      (Interval.ofDouble m e).Has (n * 10 ^ k) ∧ shortest tie m e = Scientific.normalize 17 n k := by
  unfold shortest
  dsimp only
  split
  · rename_i n k hit
    obtain ⟨j, mem, found⟩ := List.exists_of_findSome?_eq_some hit
    have short : j < 17 := List.mem_range.mp mem
    rw [Option.map_eq_some_iff] at found
    obtain ⟨_, nearest, same⟩ := found
    cases same
    have has := Interval.contains_of_nearest? nearest
    rw [Interval.contains_inUnits (Interval.den_ofDouble m e)] at has
    exact ⟨_, _, by omega, has, rfl⟩
  · rename_i none
    have last := List.findSome?_eq_none_iff.mp none 16 (by decide)
    obtain ⟨n, found⟩ := Interval.exists_seventeen canonical some tie
    have grid : (Interval.ofDouble m e).magnitude - ((16 : Nat) + 1 : Int) =
        (Interval.ofDouble m e).magnitude - 17 := rfl
    rw [grid, found] at last
    cases last

/-- The shortest decimal of a double rounds to it. -/
theorem shortest_has (canonical : Canonical m e) (some : m ≠ 0) :
    (Interval.ofDouble m e).Has (shortest tie m e).toRat := by
  obtain ⟨n, k, _, has, same⟩ := exists_shortest tie canonical some
  rw [same, (Scientific.normalize_spec 17 n k).1]
  exact has

theorem le_shortest_exponent (canonical : Canonical m e) (some : m ≠ 0) :
    (Interval.ofDouble m e).magnitude - 17 ≤ (shortest tie m e).exponent := by
  obtain ⟨n, k, le, _, same⟩ := exists_shortest tie canonical some
  rw [same]
  exact le.trans (Scientific.normalize_spec 17 n k).2

end Shortest

end Pseudocode.Decimal

import Pseudocode.Proofs.Binary64.Rounding

/-!
Powers of doubles.

How powers are computed is not said anywhere. What is relied on, for whole exponents only, is
`PowerLaws`: powers of 1 and -1 are exact, zero has no negative powers, and a power of a larger
number is off by one unit in the last place at most, but zero where the exact power is nearest
to zero. The doubles that are nearest to the exact powers obey the laws (`nearestPower_laws`).
-/

namespace Pseudocode.Binary64

/-! ### The double of a fraction -/

theorem abs_roundDiv_sub (n : Nat) {d : Nat} (pos : 0 < d) :
    |(roundDiv n d : ℚ) - n / d| ≤ 1 / 2 := by
  have den : (0 : ℚ) < d := by exact_mod_cast pos
  have whole : (n : ℚ) / d = (n / d : Nat) + (n % d : Nat) / d := by
    rw [div_eq_iff den.ne', add_mul, div_mul_cancel₀ _ den.ne']
    exact_mod_cast (Nat.div_add_mod' n d).symm
  have rest : ((n % d : Nat) : ℚ) / d ≤ 1 := by
    rw [div_le_one den]
    exact_mod_cast (Nat.mod_lt n pos).le
  have none : (0 : ℚ) ≤ (n % d : Nat) / d := by positivity
  rcases roundDiv_cases n d with ⟨down, half, -⟩ | ⟨up, half, -⟩
  · have less : ((n % d : Nat) : ℚ) / d ≤ 1 / 2 := by
      rw [div_le_div_iff₀ den two_pos]
      exact_mod_cast (by omega : n % d * 2 ≤ 1 * d)
    rw [down, whole, abs_le]
    constructor <;> linarith
  · have more : (1 : ℚ) / 2 ≤ (n % d : Nat) / d := by
      rw [div_le_div_iff₀ two_pos den]
      exact_mod_cast (by omega : 1 * d ≤ n % d * 2)
    rw [up, whole, abs_le]
    push_cast
    constructor <;> linarith

section Fraction

variable {num den : Nat}

theorem inUnits_div (num den : Nat) (e : Int) :
    ((inUnits num den e).1 : ℚ) / (inUnits num den e).2 = num / den / 2 ^ e := by
  rw [zpow_eq_div, inUnits]
  simp only [twoPow_eq]
  push_cast
  field_simp

theorem inUnits_pos (num : Nat) (pos : 0 < den) (e : Int) : 0 < (inUnits num den e).2 :=
  Nat.mul_pos pos (Nat.two_pow_pos _)

/-- The binary logarithms of numerator and denominator bound the fraction. -/
theorem fraction_bounds (some : num ≠ 0) (pos : den ≠ 0) :
    (2 : ℚ) ^ ((num.log2 : Int) - den.log2 - 1) ≤ num / den ∧
      (num : ℚ) / den < 2 ^ ((num.log2 : Int) - den.log2 + 1) := by
  have bounds {n : Nat} (some : n ≠ 0) :
      (2 : ℚ) ^ (n.log2 : Int) ≤ n ∧ (n : ℚ) < 2 ^ ((n.log2 : Int) + 1) := by
    constructor
    · rw [zpow_natCast]
      exact_mod_cast Nat.log2_self_le some
    · rw [← Nat.cast_one, ← Nat.cast_add, zpow_natCast]
      exact_mod_cast Nat.lt_log2_self
  obtain ⟨low, high⟩ := bounds some
  obtain ⟨low', high'⟩ := bounds pos
  have positive : (0 : ℚ) < den := by positivity
  constructor
  · rw [le_div_iff₀ positive]
    calc (2 : ℚ) ^ ((num.log2 : Int) - den.log2 - 1) * den
        ≤ 2 ^ ((num.log2 : Int) - den.log2 - 1) * 2 ^ ((den.log2 : Int) + 1) := by gcongr
      _ = 2 ^ (num.log2 : Int) := by rw [← zpow_add₀ two_ne_zero]; congr 1; ring
      _ ≤ num := low
  · rw [div_lt_iff₀ positive]
    calc (num : ℚ) < 2 ^ ((num.log2 : Int) + 1) := high
      _ = 2 ^ ((num.log2 : Int) - den.log2 + 1) * 2 ^ (den.log2 : Int) := by
          rw [← zpow_add₀ two_ne_zero]; congr 1; ring
      _ ≤ 2 ^ ((num.log2 : Int) - den.log2 + 1) * den := by gcongr

/-- In units of the rounding exponent a fraction has 53 bits, or fewer with the least
exponent. -/
theorem roundingExponent_bounds (some : num ≠ 0) (pos : den ≠ 0) :
    let e := roundingExponent num den
    leastExponent ≤ e ∧ (num : ℚ) / den < 2 ^ 53 * 2 ^ e ∧
      (e = leastExponent ∨ 2 ^ 52 * 2 ^ e ≤ (num : ℚ) / den) := by
  intro e
  obtain ⟨low, high⟩ := fraction_bounds some pos
  obtain ⟨guess, guessed⟩ : ∃ g, max ((num.log2 : Int) - den.log2 - 53) leastExponent = g := ⟨_, rfl⟩
  have units {k : Nat} {g : Int} : (2 : ℚ) ^ k * 2 ^ g = 2 ^ (k + g) := by
    rw [zpow_add₀ two_ne_zero, zpow_natCast]
  have enough : 2 ^ 53 ≤ (inUnits num den guess).1 / (inUnits num den guess).2 ↔
      (2 : ℚ) ^ 53 * 2 ^ guess ≤ num / den := by
    have positive := inUnits_pos num (Nat.pos_of_ne_zero pos) guess
    rw [← le_div_iff₀ (by positivity), ← inUnits_div, Nat.le_div_iff_mul_le positive,
      le_div_iff₀ (by exact_mod_cast positive)]
    exact_mod_cast Iff.rfl
  have chosen : e = if (2 : ℚ) ^ 53 * 2 ^ guess ≤ num / den then guess + 1 else guess := by
    simp only [← enough, e, roundingExponent, guessed, twoPow_eq]
  have below : (num : ℚ) / den < 2 ^ (54 + guess) :=
    high.trans_le (zpow_le_zpow_right₀ one_le_two (by omega))
  split at chosen
  · rename_i large
    refine ⟨by omega, ?_, .inr ?_⟩
    · rw [chosen, units]
      convert below using 2
      push_cast
      ring
    · rw [chosen, units]
      rw [units] at large
      convert large using 2
      push_cast
      ring
  · rename_i small
    refine ⟨by omega, chosen ▸ not_le.mp small, ?_⟩
    rcases Int.le_total ((num.log2 : Int) - den.log2 - 53) leastExponent with least | above
    · exact .inl (by omega)
    · right
      rw [chosen, units]
      convert low using 2
      push_cast
      omega

/-- What is packed in units of the rounding exponent, unless it is too large. -/
theorem number?_pack_fraction (negative : Bool) {k : Nat} {e : Int} (few : k ≤ 2 ^ 53)
    (least : leastExponent ≤ e) (small : e ≤ 970) (normal : e = leastExponent ∨ 2 ^ 52 ≤ k) :
    number? (pack negative k e) = some (.finite (signed negative k e)) := by
  by_cases large : 2 ^ 52 ≤ k
  · rcases number?_pack negative large few least with finite | ⟨beyond, -⟩
    · exact finite
    · omega
  · obtain rfl := normal.resolve_right large
    exact number?_of_finite (shape_pack negative ⟨by omega, least, by omega, .inr rfl⟩)

/-- A fraction of at most 1 in units of its rounding exponent, and the mantissa it is rounded to. -/
theorem ofRatio_units (negative : Bool) (some : num ≠ 0) (pos : 0 < den) (le : num ≤ den) :
    ∃ (n d : Nat) (e : Int), ofRatio negative num den = pack negative (roundDiv n d) e ∧ 0 < d ∧
      (n : ℚ) / d = num / den / 2 ^ e ∧ n / d < 2 ^ 53 ∧ leastExponent ≤ e ∧ e ≤ 970 ∧
      (e = leastExponent ∨ 2 ^ 52 ≤ n / d ∧ 2 ^ 52 * 2 ^ e ≤ (num : ℚ) / den) := by
  obtain ⟨e, rounding⟩ : ∃ e, roundingExponent num den = e := ⟨_, rfl⟩
  obtain ⟨n, d, scaled⟩ : ∃ n d, inUnits num den e = (n, d) := ⟨_, _, rfl⟩
  have bounds := roundingExponent_bounds some pos.ne'
  have positive := inUnits_pos num pos e
  have value := inUnits_div num den e
  rw [rounding] at bounds
  rw [scaled] at positive value
  dsimp only at positive value
  obtain ⟨least, high, low⟩ := bounds
  have unit : (0 : ℚ) < 2 ^ e := by positivity
  have denominator : (0 : ℚ) < d := by exact_mod_cast positive
  refine ⟨n, d, e, ?_, positive, value, ?_, least, ?_, low.imp_right fun low => ⟨?_, low⟩⟩
  · rw [ofRatio, if_neg some, rounding]
    simp only [scaled]
  · rw [← div_lt_iff₀ unit, ← value, div_lt_iff₀ denominator] at high
    rw [Nat.div_lt_iff_lt_mul positive]
    exact_mod_cast high
  · have one : (num : ℚ) / den ≤ 1 := by
      rw [div_le_one (by exact_mod_cast pos)]
      exact_mod_cast le
    rcases low with rfl | low
    · decide
    · by_contra large
      have huge : (2 : ℚ) ^ (0 : Int) ≤ 2 ^ e := zpow_le_zpow_right₀ one_le_two (by omega)
      rw [zpow_zero] at huge
      linarith
  · rw [← le_div_iff₀ unit, ← value, le_div_iff₀ denominator] at low
    rw [Nat.le_div_iff_mul_le positive]
    exact_mod_cast low

/-- A fraction of at most 1 is off by half a unit in the last place at most when it is rounded
to a double. What is not more than half of the least positive double is rounded to zero. -/
theorem number?_ofRatio (negative : Bool) (pos : 0 < den) (le : num ≤ den) :
    ∃ (k : Nat) (e : Int), number? (ofRatio negative num den) = some (.finite (signed negative k e)) ∧
      |(k * 2 ^ e : ℚ) - num / den| ≤ 2 ^ e / 2 ∧
      (e = leastExponent ∨ 2 ^ 52 * 2 ^ e ≤ (num : ℚ) / den) ∧
      ((num : ℚ) / den ≤ 2 ^ leastExponent / 2 → k = 0) := by
  by_cases none : num = 0
  · refine ⟨0, leastExponent, ?_, ?_, .inl rfl, fun _ => rfl⟩
    · rw [ofRatio, if_pos none]
      exact number?_pack_fraction negative (by decide) (Int.le_refl _) (by decide) (.inl rfl)
    · rw [none]
      simp only [Nat.cast_zero, zero_mul, zero_div, sub_zero, abs_zero]
      positivity
  obtain ⟨n, d, e, packed, positive, value, few, least, small, low⟩ :=
    ofRatio_units negative none pos le
  have unit : (0 : ℚ) < 2 ^ e := by positivity
  refine ⟨roundDiv n d, e, ?_, ?_, low.imp_right And.right, ?_⟩
  · rw [packed]
    exact number?_pack_fraction negative ((roundDiv_le n d).trans few) least small
      (low.imp_right fun large => large.1.trans (le_roundDiv n d))
  · have scale : (roundDiv n d * 2 ^ e : ℚ) - num / den = (roundDiv n d - n / d) * 2 ^ e := by
      rw [value]
      field_simp
    rw [scale, abs_mul, abs_of_pos unit]
    calc |(roundDiv n d : ℚ) - n / d| * 2 ^ e ≤ 1 / 2 * 2 ^ e := by
          gcongr
          exact abs_roundDiv_sub n positive
      _ = 2 ^ e / 2 := by ring
  · intro tiny
    have up : (2 : ℚ) ^ leastExponent ≤ 2 ^ e := zpow_le_zpow_right₀ one_le_two least
    have less : (n : ℚ) / d ≤ 1 / 2 := by
      rw [value, div_le_iff₀ unit]
      linarith
    have half : n * 2 ≤ 1 * d := by
      rw [div_le_div_iff₀ (by exact_mod_cast positive) two_pos] at less
      exact_mod_cast less
    exact roundDiv_of_near positive (by omega) (by omega) (by omega)

end Fraction

/-! ### Whole powers -/

/-- What is relied on of a power with a whole exponent. -/
structure PowerLaws (pow : Float → Float → Float) : Prop where
  /-- Powers of 1 and -1 are exact. -/
  unit : ∀ {x y : Float} {q : ℚ} {k : Int}, number? x = some (.finite q) →
    number? y = some (.finite k) → |q| = 1 → number? (pow x y) = some (.finite (q ^ k))
  /-- A negative power of zero is infinite. -/
  zero : ∀ {x y : Float} {k : Int}, number? x = some (.finite 0) → number? y = some (.finite k) →
    k < 0 → ∃ negative, number? (pow x y) = some (.infinite negative)
  /-- A negative power of a larger number is off by one unit in the last place at most. -/
  near : ∀ {x y : Float} {q : ℚ} {k : Int}, number? x = some (.finite q) →
    number? y = some (.finite k) → 1 < |q| → k < 0 →
    ∃ p, number? (pow x y) = some (.finite p) ∧
      |p - q ^ k| ≤ max (2 ^ (-52 : Int) * |q ^ k|) (2 ^ leastExponent)
  /-- It is zero when the exact power is not more than half of the least positive double. -/
  vanishes : ∀ {x y : Float} {q : ℚ} {k : Int}, number? x = some (.finite q) →
    number? y = some (.finite k) → 1 < |q| → k < 0 → |q ^ k| ≤ 2 ^ leastExponent / 2 →
    number? (pow x y) = some (.finite 0)

/-- A negative power of a number that is not below 2 is a fraction or zero. It is zero when the
exact power is at most half of the least positive double, and only when it is no more than
that double. -/
theorem PowerLaws.reciprocal {pow : Float → Float → Float} (laws : PowerLaws pow) {x y : Float}
    {q : ℚ} {r : Nat} (base : number? x = some (.finite q))
    (exponent : number? y = some (.finite (-r : Int))) (two : 2 ≤ |q|) (some : r ≠ 0) :
    ∃ p, number? (pow x y) = .some (.finite p) ∧ |p| < 1 ∧ (p = 0 → 2 ^ 1074 ≤ |q| ^ r) ∧
      (p ≠ 0 → |q| ^ r < 2 ^ 1075) := by
  have large : 1 < |q| := one_lt_two.trans_le two
  have negative : (-r : Int) < 0 := by omega
  have size : |q ^ (-r : Int)| = (|q| ^ r)⁻¹ := by rw [abs_zpow, zpow_neg, zpow_natCast]
  have positive : (0 : ℚ) < (|q| ^ r)⁻¹ := by positivity
  have least : (2 : ℚ) ^ leastExponent = (2 ^ 1074)⁻¹ := by
    rw [leastExponent, zpow_neg]
    rfl
  have fine : (2 : ℚ) ^ (-52 : Int) * (|q| ^ r)⁻¹ ≤ 1 / 4 * (|q| ^ r)⁻¹ := by
    gcongr
    norm_num
  obtain ⟨p, finite, near⟩ := laws.near base exponent large negative
  rw [size, least] at near
  have half : (|q| ^ r)⁻¹ ≤ 1 / 2 := by
    rw [one_div]
    exact inv_anti₀ two_pos (two.trans (le_self_pow₀ large.le some))
  refine ⟨p, finite, ?_, ?_, ?_⟩
  · have error : max ((2 : ℚ) ^ (-52 : Int) * (|q| ^ r)⁻¹) (2 ^ 1074)⁻¹ ≤ 1 / 4 := by
      apply max_le
      · linarith
      · have four : (2 : ℚ) ^ 2 ≤ 2 ^ 1074 := pow_le_pow_right₀ one_le_two (by decide)
        rw [one_div]
        exact inv_anti₀ four_pos (le_trans (by norm_num) four)
    have sum := abs_sub_abs_le_abs_sub p (q ^ (-r : Int))
    rw [size] at sum
    linarith
  · rintro rfl
    rw [zero_sub, abs_neg, size, le_max_iff] at near
    refine (inv_le_inv₀ (by positivity) (by positivity)).mp (near.resolve_left ?_)
    linarith
  · intro nonzero
    by_contra tiny
    have half : |q ^ (-r : Int)| ≤ 2 ^ leastExponent / 2 := by
      have twice : (2 : ℚ) ^ 1075 = 2 ^ 1074 * 2 := pow_succ 2 1074
      rw [size, least, div_eq_mul_inv, ← mul_inv, ← twice]
      exact inv_anti₀ (by positivity) (not_lt.mp tiny)
    rw [laws.vanishes base exponent large negative half] at finite
    cases finite
    exact nonzero rfl

/-- The double nearest to a rational. -/
def ofRational (q : ℚ) : Float := ofRatio (q < 0) q.num.natAbs q.den

/-- The double nearest to a power with a whole exponent. -/
def nearestPower (x y : Float) : Float :=
  match number? x, number? y with
  | some (.finite q), some (.finite p) =>
      if q = 0 ∧ p < 0 then pack false 0 4000 else ofRational (q ^ ⌊p⌋)
  | _, _ => nan

theorem number?_ofRational {q : ℚ} (small : |q| ≤ 1) :
    ∃ p, number? (ofRational q) = some (.finite p) ∧
      |p - q| ≤ max (2 ^ (-53 : Int) * |q|) (2 ^ leastExponent / 2) ∧
      (|q| ≤ 2 ^ leastExponent / 2 → p = 0) := by
  have size : |q| = (q.num.natAbs : ℚ) / q.den := by
    rw [Nat.cast_natAbs, Int.cast_abs, ← abs_of_pos (by exact_mod_cast q.den_pos : (0 : ℚ) < q.den),
      ← abs_div, Rat.num_div_den]
  have le : q.num.natAbs ≤ q.den := by
    rw [size, div_le_one (by exact_mod_cast q.den_pos)] at small
    exact_mod_cast small
  obtain ⟨k, e, finite, near, unit, tiny⟩ := number?_ofRatio (decide (q < 0)) q.den_pos le
  rw [← size] at near unit tiny
  refine ⟨_, finite, ?_, fun small => signed_eq_zero_iff.mpr (tiny small)⟩
  have apart : |signed (decide (q < 0)) k e - q| = |k * 2 ^ e - (|q| : ℚ)| := by
    unfold signed
    by_cases negative : q < 0
    · rw [decide_eq_true negative, if_pos rfl, abs_of_neg negative, ← abs_neg]
      congr 1
      ring
    · rw [decide_eq_false negative, if_neg Bool.false_ne_true, abs_of_nonneg (not_lt.mp negative),
        one_mul]
  rw [apart]
  refine near.trans (le_max_iff.mpr ?_)
  rcases unit with rfl | large
  · exact .inr le_rfl
  · left
    have power : (2 : ℚ) ^ (-53 : Int) * (2 ^ 52 * 2 ^ e) = 2 ^ e / 2 := by norm_num; ring
    rw [← power]
    gcongr

theorem number?_one_of_abs {q : ℚ} (unit : |q| = 1) : number? (ofRational q) = some (.finite q) := by
  have one : shape (ofRational 1) = .finite false (2 ^ 52) (-52) := rfl
  have minusOne : shape (ofRational (-1)) = .finite true (2 ^ 52) (-52) := rfl
  rcases eq_or_eq_neg_of_abs_eq unit with rfl | rfl
  · rw [number?_of_finite one]
    norm_num [signed]
  · rw [number?_of_finite minusOne]
    norm_num [signed]

/-- A negative power of a number that is larger than 1 is smaller than 1. -/
theorem abs_zpow_le_one {q : ℚ} {k : Int} (large : 1 < |q|) (negative : k < 0) : |q ^ k| ≤ 1 := by
  rw [abs_zpow]
  exact zpow_le_one_of_nonpos₀ large.le negative.le

theorem nearestPower_laws : PowerLaws nearestPower := by
  have rounds {x y : Float} {q : ℚ} {k : Int} (base : number? x = some (.finite q))
      (exponent : number? y = some (.finite k)) (some : q ≠ 0) :
      nearestPower x y = ofRational (q ^ k) := by
    unfold nearestPower
    rw [base, exponent]
    simp only [some, false_and, if_false, Int.floor_intCast]
  constructor
  case unit =>
    intro x y q k base exponent unit
    have some : q ≠ 0 := by
      rintro rfl
      simp at unit
    rw [rounds base exponent some]
    apply number?_one_of_abs
    rw [abs_zpow, unit, one_zpow]
  case zero =>
    intro x y k base exponent negative
    refine ⟨false, ?_⟩
    have infinite : shape (pack false 0 4000) = .infinite false := rfl
    unfold nearestPower
    rw [base, exponent]
    simp only [Int.cast_lt_zero, negative, and_self, if_true]
    exact number?_of_infinite infinite
  case near =>
    intro x y q k base exponent large negative
    have some : q ≠ 0 := abs_pos.mp (one_pos.trans large)
    rw [rounds base exponent some]
    obtain ⟨p, finite, near, -⟩ := number?_ofRational (abs_zpow_le_one large negative)
    refine ⟨p, finite, near.trans (max_le_max ?_ (half_le_self (by positivity)))⟩
    have finer : (2 : ℚ) ^ (-53 : Int) ≤ 2 ^ (-52 : Int) := zpow_le_zpow_right₀ one_le_two (by decide)
    gcongr
  case vanishes =>
    intro x y q k base exponent large negative tiny
    have some : q ≠ 0 := abs_pos.mp (one_pos.trans large)
    rw [rounds base exponent some]
    obtain ⟨p, finite, -, none⟩ := number?_ofRational (abs_zpow_le_one large negative)
    rw [finite, none tiny]

end Pseudocode.Binary64

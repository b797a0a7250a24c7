import Pseudocode.Proofs.Binary64.Number

/-!
Integers as doubles.

The double of an integer stands for the integer itself when that has at most 53 bits;
else for the integer rounded to 53 bits (`number?_ofInt`). No double is nearer to it
(`rounded_nearest`).
-/

namespace Pseudocode.Binary64

/-! ### Nearest naturals -/

/-- The nearest natural is one of the two beside the quotient, and the even one of two
that are as near. -/
theorem roundDiv_cases (n d : Nat) :
    roundDiv n d = n / d ∧ 2 * (n % d) ≤ d ∧ (2 * (n % d) = d → n / d % 2 = 0) ∨
      roundDiv n d = n / d + 1 ∧ d ≤ 2 * (n % d) ∧ (2 * (n % d) = d → n / d % 2 = 1) := by
  unfold roundDiv
  dsimp only
  split
  · rename_i up
    simp only [Bool.or_eq_true, decide_eq_true_eq, Bool.and_eq_true, beq_iff_eq] at up
    exact .inr ⟨rfl, by omega, by omega⟩
  · rename_i down
    simp only [Bool.or_eq_true, decide_eq_true_eq, Bool.and_eq_true, beq_iff_eq] at down
    exact .inl ⟨rfl, by omega, by omega⟩

/-- What is at most half a step from a multiple is rounded to it, unless it is just half a
step from an odd one. -/
theorem roundDiv_of_near {n d m : Nat} (pos : 0 < d) (above : 2 * m * d ≤ 2 * n + d)
    (below : 2 * n ≤ 2 * m * d + d)
    (odd : m % 2 = 1 → 2 * m * d < 2 * n + d ∧ 2 * n < 2 * m * d + d) : roundDiv n d = m := by
  obtain ⟨q, quotient⟩ : ∃ q, n / d = q := ⟨_, rfl⟩
  have whole := Nat.div_add_mod' n d
  have rest := Nat.mod_lt n pos
  have twice : 2 * m * d = 2 * (m * d) := Nat.mul_assoc 2 m d
  have cases := roundDiv_cases n d
  rw [quotient] at whole cases
  rcases Nat.lt_trichotomy (q + 1) m with less | same | more
  · have far := Nat.mul_le_mul_right d less
    rw [Nat.succ_mul, Nat.add_one_mul] at far
    omega
  · subst same
    rw [Nat.add_one_mul q d] at twice
    omega
  · rcases Nat.lt_or_eq_of_le (Nat.le_of_lt_succ more) with less | same
    · have far := Nat.mul_le_mul_right d less
      rw [Nat.succ_mul] at far
      omega
    · subst same
      omega

theorem roundDiv_one (n : Nat) : roundDiv n 1 = n := by
  rcases roundDiv_cases n 1 with ⟨same, _⟩ | ⟨_, up, _⟩
  · simpa using same
  · rw [Nat.mod_one] at up
    omega

theorem le_roundDiv (n d : Nat) : n / d ≤ roundDiv n d := by
  rcases roundDiv_cases n d with ⟨same, _⟩ | ⟨same, _⟩ <;> omega

theorem roundDiv_le (n d : Nat) : roundDiv n d ≤ n / d + 1 := by
  rcases roundDiv_cases n d with ⟨same, _⟩ | ⟨same, _⟩ <;> omega

/-! ### Rounding to 53 bits -/

/-- The number of bits that a natural has beyond 53. -/
def excess (m : Nat) : Nat := m.log2 - 52

/-- A natural rounded to 53 bits. -/
def rounded (m : Nat) : Nat := roundDiv m (2 ^ excess m) * 2 ^ excess m

section Rounded

variable {m : Nat}

theorem excess_eq_zero (small : m < 2 ^ 53) : excess m = 0 := by
  unfold excess
  by_cases none : m = 0
  · rw [none, Nat.log2_zero]
  · have := (Nat.log2_lt none).mpr small
    omega

theorem rounded_of_lt (small : m < 2 ^ 53) : rounded m = m := by
  rw [rounded, excess_eq_zero small, pow_zero, roundDiv_one, Nat.mul_one]

theorem le_of_excess (some : excess m ≠ 0) : 2 ^ (52 + excess m) ≤ m := by
  have exact : 52 + excess m = m.log2 := by
    unfold excess at some ⊢
    omega
  rw [exact]
  apply Nat.log2_self_le
  rintro rfl
  exact some rfl

theorem lt_of_excess (m : Nat) : m < 2 ^ (53 + excess m) := by
  have bound : m.log2 + 1 ≤ 53 + excess m := by
    unfold excess
    omega
  exact Nat.lt_of_lt_of_le Nat.lt_log2_self (Nat.pow_le_pow_right (by decide) bound)

/-- The mantissa of a large natural has 53 bits, or it is carried. -/
theorem mantissa_bounds (some : excess m ≠ 0) :
    2 ^ 52 ≤ m / 2 ^ excess m ∧ m / 2 ^ excess m < 2 ^ 53 := by
  have pos : 0 < 2 ^ excess m := Nat.two_pow_pos _
  rw [Nat.le_div_iff_mul_le pos, Nat.div_lt_iff_lt_mul pos, ← pow_add, ← pow_add]
  exact ⟨le_of_excess some, lt_of_excess m⟩

/-- What is rounded is even and has more than 53 bits. -/
theorem rounded_of_le (large : 2 ^ 53 ≤ m) : 2 ∣ rounded m ∧ 2 ^ 53 ≤ rounded m := by
  have bits : 53 ≤ m.log2 := (Nat.le_log2 (by omega)).mpr large
  have some : excess m ≠ 0 := by
    unfold excess
    omega
  have mantissa : 2 ^ 52 ≤ roundDiv m (2 ^ excess m) := (mantissa_bounds some).1.trans (le_roundDiv ..)
  have even : 2 ∣ 2 ^ excess m := dvd_pow_self 2 some
  refine ⟨even.mul_left _, ?_⟩
  have least := Nat.mul_le_mul mantissa (Nat.le_of_dvd (Nat.two_pow_pos _) even)
  unfold rounded
  omega

theorem two_le_rounded_iff : 2 ≤ rounded m ↔ 2 ≤ m := by
  by_cases small : m < 2 ^ 53
  · rw [rounded_of_lt small]
  · have large := (rounded_of_le (Nat.not_lt.mp small)).2
    omega

theorem rounded_ne_zero (some : m ≠ 0) : rounded m ≠ 0 := by
  by_cases small : m < 2 ^ 53
  · rwa [rounded_of_lt small]
  · have large := (rounded_of_le (Nat.not_lt.mp small)).2
    omega

/-- The power of a rounded exponent is large when that of the exponent itself is. -/
theorem two_pow_le_pow_rounded_iff {s j n : Nat} (two : 2 ≤ s) (few : j ≤ 2 ^ 53) :
    2 ^ j ≤ s ^ rounded n ↔ 2 ^ j ≤ s ^ n := by
  by_cases small : n < 2 ^ 53
  · rw [rounded_of_lt small]
  · have large := Nat.not_lt.mp small
    have grows {i : Nat} (enough : 2 ^ 53 ≤ i) : 2 ^ j ≤ s ^ i :=
      (Nat.pow_le_pow_right two_pos (few.trans enough)).trans (Nat.pow_le_pow_left two i)
    exact iff_of_true (grows (rounded_of_le large).2) (grows large)

end Rounded

/-! ### The double of a natural -/

theorem roundingExponent_one {m : Nat} (some : m ≠ 0) : roundingExponent m 1 = (m.log2 : Int) - 52 := by
  have size := Nat.log2_self_le some
  have guess : max ((m.log2 : Int) - (Nat.log2 1 : Nat) - 53) leastExponent = (m.log2 : Int) - 53 := by
    have : Nat.log2 1 = 0 := by decide
    unfold leastExponent
    omega
  have large : 2 ^ 53 ≤ m * 2 ^ (-((m.log2 : Int) - 53)).toNat / (1 * 2 ^ ((m.log2 : Int) - 53).toNat) := by
    rw [Nat.one_mul, Nat.le_div_iff_mul_le (Nat.two_pow_pos _), ← pow_add]
    calc 2 ^ (53 + ((m.log2 : Int) - 53).toNat)
        = 2 ^ (m.log2 + (-((m.log2 : Int) - 53)).toNat) := by congr 1; omega
      _ = 2 ^ m.log2 * 2 ^ (-((m.log2 : Int) - 53)).toNat := pow_add ..
      _ ≤ m * 2 ^ (-((m.log2 : Int) - 53)).toNat := Nat.mul_le_mul_right _ size
  unfold roundingExponent inUnits
  simp only [twoPow_eq, guess]
  rw [if_pos large]
  omega

/-- What is packed from a mantissa of 53 bits, or from one that was rounded up to 54. -/
theorem number?_pack (negative : Bool) {k : Nat} {e : Int} (normal : 2 ^ 52 ≤ k) (le : k ≤ 2 ^ 53)
    (least : leastExponent ≤ e) :
    number? (pack negative k e) = some (.finite (signed negative k e)) ∨
      970 < e ∧ number? (pack negative k e) = some (.infinite negative) := by
  by_cases carried : k = 2 ^ 53
  · have same : signed negative (2 ^ 53) e = signed negative (2 ^ 52) (e + 1) := by
      unfold signed
      rw [zpow_add_one₀ (by decide)]
      push_cast
      ring
    rw [carried, pack_carry negative least, same]
    by_cases fits : e ≤ 970
    · exact .inl (number?_of_finite (shape_pack negative ⟨by decide, by omega, by omega, .inl (Nat.le_refl _)⟩))
    · exact .inr ⟨by omega, number?_of_infinite (shape_pack_of_lt negative (by omega) (Nat.le_refl _))⟩
  · by_cases fits : e ≤ 971
    · exact .inl (number?_of_finite (shape_pack negative ⟨by omega, least, fits, .inl normal⟩))
    · exact .inr ⟨by omega, number?_of_infinite (shape_pack_of_lt negative (by omega) normal)⟩

theorem ofRatio_one (negative : Bool) {m : Nat} (some : m ≠ 0) :
    ofRatio negative m 1 =
      pack negative (roundDiv (m * 2 ^ (52 - m.log2)) (2 ^ excess m)) (m.log2 - 52) := by
  have low : (-((m.log2 : Int) - 52)).toNat = 52 - m.log2 := by omega
  have high : ((m.log2 : Int) - 52).toNat = excess m := by
    unfold excess
    omega
  rw [ofRatio, if_neg some, roundingExponent_one some]
  simp only [inUnits, twoPow_eq, low, high, Nat.one_mul]

/-- The mantissa of the double of a natural, and what it stands for with its exponent. -/
theorem mantissa_ofNat {m : Nat} (some : m ≠ 0) :
    ∃ k : Nat, roundDiv (m * 2 ^ (52 - m.log2)) (2 ^ excess m) = k ∧ 2 ^ 52 ≤ k ∧ k ≤ 2 ^ 53 ∧
      (k * 2 ^ ((m.log2 : Int) - 52) : ℚ) = rounded m := by
  refine ⟨_, rfl, ?_⟩
  by_cases fits : m.log2 ≤ 52
  · have none : excess m = 0 := by
      unfold excess
      omega
    have small : m < 2 ^ 53 := by
      have bound := lt_of_excess m
      rwa [none] at bound
    have up : 2 ^ m.log2 * 2 ^ (52 - m.log2) = 2 ^ 52 := by
      rw [← pow_add, Nat.add_sub_cancel' fits]
    have down : 2 ^ (m.log2 + 1) * 2 ^ (52 - m.log2) = 2 ^ 53 := by
      rw [pow_succ, Nat.mul_right_comm, up, ← pow_succ]
    rw [none, pow_zero, roundDiv_one, rounded_of_lt small, ← up, ← down]
    refine ⟨Nat.mul_le_mul_right _ (Nat.log2_self_le some),
      Nat.mul_le_mul_right _ (Nat.le_of_lt Nat.lt_log2_self), ?_⟩
    have exponent : (m.log2 : Int) - 52 = -((52 - m.log2 : Nat) : Int) := by omega
    rw [exponent, zpow_neg, zpow_natCast]
    push_cast
    field_simp
  · have large : excess m ≠ 0 := by
      unfold excess
      omega
    have exponent : (m.log2 : Int) - 52 = (excess m : Int) := by
      unfold excess
      omega
    have whole : 52 - m.log2 = 0 := by omega
    obtain ⟨low, high⟩ := mantissa_bounds large
    rw [whole, pow_zero, Nat.mul_one, exponent, zpow_natCast]
    refine ⟨low.trans (le_roundDiv ..), (roundDiv_le ..).trans high, ?_⟩
    rw [rounded]
    push_cast
    rfl

/-- The double of a natural stands for the natural rounded to 53 bits, or it is infinite. -/
theorem number?_ofNat (negative : Bool) (m : Nat) :
    number? (ofRatio negative m 1) = some (.finite ((if negative then -1 else 1) * rounded m)) ∨
      1022 < m.log2 ∧ number? (ofRatio negative m 1) = some (.infinite negative) := by
  by_cases none : m = 0
  · have finite : shape (pack negative 0 leastExponent) = .finite negative 0 leastExponent :=
      shape_pack negative ⟨by decide, Int.le_refl _, by decide, .inr rfl⟩
    rw [ofRatio, if_pos none, number?_of_finite finite, none, rounded_of_lt (by decide)]
    simp [signed]
  · obtain ⟨k, mantissa, normal, le, value⟩ := mantissa_ofNat none
    have least : leastExponent ≤ (m.log2 : Int) - 52 := by
      unfold leastExponent
      omega
    rw [ofRatio_one negative none, mantissa, ← value]
    rcases number?_pack negative normal le least with finite | ⟨large, infinite⟩
    · exact .inl finite
    · exact .inr ⟨by omega, infinite⟩

/-- The double of an integer stands for it, rounded to 53 bits. -/
theorem number?_ofInt {z : Int} (small : z.natAbs < 2 ^ 64) :
    number? (ofInt z) = some (.finite (z.sign * rounded z.natAbs)) := by
  have bits : z.natAbs.log2 < 64 := by
    by_cases none : z.natAbs = 0
    · rw [none]
      decide
    · exact (Nat.log2_lt none).mpr small
  rcases number?_ofNat (decide (z < 0)) z.natAbs with finite | ⟨large, _⟩
  · rw [ofInt, finite]
    congr 2
    rcases Int.lt_trichotomy z 0 with neg | rfl | pos
    · simp [neg, Int.sign_eq_neg_one_of_neg neg]
    · simp [rounded_of_lt]
    · simp [Int.not_lt.mpr (Int.le_of_lt pos), Int.sign_eq_one_of_pos pos]
  · omega

theorem number?_ofInt_of_lt {z : Int} (small : z.natAbs < 2 ^ 53) :
    number? (ofInt z) = some (.finite z) := by
  rw [number?_ofInt (by omega), rounded_of_lt small, ← Int.cast_natCast, ← Int.cast_mul,
    Int.sign_mul_natAbs]

theorem natAbs_toInt_lt (n : Int64) : n.toInt.natAbs < 2 ^ 64 := by
  have low := n.le_toInt
  have high := n.toInt_lt
  omega

theorem abs_sign_mul_rounded (z : Int) : |(z.sign * rounded z.natAbs : ℚ)| = rounded z.natAbs := by
  rcases Int.lt_trichotomy z 0 with neg | rfl | pos
  · simp [Int.sign_eq_neg_one_of_neg neg]
  · simp [rounded_of_lt]
  · simp [Int.sign_eq_one_of_pos pos]

/-! ### Nothing is nearer -/

/-- How far rounding moves a natural: to the nearer of the two multiples beside it. -/
theorem abs_rounded_sub (m : Nat) :
    |(rounded m : ℚ) - m| = min (m % 2 ^ excess m : Nat) (2 ^ excess m - m % 2 ^ excess m : Nat) := by
  have pos : 0 < 2 ^ excess m := Nat.two_pow_pos _
  have rest := Nat.mod_lt m pos
  have whole := Nat.div_add_mod' m (2 ^ excess m)
  rcases roundDiv_cases m (2 ^ excess m) with ⟨down, half, _⟩ | ⟨up, half, _⟩
  · have moved : (rounded m : ℚ) - m = -((m % 2 ^ excess m : Nat) : ℚ) := by
      rw [rounded, down, eq_neg_iff_add_eq_zero, sub_add_eq_add_sub, sub_eq_zero]
      exact_mod_cast whole
    rw [moved, abs_neg, abs_of_nonneg (by positivity), min_eq_left (by omega)]
  · have moved : (rounded m : ℚ) - m = ((2 ^ excess m - m % 2 ^ excess m : Nat) : ℚ) := by
      rw [rounded, up, Nat.add_one_mul, sub_eq_iff_eq_add]
      norm_cast
      omega
    rw [moved, abs_of_nonneg (by positivity), min_eq_right (by omega)]

/-- No multiple of the unit is nearer to a natural than the nearer one of the two beside it. -/
theorem le_abs_multiple_sub {m u : Nat} (pos : 0 < u) (j : Int) :
    ((min (m % u) (u - m % u) : Nat) : ℚ) ≤ |(j * u : ℚ) - m| := by
  obtain ⟨k, quotient⟩ : ∃ k, m / u = k := ⟨_, rfl⟩
  have rest := Nat.mod_lt m pos
  have whole : (k * u : ℚ) + (m % u : Nat) = m := by
    rw [← quotient]
    exact_mod_cast Nat.div_add_mod' m u
  rcases Int.lt_or_le k j with above | below
  · have next : (k : ℚ) + 1 ≤ j := by exact_mod_cast above
    have far : ((k + 1) * u : ℚ) ≤ j * u := by gcongr
    have nearer : ((min (m % u) (u - m % u) : Nat) : ℚ) + (m % u : Nat) ≤ u := by
      exact_mod_cast (by omega : min (m % u) (u - m % u) + m % u ≤ u)
    rw [le_abs]
    exact .inl (by linarith)
  · have same : (j : ℚ) ≤ k := by exact_mod_cast below
    have far : (j * u : ℚ) ≤ k * u := by gcongr
    have nearer : ((min (m % u) (u - m % u) : Nat) : ℚ) ≤ (m % u : Nat) := by
      exact_mod_cast Nat.min_le_left ..
    rw [le_abs]
    exact .inr (by linarith)

/-- A double on a finer grid than that of the multiples of `2 ^ n`. -/
theorem signed_le_of_finer (negative : Bool) {k n : Nat} {e : Int} (canonical : Canonical k e)
    (finer : e < n) : signed negative k e ≤ (2 ^ 52 : Nat) * (2 ^ n : Nat) := by
  have bound : (k : ℚ) ≤ 2 ^ 53 := by exact_mod_cast canonical.lt.le
  have power : (2 : ℚ) ^ e ≤ 2 ^ ((n : Int) - 1) := zpow_le_zpow_right₀ (by decide) (by omega)
  have half : (2 : ℚ) ^ (53 : Nat) * 2 ^ ((n : Int) - 1) = 2 ^ (52 : Nat) * 2 ^ n := by
    rw [zpow_sub_one₀ (by decide), zpow_natCast]
    ring
  have size : (k * 2 ^ e : ℚ) ≤ 2 ^ (52 : Nat) * 2 ^ n := by
    rw [← half]
    gcongr
  have pos : (0 : ℚ) ≤ k * 2 ^ e := by positivity
  unfold signed
  push_cast
  cases negative <;> simp <;> linarith

/-- No double is nearer to a natural than the natural rounded to 53 bits. -/
theorem rounded_nearest (m : Nat) {x : Float} {q : ℚ} (number : number? x = some (.finite q)) :
    |(rounded m : ℚ) - m| ≤ |q - m| := by
  by_cases none : excess m = 0
  · rw [rounded, none, pow_zero, roundDiv_one, Nat.mul_one, sub_self, abs_zero]
    exact abs_nonneg _
  rcases shape_cases x with ⟨negative, k, e, finite, canonical, _⟩ | ⟨_, infinite, _⟩ | ⟨_, nan⟩
  · rw [number?_of_finite finite] at number
    cases number
    by_cases coarse : (excess m : Int) ≤ e
    · obtain ⟨d, rfl⟩ : ∃ d : Nat, e = excess m + d := ⟨(e - excess m).toNat, by omega⟩
      have multiple : signed negative k (excess m + d) =
          (((if negative then -1 else 1) * (k * 2 ^ d) : Int) : ℚ) * (2 ^ excess m : Nat) := by
        unfold signed
        rw [zpow_add₀ (by decide), zpow_natCast, zpow_natCast]
        push_cast
        ring
      rw [abs_rounded_sub, multiple]
      exact le_abs_multiple_sub (Nat.two_pow_pos _) _
    · -- A double on a finer grid is below the multiple of the coarse one that is below `m`.
      have small := signed_le_of_finer negative canonical (Int.not_le.mp coarse)
      have below : (2 ^ 52 : Nat) * (2 ^ excess m : Nat) ≤ (m : ℚ) - (m % 2 ^ excess m : Nat) := by
        have whole := Nat.div_add_mod' m (2 ^ excess m)
        have large := Nat.mul_le_mul_right (2 ^ excess m) (mantissa_bounds none).1
        rw [le_sub_iff_add_le]
        exact_mod_cast (by omega : 2 ^ 52 * 2 ^ excess m + m % 2 ^ excess m ≤ m)
      have nearer : ((min (m % 2 ^ excess m) (2 ^ excess m - m % 2 ^ excess m) : Nat) : ℚ) ≤
          (m % 2 ^ excess m : Nat) := by exact_mod_cast Nat.min_le_left ..
      rw [abs_rounded_sub, le_abs]
      exact .inr (by linarith)
  · rw [number?_of_infinite infinite] at number
    cases number
  · rw [number?_eq_none_iff.mpr nan] at number
    cases number

end Pseudocode.Binary64

import Mathlib
import Pseudocode.Binary64.Integral

/-!
Doubles as numbers.

`number?` is what a double stands for: a rational, or one of two infinities. Every finite
double is written in one way only (`Canonical`), so that two doubles are equal exactly
when they stand for the same number (`beq_iff`). A double that is packed from such a
writing has it again (`shape_pack`).
-/

namespace Pseudocode.Binary64

theorem twoPow_eq (n : Nat) : twoPow n = 2 ^ n := rfl

/-! ### Fields -/

/-- The bit of the sign. -/
def signBit (negative : Bool) : Nat := if negative then 2 ^ 63 else 0

theorem signBit_cases (negative : Bool) :
    negative = false ∧ signBit negative = 0 ∨ negative = true ∧ signBit negative = 2 ^ 63 := by
  cases negative
  · exact .inl ⟨rfl, rfl⟩
  · exact .inr ⟨rfl, rfl⟩

theorem exists_fields (x : Float) :
    ∃ negative k f, k < 2 ^ 11 ∧ f < 2 ^ 52 ∧
      x.toBits.toNat = signBit negative + (k * 2 ^ 52 + f) := by
  have size := x.toBits.toNat_lt
  by_cases negative : 2 ^ 63 ≤ x.toBits.toNat
  · have sign : signBit true = 2 ^ 63 := rfl
    refine ⟨true, (x.toBits.toNat - 2 ^ 63) / 2 ^ 52, x.toBits.toNat % 2 ^ 52, ?_⟩
    omega
  · have sign : signBit false = 0 := rfl
    refine ⟨false, x.toBits.toNat / 2 ^ 52, x.toBits.toNat % 2 ^ 52, ?_⟩
    omega

section Fields

variable {x : Float} {negative : Bool} {k f : Nat}

theorem shape_of_fields (exponent : k < 2 ^ 11) (fraction : f < 2 ^ 52)
    (bits : x.toBits.toNat = signBit negative + (k * 2 ^ 52 + f)) :
    shape x =
      if k = 2047 then if f = 0 then .infinite negative else .nan
      else if k = 0 then .finite negative f leastExponent
      else .finite negative (2 ^ 52 + f) (k - 1075) := by
  have sign : (x.toBits.toNat / twoPow 63 == 1) = negative := by
    change (x.toBits.toNat / 2 ^ 63 == 1) = negative
    rcases signBit_cases negative with ⟨rfl, place⟩ | ⟨rfl, place⟩
    · rw [beq_eq_false_iff_ne]
      omega
    · rw [beq_iff_eq]
      omega
  have high : x.toBits.toNat / twoPow 52 % twoPow 11 = k := by
    change x.toBits.toNat / 2 ^ 52 % 2 ^ 11 = k
    rcases signBit_cases negative with ⟨_, place⟩ | ⟨_, place⟩ <;> omega
  have low : x.toBits.toNat % twoPow 52 = f := by
    change x.toBits.toNat % 2 ^ 52 = f
    rcases signBit_cases negative with ⟨_, place⟩ | ⟨_, place⟩ <;> omega
  unfold shape
  dsimp only
  rw [sign, high, low]
  rfl

open Float.Model Float.Model.UnpackedFloat in
/-- There is only one double that is not a number. -/
theorem eq_nan_of_fields (some : f ≠ 0) (fraction : f < 2 ^ 52)
    (bits : x.toBits.toNat = signBit negative + (2047 * 2 ^ 52 + f)) : x = Float.nan := by
  have whole : x.toBits.toBitVec.toNat = signBit negative + (2047 * 2 ^ 52 + f) := bits
  have packed : x.toBits.toBitVec = packedNaN Format.binary64 := by
    apply x.toModel.valid.eq_packedNaN
    · rw [unpackExponent_def]
      apply BitVec.eq_of_toNat_eq
      rw [BitVec.extractLsb'_toNat, Nat.shiftRight_eq_div_pow]
      change x.toBits.toBitVec.toNat / 2 ^ 52 % 2 ^ 11 = 2047
      rcases signBit_cases negative with ⟨_, place⟩ | ⟨_, place⟩ <;> omega
    · rw [unpackMantissa_def]
      intro zero
      have none := congrArg BitVec.toNat zero
      rw [BitVec.extractLsb'_toNat, Nat.shiftRight_zero] at none
      change x.toBits.toBitVec.toNat % 2 ^ 52 = 0 at none
      rcases signBit_cases negative with ⟨_, place⟩ | ⟨_, place⟩ <;> omega
  have nan : Float.nan.toBits.toBitVec = packedNaN Format.binary64 := rfl
  exact Float.toBits_inj.mp (UInt64.toBitVec_inj.mp (packed.trans nan.symm))

end Fields

open Float.Model Float.Model.UnpackedFloat in
/-- The bits of a number are those that it is made from. -/
theorem toBits_ofBits {b : UInt64}
    (number : b.toNat / 2 ^ 52 % 2 ^ 11 ≠ 2047 ∨ b.toNat % 2 ^ 52 = 0) :
    (Float.ofBits b).toBits = b := by
  have canonical : @isNaNBits Format.binary64 b.toBitVec = false := by
    rw [isNaNBits, unpackExponent_def, unpackMantissa_def, decide_eq_false_iff_not]
    rintro ⟨exponent, fraction⟩
    have ones := congrArg BitVec.toNat exponent
    simp only [BitVec.extractLsb'_toNat, Nat.shiftRight_eq_div_pow] at ones
    rcases number with other | zero
    · exact other ones
    · apply fraction
      apply BitVec.eq_of_toNat_eq
      simpa [BitVec.extractLsb'_toNat] using zero
  have packed := @pack_unpack Format.binary64 b.toBitVec
  rw [canonical, if_neg Bool.false_ne_true] at packed
  change UInt64.ofBitVec (UnpackedFloat.pack .binary64 (unpack .binary64 b.toBitVec)) = b
  rw [packed]

/-! ### The one way to write a finite double -/

/-- A mantissa of 53 bits, or of fewer with the least exponent. -/
structure Canonical (m : Nat) (e : Int) : Prop where
  lt : m < 2 ^ 53
  least : leastExponent ≤ e
  greatest : e ≤ 971
  normal : 2 ^ 52 ≤ m ∨ e = leastExponent

/-- The bits of `m * 2 ^ e` without the sign. -/
def magnitude (m : Nat) (e : Int) : Nat := (e - leastExponent).toNat * 2 ^ 52 + m

/-- What a double can be, and its bits. -/
theorem shape_cases (x : Float) :
    (∃ negative m e, shape x = .finite negative m e ∧ Canonical m e ∧
      x.toBits.toNat = signBit negative + magnitude m e) ∨
    (∃ negative, shape x = .infinite negative ∧
      x.toBits.toNat = signBit negative + 2047 * 2 ^ 52) ∨
    (shape x = .nan ∧ x = Float.nan) := by
  obtain ⟨negative, k, f, exponent, fraction, bits⟩ := exists_fields x
  have whole := shape_of_fields exponent fraction bits
  unfold magnitude
  by_cases special : k = 2047
  · rw [if_pos special] at whole
    rw [special] at bits
    by_cases zero : f = 0
    · rw [if_pos zero] at whole
      rw [zero, Nat.add_zero] at bits
      exact .inr (.inl ⟨negative, whole, bits⟩)
    · rw [if_neg zero] at whole
      exact .inr (.inr ⟨whole, eq_nan_of_fields zero fraction bits⟩)
  · rw [if_neg special] at whole
    by_cases small : k = 0
    · rw [if_pos small] at whole
      have canonical : Canonical f leastExponent :=
        ⟨by omega, Int.le_refl _, by decide, .inr rfl⟩
      refine .inl ⟨negative, f, leastExponent, whole, canonical, ?_⟩
      rw [bits, small, Int.sub_self, Int.toNat_zero]
    · rw [if_neg small] at whole
      have canonical : Canonical (2 ^ 52 + f) (k - 1075) := by
        constructor
        case least => unfold leastExponent; omega
        all_goals omega
      have place : ((k : Int) - 1075 - leastExponent).toNat + 1 = k := by
        unfold leastExponent
        omega
      refine .inl ⟨negative, _, _, whole, canonical, ?_⟩
      rw [bits]
      omega

/-- Different doubles have different shapes. -/
theorem shape_injective : Function.Injective shape := by
  intro x y same
  rcases shape_cases x with ⟨_, _, _, left, _, bits⟩ | ⟨_, left, bits⟩ | ⟨left, nan⟩ <;>
    rcases shape_cases y with ⟨_, _, _, right, _, bits'⟩ | ⟨_, right, bits'⟩ | ⟨right, nan'⟩ <;>
      rw [left, right] at same <;> cases same
  · exact Float.toBits_inj.mp (UInt64.toNat_inj.mp (bits.trans bits'.symm))
  · exact Float.toBits_inj.mp (UInt64.toNat_inj.mp (bits.trans bits'.symm))
  · exact nan.trans nan'.symm

/-! ### Packing -/

theorem pack_eq (negative : Bool) (m : Nat) (e : Int) :
    pack negative m e =
      Float.ofBits (UInt64.ofNat (signBit negative + min (magnitude m e) (2047 * 2 ^ 52))) := by
  unfold pack magnitude signBit
  simp only [twoPow_eq]
  cases negative <;> simp

theorem shape_packed {negative : Bool} {k f : Nat} (number : k < 2047 ∨ k = 2047 ∧ f = 0)
    (fraction : f < 2 ^ 52) :
    shape (Float.ofBits (UInt64.ofNat (signBit negative + (k * 2 ^ 52 + f)))) =
      if k = 2047 then .infinite negative
      else if k = 0 then .finite negative f leastExponent
      else .finite negative (2 ^ 52 + f) (k - 1075) := by
  have place := signBit_cases negative
  have size : signBit negative + (k * 2 ^ 52 + f) < 2 ^ 64 := by omega
  have word : (UInt64.ofNat (signBit negative + (k * 2 ^ 52 + f))).toNat =
      signBit negative + (k * 2 ^ 52 + f) := UInt64.toNat_ofNat_of_lt' size
  have bits := toBits_ofBits (b := UInt64.ofNat (signBit negative + (k * 2 ^ 52 + f)))
    (by rw [word]; omega)
  have exponent : k < 2 ^ 11 := by omega
  have whole := congrArg UInt64.toNat bits
  rw [word] at whole
  rw [shape_of_fields exponent fraction whole]
  by_cases special : k = 2047
  · rw [if_pos special, if_pos special, if_pos (by omega)]
  · rw [if_neg special, if_neg special]

/-- What is packed from the writing of a double has that writing. -/
theorem shape_pack (negative : Bool) {m : Nat} {e : Int} (canonical : Canonical m e) :
    shape (pack negative m e) = .finite negative m e := by
  obtain ⟨lt, least, greatest, normal⟩ := canonical
  rw [pack_eq]
  unfold magnitude leastExponent at *
  by_cases small : m < 2 ^ 52
  · have bottom : e = -1074 := by omega
    have place : min ((e - -1074).toNat * 2 ^ 52 + m) (2047 * 2 ^ 52) = 0 * 2 ^ 52 + m := by omega
    rw [place, shape_packed (by omega) small, bottom]
    rfl
  · have place : min ((e - -1074).toNat * 2 ^ 52 + m) (2047 * 2 ^ 52) =
        (e + 1075).toNat * 2 ^ 52 + (m - 2 ^ 52) := by omega
    have mantissa : 2 ^ 52 + (m - 2 ^ 52) = m := by omega
    have exponent : ((e + 1075).toNat : Int) - 1075 = e := by omega
    rw [place, shape_packed (by omega) (by omega), if_neg (by omega), if_neg (by omega), mantissa,
      exponent]

/-- A mantissa that was rounded up to 54 bits is carried into the exponent. -/
theorem pack_carry (negative : Bool) {e : Int} (least : leastExponent ≤ e) :
    pack negative (2 ^ 53) e = pack negative (2 ^ 52) (e + 1) := by
  have same : magnitude (2 ^ 53) e = magnitude (2 ^ 52) (e + 1) := by
    unfold magnitude
    omega
  rw [pack_eq, pack_eq, same]

/-- What is too large for a double is infinite. -/
theorem shape_pack_of_lt (negative : Bool) {m : Nat} {e : Int} (large : 971 < e)
    (normal : 2 ^ 52 ≤ m) : shape (pack negative m e) = .infinite negative := by
  have place : min (magnitude m e) (2047 * 2 ^ 52) = 2047 * 2 ^ 52 + 0 := by
    unfold magnitude leastExponent
    omega
  rw [pack_eq, place, shape_packed (.inr ⟨rfl, rfl⟩) (by decide)]
  rfl

/-! ### Numbers -/

/-- A number that a double can stand for. -/
inductive Number where
  | infinite (negative : Bool)
  | finite (q : ℚ)
  deriving DecidableEq

/-- `mantissa * 2 ^ exponent` with its sign. -/
def signed (negative : Bool) (mantissa : Nat) (exponent : Int) : ℚ :=
  (if negative then -1 else 1) * (mantissa * 2 ^ exponent)

/-- The number that a double stands for, unless it is not a number. -/
def number? (x : Float) : Option Number :=
  match shape x with
  | .nan => none
  | .infinite negative => some (.infinite negative)
  | .finite negative m e => some (.finite (signed negative m e))

theorem number?_of_finite {x : Float} {negative : Bool} {m : Nat} {e : Int}
    (finite : shape x = .finite negative m e) : number? x = some (.finite (signed negative m e)) := by
  rw [number?, finite]

theorem number?_of_infinite {x : Float} {negative : Bool} (infinite : shape x = .infinite negative) :
    number? x = some (.infinite negative) := by
  rw [number?, infinite]

theorem number?_eq_none_iff {x : Float} : number? x = none ↔ x = Float.nan := by
  have nan : shape Float.nan = .nan := rfl
  rw [number?]
  rcases shape_cases x with ⟨_, _, _, same, _⟩ | ⟨_, same, _⟩ | ⟨same, eq⟩ <;> rw [same]
  · refine ⟨nofun, ?_⟩
    rintro rfl
    rw [nan] at same
    cases same
  · refine ⟨nofun, ?_⟩
    rintro rfl
    rw [nan] at same
    cases same
  · exact ⟨fun _ => eq, fun _ => rfl⟩

/-- A positive double is written in one way. -/
theorem Canonical.unique {m m' : Nat} {e e' : Int} (canonical : Canonical m e)
    (canonical' : Canonical m' e') (some : m ≠ 0) (same : (m * 2 ^ e : ℚ) = m' * 2 ^ e') :
    m = m' ∧ e = e' := by
  wlog order : e ≤ e' generalizing m m' e e'
  · have some' : m' ≠ 0 := by
      rintro rfl
      have : (m * 2 ^ e : ℚ) ≠ 0 := by positivity
      simp_all
    have swapped := this canonical' canonical some' same.symm (by omega)
    exact ⟨swapped.1.symm, swapped.2.symm⟩
  obtain ⟨k, rfl⟩ : ∃ k : Nat, e' = e + k := ⟨(e' - e).toNat, by omega⟩
  have power : (2 : ℚ) ^ e ≠ 0 := by positivity
  rw [zpow_add₀ (by decide), zpow_natCast] at same
  have whole : (m : ℚ) = m' * 2 ^ k := by
    field_simp at same
    linarith
  have nat : m = m' * 2 ^ k := by exact_mod_cast whole
  cases k with
  | zero => exact ⟨by simpa using nat, by simp⟩
  | succ k =>
      -- The smaller exponent is not the least one plus something, so the other mantissa is normal.
      have large : 2 ^ 52 ≤ m' := by
        have := canonical.least
        have := canonical'.normal
        omega
      have double : 1 * 2 ≤ 2 ^ k * 2 := Nat.mul_le_mul_right 2 Nat.one_le_two_pow
      have product := Nat.mul_le_mul large double
      have := canonical.lt
      rw [pow_succ] at nat
      omega

theorem abs_signed (negative : Bool) (m : Nat) (e : Int) : |signed negative m e| = m * 2 ^ e := by
  have pos : (0 : ℚ) ≤ m * 2 ^ e := by positivity
  cases negative <;> simp [signed, abs_of_nonneg pos]

theorem signed_eq_zero_iff {negative : Bool} {m : Nat} {e : Int} :
    signed negative m e = 0 ↔ m = 0 := by
  have power : (2 : ℚ) ^ e ≠ 0 := by positivity
  unfold signed
  cases negative <;> simp [power]

/-- Up to the sign of zero, a number has one shape. -/
theorem eq_of_signed_eq {negative negative' : Bool} {m m' : Nat} {e e' : Int}
    (canonical : Canonical m e) (canonical' : Canonical m' e')
    (same : signed negative m e = signed negative' m' e') :
    m = m' ∧ e = e' ∧ (m = 0 ∨ negative = negative') := by
  by_cases none : m = 0
  · have none' : m' = 0 := signed_eq_zero_iff.mp (same.symm.trans (signed_eq_zero_iff.mpr none))
    have := canonical.normal
    have := canonical'.normal
    omega
  · have none' : m' ≠ 0 := fun zero =>
      none (signed_eq_zero_iff.mp (same.trans (signed_eq_zero_iff.mpr zero)))
    have pos : (0 : ℚ) < m * 2 ^ e := by positivity
    have pos' : (0 : ℚ) < m' * 2 ^ e' := by positivity
    unfold signed at same
    have sizes : (m * 2 ^ e : ℚ) = m' * 2 ^ e' ∧ negative = negative' := by
      cases negative <;> cases negative' <;> simp at same ⊢ <;> linarith
    obtain ⟨mantissa, exponent⟩ := canonical.unique canonical' none sizes.1
    exact ⟨mantissa, exponent, .inr sizes.2⟩

theorem shape_zero : shape 0 = .finite false 0 leastExponent := rfl

theorem shape_neg_zero : shape (-0) = .finite true 0 leastExponent := rfl

theorem number?_zero : number? 0 = some (.finite 0) := by
  rw [number?_of_finite shape_zero, signed_eq_zero_iff.mpr rfl]

theorem number?_neg_zero : number? (-0) = some (.finite 0) := by
  rw [number?_of_finite shape_neg_zero, signed_eq_zero_iff.mpr rfl]

/-- Doubles that stand for one number are the same, or they are the two zeros. -/
theorem eq_of_number?_eq {x y : Float} {q : Number} (left : number? x = some q)
    (right : number? y = some q) : x = y ∨ x = 0 ∧ y = -0 ∨ x = -0 ∧ y = 0 := by
  rcases shape_cases x with ⟨a, m, e, here, canonical, _⟩ | ⟨a, here, _⟩ | ⟨_, nan⟩
  · rw [number?_of_finite here] at left
    cases left
    rcases shape_cases y with ⟨b, m', e', there, canonical', _⟩ | ⟨b, there, _⟩ | ⟨_, nan⟩
    · rw [number?_of_finite there] at right
      have same := (Number.finite.inj (Option.some.inj right)).symm
      obtain ⟨rfl, rfl, zero | rfl⟩ := eq_of_signed_eq canonical canonical' same
      · obtain rfl := zero
        obtain rfl : e = leastExponent := canonical.normal.resolve_left (by decide)
        cases a <;> cases b
        · exact .inl (shape_injective (here.trans there.symm))
        · exact .inr (.inl ⟨shape_injective (here.trans shape_zero.symm),
            shape_injective (there.trans shape_neg_zero.symm)⟩)
        · exact .inr (.inr ⟨shape_injective (here.trans shape_neg_zero.symm),
            shape_injective (there.trans shape_zero.symm)⟩)
        · exact .inl (shape_injective (here.trans there.symm))
      · exact .inl (shape_injective (here.trans there.symm))
    · rw [number?_of_infinite there] at right
      cases right
    · rw [number?_eq_none_iff.mpr nan] at right
      cases right
  · rw [number?_of_infinite here] at left
    cases left
    rcases shape_cases y with ⟨b, _, _, there, _⟩ | ⟨b, there, _⟩ | ⟨_, nan⟩
    · rw [number?_of_finite there] at right
      cases right
    · rw [number?_of_infinite there] at right
      cases right
      exact .inl (shape_injective (here.trans there.symm))
    · rw [number?_eq_none_iff.mpr nan] at right
      cases right
  · rw [number?_eq_none_iff.mpr nan] at left
    cases left

/-- The equality of doubles is that of the numbers they stand for. -/
theorem beq_iff {x y : Float} :
    (x == y) = true ↔ ∃ q, number? x = some q ∧ number? y = some q := by
  rw [Float.beq_iff_ne_nan_and_eq]
  constructor
  · rintro ⟨number, _, rfl | ⟨rfl, rfl⟩ | ⟨rfl, rfl⟩⟩
    · obtain ⟨q, some⟩ := Option.ne_none_iff_exists'.mp (mt number?_eq_none_iff.mp number)
      exact ⟨q, some, some⟩
    · exact ⟨_, number?_zero, number?_neg_zero⟩
    · exact ⟨_, number?_neg_zero, number?_zero⟩
  · rintro ⟨q, left, right⟩
    have number (z : Float) (some : number? z = some q) : z ≠ Float.nan := by
      intro nan
      rw [number?_eq_none_iff.mpr nan] at some
      cases some
    exact ⟨number x left, number y right, eq_of_number?_eq left right⟩

/-! ### Whole parts -/

theorem zpow_eq_div {b : ℚ} (e : Int) : b ^ e = b ^ e.toNat / b ^ (-e).toNat := by
  rcases Int.le_total 0 e with pos | neg
  · have none : (-e).toNat = 0 := by omega
    rw [none, pow_zero, div_one, ← zpow_natCast, Int.toNat_of_nonneg pos]
  · have none : e.toNat = 0 := by omega
    rw [none, pow_zero, one_div, ← zpow_natCast, Int.toNat_of_nonneg (by omega), zpow_neg, inv_inv]

/-- The floor of a double is that of the number it stands for. -/
theorem floor?_of_finite {x : Float} {q : ℚ} (number : number? x = some (.finite q)) :
    floor? x = some ⌊q⌋ := by
  rcases shape_cases x with ⟨negative, m, e, finite, _⟩ | ⟨_, infinite, _⟩ | ⟨_, nan⟩
  · rw [number?_of_finite finite] at number
    cases number
    have scaled : signed negative m e =
        (((if negative then -(m * 2 ^ e.toNat : Int) else m * 2 ^ e.toNat) : Int) : ℚ) /
          ((2 ^ (-e).toNat : Nat) : ℚ) := by
      unfold signed
      rw [zpow_eq_div]
      cases negative <;> simp <;> ring
    rw [scaled, Rat.floor_intCast_div_natCast, floor?, finite]
    simp only [twoPow_eq]
    push_cast
    rfl
  · rw [number?_of_infinite infinite] at number
    cases number
  · rw [number?_eq_none_iff.mpr nan] at number
    cases number

theorem floor?_eq_none_iff {x : Float} : floor? x = none ↔ ∀ q, number? x ≠ some (.finite q) := by
  unfold floor? number?
  cases shape x <;> simp

theorem mul_zpow_eq_iff {m k : Nat} {e : Int} :
    (m * 2 ^ e : ℚ) = k ↔ m * 2 ^ e.toNat = k * 2 ^ (-e).toNat := by
  rw [zpow_eq_div, mul_div_assoc', div_eq_iff (by positivity)]
  exact_mod_cast Iff.rfl

theorem wholePart_of_eq {m k : Nat} {e : Int} (same : (m * 2 ^ e : ℚ) = k) : wholePart m e = k := by
  have pos : 0 < 2 ^ (-e).toNat := Nat.two_pow_pos _
  unfold wholePart
  rw [twoPow_eq, twoPow_eq, mul_zpow_eq_iff.mp same, Nat.mul_div_cancel _ pos]

theorem isWhole_iff {m : Nat} {e : Int} : isWhole m e = true ↔ ∃ k : Nat, (m * 2 ^ e : ℚ) = k := by
  unfold isWhole
  rw [beq_iff_eq, twoPow_eq]
  constructor
  · intro whole
    obtain ⟨c, rfl⟩ := Nat.dvd_of_mod_eq_zero whole
    exact ⟨c * 2 ^ e.toNat, mul_zpow_eq_iff.mpr (by ring)⟩
  · rintro ⟨k, same⟩
    have scaled := mul_zpow_eq_iff.mp same
    rcases Int.le_total 0 e with pos | neg
    · have none : (-e).toNat = 0 := by omega
      rw [none, pow_zero, Nat.mod_one]
    · have none : e.toNat = 0 := by omega
      rw [none, pow_zero, Nat.mul_one] at scaled
      rw [scaled, Nat.mul_mod_left]

/-! ### Fractional parts -/

open Float.Model Float.Model.UnpackedFloat in
/-- The zeros of the model of doubles are the two zeros. -/
theorem unpack_zero_iff {x : Float} : (∃ s, x.toModel.unpack = .zero s) ↔ x = 0 ∨ x = -0 := by
  have bits (s : Sign) : x.toModel.unpack = .zero s ↔ x.toBits.toBitVec = packedZero Format.binary64 s :=
    unpack_eq_zero_iff_of_valid x.toModel.valid
  have positive : (0 : Float).toBits.toBitVec = packedZero Format.binary64 .positive := rfl
  have negative : (-0 : Float).toBits.toBitVec = packedZero Format.binary64 .negative := rfl
  constructor
  · rintro ⟨s, zero⟩
    rw [bits] at zero
    cases s with
    | positive =>
        exact .inl (Float.toBits_inj.mp (UInt64.toBitVec_inj.mp (zero.trans positive.symm)))
    | negative =>
        exact .inr (Float.toBits_inj.mp (UInt64.toBitVec_inj.mp (zero.trans negative.symm)))
  · rintro (rfl | rfl)
    · exact ⟨.positive, (bits _).mpr positive⟩
    · exact ⟨.negative, (bits _).mpr negative⟩

open Float.Model Float.Model.UnpackedFloat in
theorem sub_zero_eq {x z : Float} (nonzero : ¬ (x = 0 ∨ x = -0)) (zero : z = 0 ∨ z = -0) : x - z = x := by
  obtain ⟨s, unpacked⟩ := unpack_zero_iff.mpr zero
  have same : UnpackedFloat.sub Format.binary64 x.toModel.unpack (.zero s) = x.toModel.unpack := by
    cases whole : x.toModel.unpack with
    | zero t => exact absurd (unpack_zero_iff.mp ⟨t, whole⟩) nonzero
    | notANumber | infinity _ | finite _ _ _ _ => rfl
  have packed : UnpackedFloat.pack Format.binary64 x.toModel.unpack = x.toBits.toBitVec :=
    pack_unpack_of_valid x.toModel.valid
  apply Float.toBits_inj.mp
  change UInt64.ofBitVec (UnpackedFloat.pack .binary64
    (UnpackedFloat.sub .binary64 x.toModel.unpack z.toModel.unpack)) = _
  rw [unpacked, same, packed]

/-- All of a double between -1 and 1 is cut off. -/
theorem fract_of_small {x : Float} {q : ℚ} (number : number? x = some (.finite q)) (nonzero : q ≠ 0)
    (small : |q| < 1) : fract x = x := by
  have apart : ¬ (x = 0 ∨ x = -0) := by
    rintro (rfl | rfl)
    · rw [number?_zero] at number
      cases number
      exact nonzero rfl
    · rw [number?_neg_zero] at number
      cases number
      exact nonzero rfl
  apply sub_zero_eq apart
  rcases shape_cases x with ⟨negative, m, e, finite, -, -⟩ | ⟨_, infinite, -⟩ | ⟨_, nan⟩
  · rw [number?_of_finite finite] at number
    cases number
    rw [abs_signed] at small
    have below : m * 2 ^ e.toNat < 2 ^ (-e).toNat := by
      rw [zpow_eq_div, mul_div_assoc', div_lt_one (by positivity)] at small
      exact_mod_cast small
    have fraction : ¬ 0 ≤ e := by
      intro whole
      rw [show (-e).toNat = 0 by omega, pow_zero] at below
      have mantissa : 0 < m := Nat.pos_of_ne_zero fun zero => nonzero (signed_eq_zero_iff.mpr zero)
      have := Nat.mul_pos mantissa (Nat.two_pow_pos e.toNat)
      omega
    have none : wholePart m e = 0 := Nat.div_eq_of_lt below
    rw [trunc, finite]
    dsimp only
    rw [if_neg fraction, none]
    cases negative
    · exact .inl rfl
    · exact .inr rfl
  · rw [number?_of_infinite infinite] at number
    cases number
  · rw [number?_eq_none_iff.mpr nan] at number
    cases number
end Pseudocode.Binary64

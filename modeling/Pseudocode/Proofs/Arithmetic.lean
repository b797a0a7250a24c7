import Mathlib.Data.Rat.Floor
import Pseudocode.Operator
import Pseudocode.Proofs.Bisimilarity

/-!
Integer arithmetic is exact or refused.

Sums, differences, products and negations are the exact integers when these have 64 bits,
and an overflow when they have not. Quotient and remainder belong together: both are
refused for a divisor of zero and for the one quotient that does not fit, and else they
are those of the division that truncates. Comparisons are those of the integers
(`Operator.integers_exact`).
-/

namespace Pseudocode

namespace Operator

/-! ### Exact or refused -/

/-- The integer, or the refusal of one that has no 64 bits. Each integer falls under one
case. -/
inductive Exactly (z : Int) (refusal : Cause) : Except Cause Value → Prop where
  | exact {n : Int64} (same : n.toInt = z) : Exactly z refusal (.ok (.integer n))
  | refused (out : z < -2 ^ 63 ∨ 2 ^ 63 ≤ z) : Exactly z refusal (.error refusal)

theorem out_of_narrow? {z : Int} (none : Integer.narrow? z = none) : z < -2 ^ 63 ∨ 2 ^ 63 ≤ z := by
  have out := Integer.narrow?_eq_none_iff.mp none
  unfold Integer.least Integer.greatest at out
  omega

theorem exactly_narrow (op : BinaryOp) (z : Int) :
    Exactly z (.misuse (.overflow op)) (exact op (Integer.narrow? z)) := by
  cases fits : Integer.narrow? z with
  | some n => exact .exact (Integer.narrow?_eq_some_iff.mp fits)
  | none => exact .refused (out_of_narrow? fits)

theorem exactly_neg (h : Heap) (a : Int64) :
    Exactly (-a.toInt) (.misuse .negationOverflow) (unary h .neg (.integer a)) := by
  unfold unary Integer.neg?
  dsimp only
  cases fits : Integer.narrow? (-a.toInt) with
  | some n => exact .exact (Integer.narrow?_eq_some_iff.mp fits)
  | none => exact .refused (out_of_narrow? fits)

/-- Only the least integer has no negation. -/
theorem unary_neg_refused_iff (h : Heap) (a : Int64) :
    unary h .neg (.integer a) = .error (.misuse .negationOverflow) ↔ a.toInt = -2 ^ 63 := by
  have bounds := Integer.toInt_bounds a
  unfold Integer.least Integer.greatest at bounds
  have answer := exactly_neg h a
  generalize unary h .neg (.integer a) = result at answer
  cases answer with
  | @exact n same =>
      have bounds' := Integer.toInt_bounds n
      unfold Integer.least Integer.greatest at bounds'
      exact iff_of_false nofun (by omega)
  | refused out => exact iff_of_true rfl (by omega)

/-! ### Division -/

/-- A rational number without its fraction. -/
def truncated (x : ℚ) : Int := if 0 ≤ x then ⌊x⌋ else ⌈x⌉

/-- The answers of `DIV` and `MOD`. Each pair of integers falls under one case. -/
inductive Divided (a b : Int64) : Except Cause Value → Except Cause Value → Prop where
  | byZero (zero : b.toInt = 0) : Divided a b (.error .divisionByZero) (.error .divisionByZero)
  | refused (least : a.toInt = -2 ^ 63) (minusOne : b.toInt = -1) :
      Divided a b (.error (.misuse (.overflow .intDiv))) (.error (.misuse (.overflow .mod)))
  | exact {q r : Int64} (divisor : b.toInt ≠ 0) (fits : a.toInt ≠ -2 ^ 63 ∨ b.toInt ≠ -1)
      (whole : a.toInt = q.toInt * b.toInt + r.toInt) (small : |r.toInt| < |b.toInt|)
      (quotient : q.toInt = truncated ((a.toInt : ℚ) / b.toInt))
      (sign : r.toInt = 0 ∨ r.toInt.sign = a.toInt.sign) :
      Divided a b (.ok (.integer q)) (.ok (.integer r))

/-- The remainder is zero or on the side of the dividend. -/
theorem tmod_side (a b : Int) : (0 ≤ a → 0 ≤ a.tmod b) ∧ (a ≤ 0 → a.tmod b ≤ 0) := by
  refine ⟨Int.tmod_nonneg b, fun negative => ?_⟩
  have mirrored := Int.tmod_nonneg b (Int.neg_nonneg_of_nonpos negative)
  rw [Int.neg_tmod] at mirrored
  omega

theorem sign_tmod_eq (a b : Int) : a.tmod b = 0 ∨ (a.tmod b).sign = a.sign := by
  rw [Int.sign_tmod]
  split
  · rename_i divides
    exact .inl (Int.tmod_eq_zero_of_dvd divides)
  · exact .inr rfl

theorem abs_tmod_lt (a : Int) {b : Int} (divisor : b ≠ 0) : |a.tmod b| < |b| := by
  rw [Int.abs_eq_natAbs, Int.abs_eq_natAbs, Int.natAbs_tmod, Int.ofNat_lt]
  exact Nat.mod_lt _ (Int.natAbs_pos.mpr divisor)

/-- The fraction that the truncated quotient leaves out is less than one, and on the side
of the quotient. -/
theorem tdiv_eq_truncated (a : Int) {b : Int} (divisor : b ≠ 0) :
    a.tdiv b = truncated ((a : ℚ) / b) := by
  have nonzero : (b : ℚ) ≠ 0 := Int.cast_ne_zero.mpr divisor
  have whole : ((a.tdiv b * b + a.tmod b : Int) : ℚ) = a := by
    rw [Int.tdiv_mul_add_tmod]
  have parts : (a : ℚ) / b = a.tdiv b + (a.tmod b : ℚ) / b := by
    rw [← whole, Int.cast_add, Int.cast_mul]
    field_simp
  have small : |(a.tmod b : ℚ) / b| < 1 := by
    rw [abs_div, div_lt_one (abs_pos.mpr nonzero)]
    exact_mod_cast abs_tmod_lt a divisor
  obtain ⟨above, below⟩ := abs_lt.mp small
  obtain ⟨positive, negative⟩ := tmod_side a b
  unfold truncated
  split
  · rename_i side
    have fraction : 0 ≤ (a.tmod b : ℚ) / b := by
      rcases div_nonneg_iff.mp side with ⟨up, right⟩ | ⟨down, left⟩
      · exact div_nonneg (by exact_mod_cast positive (by exact_mod_cast up)) right
      · exact div_nonneg_of_nonpos (by exact_mod_cast negative (by exact_mod_cast down)) left
    refine (Int.floor_eq_iff.mpr ?_).symm
    constructor <;> linarith
  · rename_i side
    have fraction : (a.tmod b : ℚ) / b ≤ 0 := by
      rcases div_neg_iff.mp (not_le.mp side) with ⟨up, left⟩ | ⟨down, right⟩
      · exact div_nonpos_of_nonneg_of_nonpos
          (by exact_mod_cast positive (by exact_mod_cast up.le)) left.le
      · exact div_nonpos_of_nonpos_of_nonneg
          (by exact_mod_cast negative (by exact_mod_cast down.le)) right.le
    refine (Int.ceil_eq_iff.mpr ?_).symm
    constructor <;> linarith

/-- The quotient of two integers fits, but for one pair. -/
theorem tdiv_out_iff {a b : Int64} :
    (a.toInt.tdiv b.toInt < -2 ^ 63 ∨ 2 ^ 63 ≤ a.toInt.tdiv b.toInt) ↔
      a.toInt = -2 ^ 63 ∧ b.toInt = -1 := by
  have bounds := Integer.toInt_bounds a
  unfold Integer.least Integer.greatest at bounds
  constructor
  · intro out
    have quotient : (a.toInt.tdiv b.toInt).natAbs = a.toInt.natAbs / b.toInt.natAbs :=
      Int.natAbs_tdiv ..
    have size : 2 ^ 63 ≤ a.toInt.natAbs / b.toInt.natAbs := by omega
    have unit : b.toInt.natAbs = 1 := by
      by_contra other
      rcases Nat.lt_or_gt_of_ne other with zero | larger
      · rw [Nat.lt_one_iff.mp zero, Nat.div_zero] at size
        omega
      · have half : a.toInt.natAbs / b.toInt.natAbs ≤ a.toInt.natAbs / 2 :=
          Nat.div_le_div_left larger (by decide)
        omega
    rcases Int.natAbs_eq_iff.mp unit with one | minusOne
    · rw [one, Nat.cast_one, Int.tdiv_one] at out
      omega
    · rw [unit, Nat.div_one] at size
      exact ⟨by omega, minusOne⟩
  · rintro ⟨least, minusOne⟩
    rw [least, minusOne]
    exact .inr (by decide)

/-- A remainder always fits. -/
theorem exists_tmod (a : Int64) {b : Int64} (divisor : b.toInt ≠ 0) :
    ∃ r, Integer.narrow? (a.toInt.tmod b.toInt) = some r := by
  have bounds := Integer.toInt_bounds b
  have small := abs_tmod_lt a.toInt divisor
  cases fits : Integer.narrow? (a.toInt.tmod b.toInt) with
  | some r => exact ⟨r, rfl⟩
  | none =>
      have out := out_of_narrow? fits
      unfold Integer.least Integer.greatest at bounds
      rw [Int.abs_eq_natAbs, Int.abs_eq_natAbs] at small
      omega

theorem binary_divided (h : Heap) (a b : Int64) :
    Divided a b (binary h .intDiv (.integer a) (.integer b))
      (binary h .mod (.integer a) (.integer b)) := by
  change Divided a b
    (if b.toInt = 0 then .error .divisionByZero else exact .intDiv (Integer.div? a b))
    (if b.toInt = 0 then .error .divisionByZero else exact .mod (Integer.mod? a b))
  by_cases zero : b.toInt = 0
  · rw [if_pos zero, if_pos zero]
    exact .byZero zero
  · rw [if_neg zero, if_neg zero]
    unfold Integer.mod?
    cases quotient : Integer.div? a b with
    | none =>
        obtain ⟨least, minusOne⟩ := tdiv_out_iff.mp (out_of_narrow? quotient)
        exact .refused least minusOne
    | some q =>
        obtain ⟨r, remainder⟩ := exists_tmod a zero
        rw [Option.bind_some, remainder]
        have same := Integer.narrow?_eq_some_iff.mp quotient
        have rest := Integer.narrow?_eq_some_iff.mp remainder
        have bounds := Integer.toInt_bounds q
        unfold Integer.least Integer.greatest at bounds
        refine .exact zero ?_ ?_ ?_ ?_ ?_
        · by_contra both
          have out := tdiv_out_iff.mpr (by omega : a.toInt = -2 ^ 63 ∧ b.toInt = -1)
          omega
        · rw [same, rest, Int.tdiv_mul_add_tmod]
        · rw [rest]
          exact abs_tmod_lt a.toInt zero
        · rw [same]
          exact tdiv_eq_truncated a.toInt zero
        · rw [rest]
          exact sign_tmod_eq a.toInt b.toInt

/-! ### Comparison -/

theorem valuesEqual_integers (h : Heap) (a b : Int64) :
    h.valuesEqual (.integer a) (.integer b) = decide (a.toInt = b.toInt) := by
  have only : h.allEqual [] [] = true := by rw [Heap.allEqual]
  rw [Heap.valuesEqual, Heap.allEqual_scalar (by rintro _ _ ⟨⟩), only, Bool.and_true,
    Bool.eq_iff_iff, decide_eq_true_iff, Int64.toInt_inj]
  exact beq_iff_eq

/-- A comparison holds for the order of two integers when it does for them. -/
theorem holds_compare (x y : Int) :
    holds .greater (some (compare x y)) = decide (x > y) ∧
      holds .less (some (compare x y)) = decide (x < y) ∧
      holds .greaterEq (some (compare x y)) = decide (x ≥ y) ∧
      holds .lessEq (some (compare x y)) = decide (x ≤ y) := by
  rcases Int.lt_trichotomy x y with less | same | greater
  · rw [compare_lt_iff_lt.mpr less]
    simp [holds, less, less.le, less.not_ge, less.not_gt]
  · rw [compare_eq_iff_eq.mpr same]
    simp [holds, same]
  · rw [compare_gt_iff_gt.mpr greater]
    simp [holds, greater, greater.le, greater.not_ge, greater.not_gt]

/-! ### All operators -/

/-- What the operators make of two integers. -/
structure IntegersExact (h : Heap) (a b : Int64) : Prop where
  sum : Exactly (a.toInt + b.toInt) (.misuse (.overflow .add))
    (binary h .add (.integer a) (.integer b))
  difference : Exactly (a.toInt - b.toInt) (.misuse (.overflow .sub))
    (binary h .sub (.integer a) (.integer b))
  product : Exactly (a.toInt * b.toInt) (.misuse (.overflow .mul))
    (binary h .mul (.integer a) (.integer b))
  division : Divided a b (binary h .intDiv (.integer a) (.integer b))
    (binary h .mod (.integer a) (.integer b))
  negation : Exactly (-a.toInt) (.misuse .negationOverflow) (unary h .neg (.integer a))
  negation_refused : unary h .neg (.integer a) = .error (.misuse .negationOverflow) ↔
    a.toInt = -2 ^ 63
  greater : binary h .greater (.integer a) (.integer b) = .ok (.boolean (a.toInt > b.toInt))
  less : binary h .less (.integer a) (.integer b) = .ok (.boolean (a.toInt < b.toInt))
  greaterEq : binary h .greaterEq (.integer a) (.integer b) = .ok (.boolean (a.toInt ≥ b.toInt))
  lessEq : binary h .lessEq (.integer a) (.integer b) = .ok (.boolean (a.toInt ≤ b.toInt))
  eq : binary h .eq (.integer a) (.integer b) = .ok (.boolean (a.toInt = b.toInt))
  notEq : binary h .notEq (.integer a) (.integer b) = .ok (.boolean (a.toInt ≠ b.toInt))

/-- Integer arithmetic is exact or refused, and comparisons are those of the integers. -/
theorem integers_exact (h : Heap) (a b : Int64) : IntegersExact h a b where
  sum := exactly_narrow .add _
  difference := exactly_narrow .sub _
  product := exactly_narrow .mul _
  division := binary_divided h a b
  negation := exactly_neg h a
  negation_refused := unary_neg_refused_iff h a
  greater := congrArg (Except.ok ∘ Value.boolean) (holds_compare _ _).1
  less := congrArg (Except.ok ∘ Value.boolean) (holds_compare _ _).2.1
  greaterEq := congrArg (Except.ok ∘ Value.boolean) (holds_compare _ _).2.2.1
  lessEq := congrArg (Except.ok ∘ Value.boolean) (holds_compare _ _).2.2.2
  eq := by
    change Except.ok (Value.boolean (h.valuesEqual _ _)) = _
    rw [valuesEqual_integers]
  notEq := by
    change Except.ok (Value.boolean (!h.valuesEqual _ _)) = _
    rw [valuesEqual_integers, decide_not]

end Operator

end Pseudocode

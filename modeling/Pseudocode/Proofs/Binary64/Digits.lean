import Pseudocode.Decimal.Reading
import Pseudocode.Proofs.Binary64.Rounding
import Pseudocode.Proofs.Numerals

/-!
Digits as words and as doubles.

A text that writes an integer (`Writes`) is read as that word if it fits, and as the
double of that integer however many digits it has: what the reader cuts off or decides by
the number of digits alone is beyond the greatest double.
-/

namespace Pseudocode.Decimal

open Binary64

/-- The integer that a text writes as an optional sign and decimal digits. -/
inductive Writes : List Char → Int → Prop
  | plain {ds : List Char} (digits : isDigits ds = true) : Writes ds (value ds)
  | plus {ds : List Char} (digits : isDigits ds = true) : Writes ('+' :: ds) (value ds)
  | minus {ds : List Char} (digits : isDigits ds = true) : Writes ('-' :: ds) (-value ds)

theorem Writes.split {cs : List Char} {z : Int} (writes : Writes cs z) :
    ∃ negative ds, splitSign cs = (negative, ds) ∧ isDigits ds = true ∧
      z = (if negative then -1 else 1) * value ds := by
  cases writes with
  | plain digits =>
      exact ⟨false, _, Integer.splitSign_digits (isDigits_iff.mp digits).2, digits, (Int.one_mul _).symm⟩
  | plus digits => exact ⟨false, _, rfl, digits, (Int.one_mul _).symm⟩
  | minus digits => exact ⟨true, _, rfl, digits, (Int.neg_one_mul _).symm⟩

/-- A written integer is read as a word when there is one. -/
theorem Writes.parse? {cs : List Char} {z : Int} (writes : Writes cs z) :
    Integer.parse? cs = Integer.narrow? z := by
  cases writes with
  | plain digits => exact Integer.parse?_of_isDigits digits
  | @plus ds digits =>
      have unsigned : Integer.parse? ('+' :: ds) = Integer.parse? ds := by
        unfold Integer.parse?
        rw [Integer.splitSign_digits (isDigits_iff.mp digits).2]
        rfl
      rw [unsigned, Integer.parse?_of_isDigits digits]
  | minus digits => exact Integer.parse?_minus digits

/-! ### The number of digits -/

/-- Digits without leading zeros. -/
structure Significant (ds : List Char) : Prop where
  each : ∀ c ∈ ds, isDigit c = true
  leads : ∀ c ∈ ds.head?, (c == '0') = false

theorem significant_dropWhile {ds : List Char} (each : ∀ c ∈ ds, isDigit c = true) :
    Significant (ds.dropWhile (· == '0')) where
  each := fun c mem => each c ((List.dropWhile_sublist _).subset mem)
  leads := fun _ head => Lexeme.head_dropWhile (p := (· == '0')) head

namespace Significant

variable {ds : List Char}

theorem take (significant : Significant ds) {k : Nat} (pos : 0 < k) : Significant (ds.take k) where
  each := fun c mem => significant.each c (List.mem_of_mem_take mem)
  leads := by
    rw [List.head?_take, if_neg (by omega)]
    exact significant.leads

theorem append_one (significant : Significant ds) : Significant (ds ++ ['1']) where
  each := by
    intro c mem
    rcases List.mem_append.mp mem with mem | mem
    · exact significant.each c mem
    · obtain rfl := List.mem_singleton.mp mem
      decide
  leads := by
    cases ds with
    | nil =>
        intro c head
        cases head
        decide
    | cons c ds => exact significant.leads

theorem pow_le (significant : Significant ds) (some : ds ≠ []) : 10 ^ (ds.length - 1) ≤ value ds := by
  cases ds with
  | nil => exact absurd rfl some
  | cons c ds =>
      have first : 1 ≤ digitValue c :=
        digitValue_pos (significant.each c List.mem_cons_self) (significant.leads c rfl)
      have product := Nat.mul_le_mul_left (10 ^ ds.length) first
      rw [value_cons, List.length_cons, Nat.add_sub_cancel]
      omega

/-- The value has no fewer digits. -/
theorem length_le (significant : Significant ds) : ds.length ≤ digitCount (value ds) := by
  by_cases short : ds.length ≤ 1
  · exact short.trans Nat.length_toDigits_pos
  · have some : ds ≠ [] := fun nil => short (by simp [nil])
    have few := Nat.length_toDigits_le_iff (b := 10) (n := value ds) (k := ds.length - 1)
      (by decide) (by omega)
    have large := significant.pow_le some
    unfold digitCount Decimal.digits
    omega

end Significant

/-- A natural of more than 20 digits. -/
theorem lt_of_digitCount {n : Nat} (many : 20 < digitCount n) : 2 ^ 64 ≤ n := by
  have few := Nat.length_toDigits_le_iff (b := 10) (n := n) (k := 20) (by decide) (by decide)
  unfold digitCount digits at many
  omega

/-! ### The double of digits -/

theorem number?_overflow (negative : Bool) :
    number? (pack negative 0 4000) = some (.infinite negative) := by
  have shape : shape (pack negative 0 4000) = .infinite negative := by
    cases negative <;> rfl
  exact number?_of_infinite shape

theorem parseNumeral?_of_isDigits {ds : List Char} (digits : isDigits ds = true) :
    parseNumeral? ds = some ⟨ds, [], 0⟩ := by
  obtain ⟨some, each⟩ := isDigits_iff.mp digits
  have whole : ds.takeWhile isDigit = ds := List.takeWhile_eq_self_iff.mpr each
  have rest : ds.dropWhile isDigit = [] := List.dropWhile_eq_nil_iff.mpr each
  simp [parseNumeral?, whole, rest, parseExponent?, some]

/-- The number of a double that was read from a natural. -/
def ReadAs (negative : Bool) (m : Nat) (x : Float) : Prop :=
  number? x = some (.finite ((if negative then -1 else 1) * rounded m)) ∨
    2 ^ 64 ≤ m ∧ number? x = some (.infinite negative)

theorem nearestDouble_of_lt {n : Nat} {e : Int} (negative : Bool) (some : n ≠ 0)
    (large : 400 < digitCount n + e) : nearestDouble negative n e = pack negative 0 4000 := by
  have no : (n = 0 || digitCount n + e < -400) = false := by
    simp only [some, decide_false, Bool.false_or, decide_eq_false_iff_not]
    omega
  unfold nearestDouble
  dsimp only
  rw [no, if_neg Bool.false_ne_true, if_pos large]

theorem nearestDouble_readAs (negative : Bool) (n : Nat) : ReadAs negative n (nearestDouble negative n 0) := by
  by_cases zero : n = 0
  · have none : nearestDouble negative 0 0 = ofRatio negative 0 1 := by
      simp [nearestDouble, ofRatio]
    rw [zero, none]
    rcases number?_ofNat negative 0 with finite | ⟨large, _⟩
    · exact .inl finite
    · exact absurd large (by decide)
  · by_cases long : 400 < digitCount n
    · rw [nearestDouble_of_lt negative zero (by omega)]
      exact .inr ⟨lt_of_digitCount (by omega), number?_overflow negative⟩
    · have ratio : nearestDouble negative n 0 = ofRatio negative n 1 := by
        have short : (n = 0 || digitCount n + 0 < (-400 : Int)) = false := by
          simp only [zero, decide_false, Bool.false_or, decide_eq_false_iff_not]
          omega
        unfold nearestDouble
        dsimp only
        rw [short, if_neg Bool.false_ne_true, if_neg (by omega)]
        change ofRatio negative (n * 1) 1 = _
        rw [Nat.mul_one]
      rw [ratio]
      rcases number?_ofNat negative n with finite | ⟨large, infinite⟩
      · exact .inl finite
      · have power : 2 ^ 64 ≤ 2 ^ n.log2 := Nat.pow_le_pow_right (by decide) (by omega)
        exact .inr ⟨power.trans (Nat.log2_self_le zero), infinite⟩

/-- More digits than the reader looks at. -/
theorem nearestDouble_of_long (negative : Bool) {ds : List Char} (significant : Significant ds)
    (long : 400 < ds.length) (lost : Nat) :
    nearestDouble negative (value ds) lost = pack negative 0 4000 := by
  have many := significant.length_le
  apply nearestDouble_of_lt
  · intro zero
    have large := lt_of_digitCount (by omega : 20 < digitCount (value ds))
    omega
  · omega

/-- More digits than the reader keeps: what it cuts off could only make an infinite double
larger. -/
theorem toDouble_of_long (negative : Bool) {ds : List Char}
    (significant : Significant (ds.dropWhile (· == '0')))
    (long : decisiveDigits < (ds.dropWhile (· == '0')).length) :
    (⟨ds, [], 0⟩ : Numeral).toDouble negative = pack negative 0 4000 := by
  unfold Numeral.toDouble
  simp only [List.append_nil]
  generalize ds.dropWhile (· == '0') = all at significant long ⊢
  have kept : (all.take decisiveDigits).length = decisiveDigits := List.length_take_of_le (by omega)
  have lost : 0 < (all.drop decisiveDigits).length := by
    rw [List.length_drop]
    omega
  split
  · have whole : (0 - ([] : List Char).length + (all.drop decisiveDigits).length : Int) =
        (all.drop decisiveDigits).length := by
      rw [List.length_nil]
      omega
    rw [whole, nearestDouble_of_long negative (significant.take (by decide)) (by rw [kept]; decide)]
  · have whole : (0 - ([] : List Char).length + (all.drop decisiveDigits).length - 1 : Int) =
        ((all.drop decisiveDigits).length - 1 : Nat) := by
      rw [List.length_nil]
      omega
    have more : 400 < (all.take decisiveDigits ++ ['1']).length := by
      rw [List.length_append, kept]
      decide
    rw [whole, nearestDouble_of_long negative (significant.take (by decide)).append_one more]

/-- The digits of an integer are read as its double. -/
theorem toDouble_readAs (negative : Bool) {ds : List Char} (digits : isDigits ds = true) :
    ReadAs negative (value ds) ((⟨ds, [], 0⟩ : Numeral).toDouble negative) := by
  have significant := significant_dropWhile (isDigits_iff.mp digits).2
  rw [← value_dropWhile]
  by_cases short : (ds.dropWhile (· == '0')).length ≤ decisiveDigits
  · unfold Numeral.toDouble
    simp only [List.append_nil, List.take_of_length_le short, List.drop_of_length_le short]
    exact nearestDouble_readAs negative _
  · have long := Nat.not_le.mp short
    have many : 20 < (ds.dropWhile (· == '0')).length := Nat.lt_trans (by decide) long
    rw [toDouble_of_long negative significant long]
    exact .inr ⟨lt_of_digitCount (many.trans_le significant.length_le), number?_overflow negative⟩

/-- A written integer is read as its double. -/
theorem Writes.parseDouble? {cs : List Char} {z : Int} (writes : Writes cs z) :
    ∃ x, Decimal.parseDouble? cs = some x ∧
      (number? x = some (.finite (z.sign * rounded z.natAbs)) ∨
        2 ^ 64 ≤ z.natAbs ∧ ∃ negative, number? x = some (.infinite negative)) := by
  obtain ⟨negative, ds, split, digits, rfl⟩ := writes.split
  unfold Decimal.parseDouble?
  rw [split]
  dsimp only
  rw [parseNumeral?_of_isDigits digits]
  refine ⟨_, rfl, ?_⟩
  have size : ((if negative then -1 else 1) * (value ds : Int)).natAbs = value ds := by
    cases negative <;> simp
  rw [size]
  rcases toDouble_readAs negative digits with finite | ⟨large, infinite⟩
  · refine .inl (finite.trans ?_)
    congr 2
    by_cases zero : value ds = 0
    · simp [zero, rounded_of_lt]
    · have pos : (value ds : Int).sign = 1 := Int.sign_eq_one_of_pos (by omega)
      cases negative <;> simp [Int.sign_neg, pos]
  · exact .inr ⟨large, negative, infinite⟩

end Pseudocode.Decimal

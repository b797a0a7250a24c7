import Pseudocode.Native.Basic
import Pseudocode.Proofs.Decimal.Shortest
import Pseudocode.Proofs.Numerals

/-!
Floats among integers in text.

A finite float has a decimal point in its text unless it is a whole number of more than
sixteen digits (`point_mem_iff`). Such a float has the numeral of an integer as its text,
and that integer is read as the float (`exists_numeral`).
-/

namespace Pseudocode.Decimal

open Binary64 (Canonical Number number? shape isWhole wholePart)

/-! ### Positional layouts -/

theorem digits_mul_ten {n : Nat} (pos : 0 < n) : digits (n * 10) = digits n ++ ['0'] := by
  unfold digits
  rw [Nat.toDigits_of_base_le (by decide) (by omega), Nat.mul_div_cancel _ (by decide), Nat.mul_mod_left]
  rfl

theorem digits_mul_pow {n : Nat} (pos : 0 < n) (k : Nat) :
    digits (n * 10 ^ k) = digits n ++ List.replicate k '0' := by
  induction k with
  | zero => simp
  | succ k ih =>
      rw [pow_succ, ← Nat.mul_assoc, digits_mul_ten (by positivity), ih, List.append_assoc,
        ← List.replicate_succ']

/-- A number with an exponent below zero is written with a point. -/
theorem point_mem_positional {ds : List Char} (some : ds ≠ []) {k : Int} (neg : k < 0) :
    '.' ∈ positional ds (ds.length + k) := by
  have length := List.length_pos_iff.mpr some
  unfold positional
  split
  · simp
  · rw [if_neg (by omega)]
    simp

/-- A number with another exponent is written as the numeral of a natural. -/
theorem positional_of_nonneg {n k : Nat} (pos : 0 < n) :
    positional (digits n) ((digits n).length + (k : Int)) = digits (n * 10 ^ k) := by
  have length : 0 < (digits n).length := digitCount_pos n
  unfold positional
  rw [if_neg (by omega), if_pos (by omega), digits_mul_pow pos]
  congr 2
  omega

theorem toList_signed (negative : Bool) (cs : List Char) :
    (signed negative cs).toList = (if negative then ['-'] else []) ++ cs := by
  cases negative <;> simp [signed]

theorem signed_digits (negative : Bool) {n : Nat} (pos : 0 < n) :
    signed negative (digits n) = numeral (if negative then -(n : Int) else n) := by
  have natural : ¬(n : Int) < 0 := by omega
  cases negative <;> simp [signed, numeral, natural, pos]

/-! ### The exponent of the shortest decimal -/

section Shortest

variable {m : Nat} {e : Int}

/-- A natural within half a step of a double whose step is at most one is that double. -/
theorem eq_of_near {k : Nat} (fine : e ≤ 0) (near : |(k : ℚ) - m * 2 ^ e| ≤ 1 / 2 * 2 ^ e) :
    (m * 2 ^ e : ℚ) = k := by
  obtain ⟨f, rfl⟩ : ∃ f : Nat, e = -f := ⟨(-e).toNat, by omega⟩
  have power : (0 : ℚ) < 2 ^ f := by positivity
  rw [zpow_neg, zpow_natCast, ← div_eq_mul_inv, ← div_eq_mul_inv, sub_div' power.ne', abs_div,
    abs_of_pos power, div_le_div_iff_of_pos_right power] at near
  have whole : |(k * 2 ^ f : Int) - m| < 1 := by
    have small : |((k * 2 ^ f : Int) - m : ℚ)| < 1 := by
      push_cast
      linarith
    exact_mod_cast small
  have same : (k * 2 ^ f : Int) = m := sub_eq_zero.mp (Int.abs_lt_one_iff.mp whole)
  rw [zpow_neg, zpow_natCast, ← div_eq_mul_inv, div_eq_iff power.ne']
  exact_mod_cast same.symm

/-- The shortest decimal of a fraction is not a whole number. -/
theorem shortest_exponent_neg (canonical : Canonical m e) (fraction : isWhole m e = false) :
    (shortest .upper m e).exponent < 0 := by
  have notWhole (k : Nat) : (m * 2 ^ e : ℚ) ≠ k := fun same =>
    absurd (Binary64.isWhole_iff.mpr ⟨k, same⟩) (by simp [fraction])
  have some : m ≠ 0 := by
    rintro rfl
    exact notWhole 0 (by simp)
  by_contra nonneg
  obtain ⟨k, power⟩ := Int.eq_ofNat_of_zero_le (Int.not_lt.mp nonneg)
  have has := shortest_has .upper canonical some
  unfold Scientific.toRat at has
  rw [power, zpow_natCast] at has
  have near := has.abs_sub_le some
  have fine : e ≤ 0 := by
    by_contra step
    have none : (-e).toNat = 0 := by omega
    exact notWhole (m * 2 ^ e.toNat) (Binary64.mul_zpow_eq_iff.mpr (by simp [none]))
  exact notWhole _ (eq_of_near fine (by exact_mod_cast near))

/-- The shortest decimal of a float that reaches seventeen digits is a whole number. -/
theorem shortest_exponent_nonneg (canonical : Canonical m e) (large : (10 ^ 16 : ℚ) ≤ m * 2 ^ e) :
    0 ≤ (shortest .upper m e).exponent := by
  have some : m ≠ 0 := by
    rintro rfl
    norm_num at large
  have pos : 0 < (Interval.ofDouble m e).mid := Nat.mul_pos (by omega) (twoPow_pos _)
  have below := (Interval.magnitude_bounds pos (Interval.den_ofDouble m e)).2
  rw [Interval.middle_ofDouble] at below
  have order : (10 : ℚ) ^ (16 : Int) < 10 ^ (Interval.ofDouble m e).magnitude := by
    exact_mod_cast large.trans_lt below
  have long := (zpow_lt_zpow_iff_right₀ (by norm_num)).mp order
  have last := le_shortest_exponent .upper canonical some
  omega

end Shortest

/-! ### Reading back -/

section ReadBack

open Binary64 (excess rounded roundDiv_of_near)

variable {m k n : Nat}

/-- A natural that rounds to a double lies in the steps of its mantissa that round to it. -/
theorem steps_of_has (some : m ≠ 0) (has : (Interval.ofDouble m n).Has k) :
    2 * m * 2 ^ n ≤ 2 * k + 2 ^ n ∧ 2 * k ≤ 2 * m * 2 ^ n + 2 ^ n ∧
      (m % 2 = 1 → 2 * m * 2 ^ n < 2 * k + 2 ^ n ∧ 2 * k < 2 * m * 2 ^ n + 2 ^ n) := by
  have step : (0 : ℚ) < 2 ^ n := by positivity
  have half := mul_le_mul_of_nonneg_right (Interval.reach_le m n) step.le
  have lower := Interval.lower_ofDouble (e := n) some
  have upper := Interval.upper_ofDouble m n
  rw [zpow_natCast] at lower upper
  obtain ⟨above, below⟩ := has.bounds
  refine ⟨?_, ?_, ?_⟩
  · have : (2 * m * 2 ^ n : ℚ) ≤ 2 * k + 2 ^ n := by linarith
    exact_mod_cast this
  · have : (2 * k : ℚ) ≤ 2 * m * 2 ^ n + 2 ^ n := by linarith
    exact_mod_cast this
  · intro odd
    have isOpen : ¬(Interval.ofDouble m n).closed = true := by
      rw [Interval.closed_ofDouble, beq_iff_eq]
      omega
    rw [Interval.Has, if_neg isOpen, lower, upper] at has
    constructor
    · have : (2 * m * 2 ^ n : ℚ) < 2 * k + 2 ^ n := by linarith
      exact_mod_cast this
    · have : (2 * k : ℚ) < 2 * m * 2 ^ n + 2 ^ n := by linarith
      exact_mod_cast this

theorem excess_of_bounds (low : 2 ^ 52 * 2 ^ n ≤ k) (high : k < 2 ^ 53 * 2 ^ n) : excess k = n := by
  have pos : 0 < 2 ^ n := Nat.two_pow_pos n
  rw [← pow_add] at low high
  have log : k.log2 = 52 + n := by
    rw [Nat.log2_eq_iff (by have := Nat.two_pow_pos (52 + n); omega)]
    exact ⟨low, by rwa [Nat.add_right_comm]⟩
  unfold excess
  omega

/-- A natural that rounds to a double is the double when it is rounded to 53 bits. -/
theorem rounded_of_has (normal : 2 ^ 52 ≤ m) (lt : m < 2 ^ 53)
    (has : (Interval.ofDouble m (n + 1 : Nat)).Has k) : rounded k = m * 2 ^ (n + 1) := by
  have some : m ≠ 0 := by omega
  obtain ⟨above, below, odd⟩ := steps_of_has (n := n + 1) some has
  have pos : 0 < 2 ^ (n + 1) := Nat.two_pow_pos _
  have twice : 2 * m * 2 ^ (n + 1) = 2 * (m * 2 ^ (n + 1)) := Nat.mul_assoc ..
  by_cases lowest : m = 2 ^ 52 ∧ k < m * 2 ^ (n + 1)
  · -- Below a power of two the doubles are twice as dense.
    obtain ⟨rfl, less⟩ := lowest
    have regular : Binary64.leastExponent < (n + 1 : Nat) := by
      unfold Binary64.leastExponent
      omega
    have quarter : Interval.reach (2 ^ 52) (n + 1 : Nat) = 1 / 4 := if_pos ⟨rfl, regular⟩
    have near := has.bounds.1
    rw [Interval.lower_ofDouble some, quarter, zpow_natCast] at near
    have close : 2 ^ 52 * 2 ^ (n + 1) * 4 ≤ k * 4 + 2 ^ (n + 1) := by
      have : (2 ^ 52 * 2 ^ (n + 1) * 4 : ℚ) ≤ k * 4 + 2 ^ (n + 1) := by
        push_cast at near
        linarith
      exact_mod_cast this
    rw [pow_succ] at less close ⊢
    have unit : 0 < 2 ^ n := Nat.two_pow_pos n
    rw [rounded, excess_of_bounds (n := n) (by omega) (by omega),
      roundDiv_of_near (m := 2 ^ 53) unit (by omega) (by omega) (by omega)]
    omega
  · have most := Nat.mul_le_mul_right (2 ^ (n + 1)) (Nat.succ_le_of_lt lt)
    have least : 2 ^ 52 * 2 ^ (n + 1) ≤ k := by
      rcases Nat.lt_or_eq_of_le normal with more | rfl
      · have next := Nat.mul_le_mul_right (2 ^ (n + 1)) (Nat.succ_le_of_lt more)
        rw [Nat.succ_mul] at next
        omega
      · omega
    rw [Nat.succ_mul] at most
    rw [rounded, excess_of_bounds least (by omega), roundDiv_of_near pos above below odd]

end ReadBack

/-! ### Texts of floats -/

/-- A float that is a whole number of more than sixteen digits. -/
def Large (x : Float) : Prop := ∃ z : Int, number? x = some (.finite z) ∧ 10 ^ 16 ≤ |z|

section FloatText

variable {x : Float} {negative : Bool} {m : Nat} {e : Int}

theorem number?_whole (finite : shape x = .finite negative m e) (whole : isWhole m e = true) :
    number? x = some (.finite (if negative then -(wholePart m e : Int) else wholePart m e : Int)) := by
  obtain ⟨k, same⟩ := Binary64.isWhole_iff.mp whole
  rw [Binary64.number?_of_finite finite, Binary64.wholePart_of_eq same, Binary64.signed, same]
  cases negative <;> simp

theorem large_iff (finite : shape x = .finite negative m e) :
    Large x ↔ isWhole m e = true ∧ wholeBound ≤ wholePart m e := by
  constructor
  · rintro ⟨z, number, large⟩
    rw [Binary64.number?_of_finite finite] at number
    have size : (m * 2 ^ e : ℚ) = z.natAbs := by
      have same := congrArg abs (Number.finite.inj (Option.some.inj number))
      rwa [Binary64.abs_signed, ← Int.cast_abs, ← Nat.cast_natAbs] at same
    rw [Int.abs_eq_natAbs] at large
    rw [Binary64.wholePart_of_eq size, Binary64.isWhole_iff]
    exact ⟨⟨_, size⟩, by exact_mod_cast large⟩
  · rintro ⟨whole, large⟩
    refine ⟨_, number?_whole finite whole, ?_⟩
    have bound : (10 ^ 16 : Int) ≤ wholePart m e := by exact_mod_cast large
    cases negative <;> simpa using bound

theorem floatText_of_small (finite : shape x = .finite negative m e) (whole : isWhole m e = true)
    (small : wholePart m e < wholeBound) :
    floatText x = signed negative (digits (wholePart m e) ++ ['.', '0']) := by
  simp [floatText, finite, whole, small]

theorem floatText_of_other (finite : shape x = .finite negative m e)
    (other : isWhole m e = true → wholeBound ≤ wholePart m e) :
    floatText x =
      let s := shortest .upper m e
      signed negative (positional (digits s.digits) ((digits s.digits).length + s.exponent)) := by
  have no : (isWhole m e && decide (wholePart m e < wholeBound)) = false := by
    cases whole : isWhole m e with
    | false => rfl
    | true => simpa using other whole
  simp [floatText, finite, no]

/-- The text of a large float is the numeral of an integer that rounds to it. -/
theorem floatText_of_large (finite : shape x = .finite negative m e) (canonical : Canonical m e)
    (large : Large x) :
    ∃ k : Nat, 0 < k ∧ (Interval.ofDouble m e).Has k ∧ 1 ≤ e ∧ 2 ^ 52 ≤ m ∧
      floatText x = numeral (if negative then -(k : Int) else k) := by
  obtain ⟨whole, bound⟩ := (large_iff finite).mp large
  obtain ⟨w, same⟩ := Binary64.isWhole_iff.mp whole
  rw [Binary64.wholePart_of_eq same] at bound
  have size : (10 ^ 16 : ℚ) ≤ m * 2 ^ e := by
    rw [same]
    exact_mod_cast bound
  have some : m ≠ 0 := by
    rintro rfl
    norm_num at size
  have step : 1 ≤ e := by
    by_contra fine
    have power : (2 : ℚ) ^ e ≤ 1 := zpow_le_one_of_nonpos₀ (by norm_num) (by omega)
    have mantissa : (m : ℚ) < 2 ^ 53 := by exact_mod_cast canonical.lt
    have product := mul_le_mul_of_nonneg_left power (Nat.cast_nonneg (α := ℚ) m)
    linarith
  have normal : 2 ^ 52 ≤ m := by
    apply canonical.normal.resolve_right
    unfold Binary64.leastExponent
    omega
  obtain ⟨k, power⟩ := Int.eq_ofNat_of_zero_le (shortest_exponent_nonneg canonical size)
  have has := shortest_has .upper canonical some
  unfold Scientific.toRat at has
  rw [power, zpow_natCast] at has
  generalize hd : (shortest .upper m e).digits = d at has
  have scaled : 0 < d * 10 ^ k := by exact_mod_cast has.pos some
  have pos : 0 < d := Nat.pos_of_mul_pos_right scaled
  refine ⟨d * 10 ^ k, scaled, by exact_mod_cast has, step, normal, ?_⟩
  rw [floatText_of_other finite fun _ => ((large_iff finite).mp large).2]
  dsimp only
  rw [hd, power, positional_of_nonneg pos, signed_digits negative scaled]

theorem of_mem_numeral {z : Int} {c : Char} (mem : c ∈ (numeral z).toList) :
    c = '-' ∨ isDigit c = true := by
  unfold numeral at mem
  rw [String.toList_ofList] at mem
  split at mem
  · rcases List.mem_cons.mp mem with rfl | mem
    · exact .inl rfl
    · exact .inr (isDigit_of_mem_digits mem)
  · exact .inr (isDigit_of_mem_digits mem)

theorem point_not_mem_numeral (z : Int) : '.' ∉ (numeral z).toList := fun mem =>
  absurd (of_mem_numeral mem) (by decide)

theorem digits_injective : Function.Injective digits :=
  Function.LeftInverse.injective value_digits

/-- An integer is known by its numeral. -/
theorem numeral_inj {y z : Int} : numeral y = numeral z ↔ y = z := by
  refine ⟨fun same => ?_, congrArg numeral⟩
  have noSign (n : Nat) : '-' ∉ digits n := fun mem => absurd (isDigit_of_mem_digits mem) (by decide)
  unfold numeral at same
  rw [String.ofList_inj] at same
  split at same <;> split at same
  · have sizes := digits_injective (List.tail_eq_of_cons_eq same)
    omega
  · exact absurd (same ▸ List.mem_cons_self) (noSign _)
  · exact absurd (same ▸ List.mem_cons_self) (noSign _)
  · have sizes := digits_injective same
    omega

/-- A finite float has a point in its text unless it is large. -/
theorem point_mem_iff (finite : shape x = .finite negative m e) (canonical : Canonical m e) :
    '.' ∈ (floatText x).toList ↔ ¬Large x := by
  constructor
  · intro point large
    obtain ⟨k, _, _, _, _, text⟩ := floatText_of_large finite canonical large
    rw [text] at point
    exact point_not_mem_numeral _ point
  · intro small
    rw [large_iff finite, not_and, not_le] at small
    cases whole : isWhole m e with
    | true =>
        rw [floatText_of_small finite whole (small whole), toList_signed]
        simp
    | false =>
        have neg := shortest_exponent_neg canonical whole
        have some : digits (shortest .upper m e).digits ≠ [] := List.ne_nil_of_length_pos (digitCount_pos _)
        have point := point_mem_positional some neg
        rw [floatText_of_other finite (by simp [whole]), toList_signed]
        exact List.mem_append_right _ point

/-- The integer that is the text of a large float is that float when it is rounded to 53 bits. -/
theorem exists_numeral (large : Large x) :
    ∃ z : Int, floatText x = numeral z ∧
      number? x = some (.finite (z.sign * Binary64.rounded z.natAbs)) := by
  obtain ⟨q, number, long⟩ := large
  rcases Binary64.shape_cases x with ⟨negative, m, e, finite, canonical, _⟩ | ⟨_, infinite, _⟩ | ⟨_, nan⟩
  · obtain ⟨k, pos, has, step, normal, text⟩ := floatText_of_large finite canonical ⟨q, number, long⟩
    obtain ⟨n, rfl⟩ : ∃ n : Nat, e = (n + 1 : Nat) := ⟨(e - 1).toNat, by omega⟩
    have back := rounded_of_has normal canonical.lt has
    have sign : (k : Int).sign = 1 := Int.sign_eq_one_of_pos (by omega)
    refine ⟨_, text, ?_⟩
    rw [Binary64.number?_of_finite finite, Binary64.signed, zpow_natCast]
    cases negative <;> simp [Int.sign_neg, sign, back]
  · rw [Binary64.number?_of_infinite infinite] at number
    cases number
  · rw [Binary64.number?_eq_none_iff.mpr nan] at number
    cases number

/-- No integer has the text of a float that is not large. -/
theorem floatText_ne_numeral (small : ¬Large x) (z : Int) : floatText x ≠ numeral z := by
  intro same
  rcases Binary64.shape_cases x with ⟨_, _, _, finite, canonical, _⟩ | ⟨negative, infinite, _⟩ | ⟨nan, _⟩
  · have point := (point_mem_iff finite canonical).mpr small
    rw [same] at point
    exact point_not_mem_numeral z point
  · have letter : 'I' ∈ (floatText x).toList := by
      rw [floatText, infinite]
      cases negative <;> decide
    rw [same] at letter
    exact absurd (of_mem_numeral letter) (by decide)
  · have letter : 'N' ∈ (floatText x).toList := by
      rw [floatText, nan]
      decide
    rw [same] at letter
    exact absurd (of_mem_numeral letter) (by decide)

end FloatText

end Decimal

/-! ### What programs see -/

open Decimal Binary64

/-- The built-in functions that make the text of a value. -/
def NativeFunction.textMakers : List NativeFunction := [.print, .printRaw, .str]

theorem Heap.render_float (h : Heap) (quoted : Bool) (x : Float) :
    h.render quoted [] (.float x) = floatText x := by
  unfold render
  rfl

theorem Heap.render_integer (h : Heap) (quoted : Bool) (n : Int64) :
    h.render quoted [] (.integer n) = Integer.text n := by
  unfold render
  rfl

/-- A printed value is a line of output. -/
theorem Action.printWith_eq (text : Heap → Value → String) (v : Value) (m : Machine) :
    printWith text [v] m = .done .null { m with world := m.world.record (.log (text m.heap v)) } := by
  change Outcome.done Value.null
    { m with world := m.world.record (.log (" ".intercalate [text m.heap v])) } = _
  rw [String.intercalate_singleton]

theorem World.record_log_inj {w : World} {s t : String} (same : w.record (.log s) = w.record (.log t)) :
    s = t := by
  have events : w.events.push (.log s) = w.events.push (.log t) := congrArg World.events same
  exact Event.log.inj (Array.push_eq_push.mp events).1

theorem Action.printWith_inj {text : Heap → Value → String} {v w : Value} {m : Machine} :
    printWith text [v] m = printWith text [w] m ↔ text m.heap v = text m.heap w := by
  rw [printWith_eq, printWith_eq]
  constructor
  · intro same
    injection same with _ machine
    exact World.record_log_inj (congrArg Machine.world machine)
  · intro same
    rw [same]

/-- A float and an integer are told apart by each of these functions or by none. -/
theorem Action.callNative_float_eq_integer {f : NativeFunction} (maker : f ∈ NativeFunction.textMakers)
    {x : Float} {n : Int64} {m : Machine} :
    callNative f [.float x] m = callNative f [.integer n] m ↔ floatText x = Integer.text n := by
  simp only [NativeFunction.textMakers, List.mem_cons, List.not_mem_nil, or_false] at maker
  rcases maker with rfl | rfl | rfl
  · refine printWith_inj.trans ?_
    rw [Heap.display, Heap.display, Heap.render_float, Heap.render_integer]
  · refine printWith_inj.trans ?_
    rw [Heap.raw, Heap.raw, Heap.render_float, Heap.render_integer]
  · change Outcome.done (Value.text (floatText x)) m = Outcome.done (Value.text (Integer.text n)) m ↔ _
    simp

/-- A finite float has a decimal point in its text, and no integer has the text of a float,
except for large floats: the text of one of those is the numeral of an integer that it is
the nearest float to, and an Integer of that value has the same text. -/
theorem float_text_apart (x : Float) :
    ((∃ q, number? x = some (.finite q)) → ('.' ∈ (floatText x).toList ↔ ¬Large x)) ∧
      (¬Large x → ∀ f ∈ NativeFunction.textMakers, ∀ n m,
        Action.callNative f [.float x] m ≠ Action.callNative f [.integer n] m) ∧
      (Large x → ∃ z : Int, floatText x = numeral z ∧
        number? x = some (.finite (z.sign * rounded z.natAbs)) ∧
        ∀ f ∈ NativeFunction.textMakers, ∀ n m,
          Action.callNative f [.float x] m = Action.callNative f [.integer n] m ↔ n.toInt = z) := by
  refine ⟨?_, ?_, ?_⟩
  · rintro ⟨q, number⟩
    rcases shape_cases x with ⟨_, _, _, finite, canonical, _⟩ | ⟨_, infinite, _⟩ | ⟨_, nan⟩
    · exact point_mem_iff finite canonical
    · rw [number?_of_infinite infinite] at number
      cases number
    · rw [number?_eq_none_iff.mpr nan] at number
      cases number
  · intro small f maker n m
    rw [ne_eq, Action.callNative_float_eq_integer maker]
    exact floatText_ne_numeral small n.toInt
  · intro large
    obtain ⟨z, text, number⟩ := exists_numeral large
    refine ⟨z, text, number, fun f maker n m => ?_⟩
    rw [Action.callNative_float_eq_integer maker, text, Integer.text, numeral_inj, eq_comm]

/-- A float with a fraction, and the least float that is written as an integer is. -/
theorem float_text_apart_sides :
    '.' ∈ (floatText 2.5).toList ∧
      (∀ f ∈ NativeFunction.textMakers, ∀ n m,
        Action.callNative f [.float 2.5] m ≠ Action.callNative f [.integer n] m) ∧
      ∃ z : Int, floatText 1e16 = numeral z ∧
        number? 1e16 = some (.finite (z.sign * rounded z.natAbs)) ∧
        ∀ f ∈ NativeFunction.textMakers, ∀ n m,
          Action.callNative f [.float 1e16] m = Action.callNative f [.integer n] m ↔ n.toInt = z := by
  have half : shape 2.5 = .finite false 5629499534213120 (-51) := rfl
  have whole : shape 1e16 = .finite false 5000000000000000 1 := rfl
  have small : ¬Large 2.5 := by
    rw [large_iff half]
    decide
  have large : Large 1e16 := (large_iff whole).mpr (by decide)
  exact ⟨((float_text_apart 2.5).1 ⟨_, number?_of_finite half⟩).mpr small,
    (float_text_apart 2.5).2.1 small, (float_text_apart 1e16).2.2 large⟩

/-- The float `1e16` and the integer of that value have one text, which has no point. -/
theorem float_text_same_1e16 :
    (∃ q, number? 1e16 = some (.finite q)) ∧ '.' ∉ (floatText 1e16).toList ∧
      ∀ f ∈ NativeFunction.textMakers, ∀ m,
        Action.callNative f [.float 1e16] m = Action.callNative f [.integer 10000000000000000] m := by
  have whole : shape 1e16 = .finite false 5000000000000000 1 := rfl
  have same : floatText 1e16 = Integer.text 10000000000000000 := rfl
  refine ⟨⟨_, number?_of_finite whole⟩, ?_, fun f maker m => ?_⟩
  · rw [same]
    exact point_not_mem_numeral _
  · exact (Action.callNative_float_eq_integer maker).mpr same

end Pseudocode

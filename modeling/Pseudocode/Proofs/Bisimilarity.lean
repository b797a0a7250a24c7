import Pseudocode.Proofs.Binary64.Rounding
import Pseudocode.Value.Equality

/-!
Equality of values is bisimilarity of the graphs below them.

The comparison takes a pair of arrays that it has met for equal, and it never takes that
back. This is sound because the pairs it has met are themselves a bisimulation once it
answers yes (`Heap.accounts_of_allEqual`), and complete because what it has met is never
asked again (`Heap.allEqual_of_bisimulation`).
-/

namespace Pseudocode

open Binary64

/-! ### Equal scalars -/

/-- Equality of values that are not both arrays, given how an integer compares with a
float. -/
inductive ScalarEqual (mixed : Int64 → Float → Prop) : Value → Value → Prop
  | null : ScalarEqual mixed .null .null
  | integer (n : Int64) : ScalarEqual mixed (.integer n) (.integer n)
  /-- Floats that stand for one number. -/
  | float {x y : Float} {q : Number} (left : number? x = some q) (right : number? y = some q) :
      ScalarEqual mixed (.float x) (.float y)
  | integerFloat {n : Int64} {x : Float} (equal : mixed n x) :
      ScalarEqual mixed (.integer n) (.float x)
  | floatInteger {n : Int64} {x : Float} (equal : mixed n x) :
      ScalarEqual mixed (.float x) (.integer n)
  | boolean (b : Bool) : ScalarEqual mixed (.boolean b) (.boolean b)
  | text (s : String) : ScalarEqual mixed (.text s) (.text s)
  | range (start stop : Int64) : ScalarEqual mixed (.range start stop) (.range start stop)
  | function (id : RoutineId) : ScalarEqual mixed (.function id) (.function id)
  | procedure (id : RoutineId) : ScalarEqual mixed (.procedure id) (.procedure id)
  | classRef (id : ClassId) : ScalarEqual mixed (.classRef id) (.classRef id)
  | object (id : ObjectId) : ScalarEqual mixed (.object id) (.object id)
  | reader (id : ReaderId) : ScalarEqual mixed (.reader id) (.reader id)
  | writer (id : WriterId) : ScalarEqual mixed (.writer id) (.writer id)
  | nativeFunction {f g : NativeFunction} (names : f.name = g.name) :
      ScalarEqual mixed (.nativeFunction f) (.nativeFunction g)
  | nativeMethod {f g : NativeMethod} (names : f.name = g.name) :
      ScalarEqual mixed (.nativeMethod f) (.nativeMethod g)
  | nativeGetter {f g : NativeGetter} (names : f.name = g.name) :
      ScalarEqual mixed (.nativeGetter f) (.nativeGetter g)

/-- The float is the integer. -/
def Exactly (n : Int64) (x : Float) : Prop := number? x = some (.finite n.toInt)

/-- The float is the integer rounded to a mantissa of 53 bits. -/
def Promoted (n : Int64) (x : Float) : Prop :=
  number? x = some (.finite (n.toInt.sign * rounded n.toInt.natAbs))

theorem number?_integer (n : Int64) :
    number? (ofInt n.toInt) = some (.finite (n.toInt.sign * rounded n.toInt.natAbs)) :=
  number?_ofInt (natAbs_toInt_lt n)

theorem promoted_iff {n : Int64} {x : Float} : Promoted n x ↔ (ofInt n.toInt == x) = true := by
  rw [Promoted, beq_iff, number?_integer]
  constructor
  · intro number
    exact ⟨_, rfl, number⟩
  · rintro ⟨q, same, number⟩
    rw [number, same]

/-- Rounding does not move an integer of at most 53 bits. -/
theorem promoted_iff_exactly {n : Int64} (small : n.toInt.natAbs ≤ 2 ^ 53) (x : Float) :
    Promoted n x ↔ Exactly n x := by
  have whole : rounded n.toInt.natAbs = n.toInt.natAbs := by
    rcases Nat.lt_or_eq_of_le small with lt | eq
    · exact rounded_of_lt lt
    · rw [eq]
      rfl
  have same : (n.toInt.sign * (n.toInt.natAbs : Nat) : ℚ) = n.toInt := by
    rw [← Int.cast_natCast n.toInt.natAbs, ← Int.cast_mul, Int.sign_mul_natAbs]
  rw [Promoted, Exactly, whole, same]

theorem scalarEqual_iff {u v : Value} (scalars : ∀ a b, u = .array a → v ≠ .array b) :
    u.scalarEqual v = true ↔ ScalarEqual Promoted u v := by
  constructor
  · intro equal
    cases u <;> cases v <;>
      simp only [Value.scalarEqual, Value.same, Bool.false_eq_true, beq_iff_eq,
        Bool.and_eq_true] at equal
    case integer.float => exact .integerFloat (promoted_iff.mpr equal)
    case float.integer => exact .floatInteger (promoted_iff.mpr equal)
    case float.float =>
      obtain ⟨q, left, right⟩ := beq_iff.mp equal
      exact .float left right
    case array.array => exact absurd rfl (scalars _ _ rfl)
    case range.range =>
      obtain ⟨rfl, rfl⟩ := equal
      exact .range ..
    case nativeFunction.nativeFunction => exact .nativeFunction equal
    case nativeMethod.nativeMethod => exact .nativeMethod equal
    case nativeGetter.nativeGetter f g =>
      cases f
      cases g
      exact .nativeGetter rfl
    case null.null => exact .null
    all_goals
      subst equal
      constructor
  · intro equal
    cases equal with
    | float left right => exact beq_iff.mpr ⟨_, left, right⟩
    | integerFloat equal => exact promoted_iff.mp equal
    | floatInteger equal => exact promoted_iff.mp equal
    | nativeFunction names => simpa [Value.scalarEqual, Value.same] using names
    | nativeMethod names => simpa [Value.scalarEqual, Value.same] using names
    | _ => simp [Value.scalarEqual, Value.same]

/-! ### Bisimulations -/

/-- Two arrays of one length whose elements at each index are related. -/
def Heap.ItemsRelated (h : Heap) (R : Value → Value → Prop) (a b : ArrayId) : Prop :=
  ∃ xs ys, h.items? a = some xs ∧ h.items? b = some ys ∧ xs.size = ys.size ∧
    ∀ (i : Nat) (u v : Value), xs[i]? = some u → ys[i]? = some v → R u v

/-- What two values are that may be taken for equal if the pairs of `R` are. -/
inductive Heap.Matched (h : Heap) (mixed : Int64 → Float → Prop) (R : Value → Value → Prop) :
    Value → Value → Prop
  | scalar {u v : Value} (equal : ScalarEqual mixed u v) : Matched h mixed R u v
  | same (a : ArrayId) : Matched h mixed R (.array a) (.array a)
  | items {a b : ArrayId} (items : h.ItemsRelated R a b) : Matched h mixed R (.array a) (.array b)

/-- No difference can be reached from a pair of the relation. -/
def Heap.IsBisimulation (h : Heap) (mixed : Int64 → Float → Prop) (R : Value → Value → Prop) : Prop :=
  ∀ u v, R u v → h.Matched mixed R u v

/-- Values that some bisimulation relates. -/
def Heap.Bisimilar (h : Heap) (mixed : Int64 → Float → Prop) (u v : Value) : Prop :=
  ∃ R, R u v ∧ h.IsBisimulation mixed R

namespace Heap

variable {h : Heap} {met met' : List (ArrayId × ArrayId)} {rest pending : List (Value × Value)}
  {u v : Value}

theorem mem_zip_iff {xs ys : Array Value} :
    (u, v) ∈ xs.toList.zip ys.toList ↔ ∃ i : Nat, xs[i]? = some u ∧ ys[i]? = some v := by
  simp [List.mem_iff_getElem?, List.getElem?_zip_eq_some]

theorem items?_eq_some {a : ArrayId} (bound : a < h.arrays.size) : h.items? a = some (h.items a) := by
  simp [items, items?, bound]

theorem allEqual_scalar (scalars : ∀ a b, u = .array a → v ≠ .array b) :
    h.allEqual met ((u, v) :: rest) = (u.scalarEqual v && h.allEqual met rest) := by
  rw [allEqual]
  exact scalars

/-! ### A yes is right -/

/-- The pairs that are equal, given that the pairs of arrays `met` are. -/
inductive TakenEqual (met : List (ArrayId × ArrayId)) : Value → Value → Prop
  | scalar {u v : Value} (equal : ScalarEqual Promoted u v) : TakenEqual met u v
  | same (a : ArrayId) : TakenEqual met (.array a) (.array a)
  | met {a b : ArrayId} (mem : (a, b) ∈ met) : TakenEqual met (.array a) (.array b)

/-- The pairs of arrays `met'` account for a comparison of what is pending, begun when
`met` had been met. -/
structure Accounts (h : Heap) (met : List (ArrayId × ArrayId)) (pending : List (Value × Value))
    (met' : List (ArrayId × ArrayId)) : Prop where
  keeps : met ⊆ met'
  settles : ∀ u v, (u, v) ∈ pending → TakenEqual met' u v
  /-- The elements of every pair that the comparison added are accounted for as well. -/
  expands : ∀ a b, (a, b) ∈ met' → (a, b) ∈ met ∨ h.ItemsRelated (TakenEqual met') a b

theorem Accounts.cons (rest : h.Accounts met pending met') (first : TakenEqual met' u v) :
    h.Accounts met ((u, v) :: pending) met' where
  keeps := rest.keeps
  settles := by
    intro u' v' mem
    rcases List.mem_cons.mp mem with same | mem
    · cases same
      exact first
    · exact rest.settles u' v' mem
  expands := rest.expands

/-- The elements of a pair of arrays that is met for the first time join what is pending. -/
theorem Accounts.expand {a b : ArrayId} (size : (h.items a).size = (h.items b).size)
    (ha : a < h.arrays.size) (hb : b < h.arrays.size)
    (below : h.Accounts ((a, b) :: met) ((h.items a).toList.zip (h.items b).toList ++ rest) met') :
    h.Accounts met ((.array a, .array b) :: rest) met' := by
  have mem : (a, b) ∈ met' := below.keeps (List.mem_cons_self ..)
  have alike : h.ItemsRelated (TakenEqual met') a b := by
    refine ⟨_, _, items?_eq_some ha, items?_eq_some hb, size, ?_⟩
    intro i u v left right
    exact below.settles u v (List.mem_append_left _ (mem_zip_iff.mpr ⟨i, left, right⟩))
  have tail : h.Accounts met rest met' := by
    constructor
    case keeps => exact fun p old => below.keeps (List.mem_cons_of_mem _ old)
    case settles => exact fun u v old => below.settles u v (List.mem_append_right _ old)
    case expands =>
      intro c d met'
      rcases below.expands c d met' with old | other
      · rcases List.mem_cons.mp old with same | old
        · cases same
          exact .inr alike
        · exact .inl old
      · exact .inr other
  exact tail.cons (.met mem)

/-- What a comparison that answers yes has met in the end accounts for it. -/
theorem accounts_of_allEqual (equal : h.allEqual met pending = true) :
    ∃ met', h.Accounts met pending met' := by
  induction met, pending using allEqual.induct h with
  | case1 met =>
      exact ⟨met, List.Subset.refl _, fun _ _ mem => absurd mem List.not_mem_nil,
        fun _ _ old => .inl old⟩
  | case2 met a rest ih =>
      rw [allEqual, if_pos rfl] at equal
      obtain ⟨met', below⟩ := ih equal
      exact ⟨met', below.cons (.same a)⟩
  | case3 met a b rest other fresh bounds xs ys ih =>
      rw [allEqual, if_neg other, dif_pos fresh, dif_pos bounds] at equal
      obtain ⟨size, elements⟩ := Bool.and_eq_true_iff.mp equal
      obtain ⟨met', below⟩ := ih elements
      exact ⟨met', below.expand (beq_iff_eq.mp size) bounds.1 bounds.2⟩
  | case4 met a b rest other fresh bounds =>
      rw [allEqual, if_neg other, dif_pos fresh, dif_neg bounds] at equal
      cases equal
  | case5 met a b rest other known ih =>
      rw [allEqual, if_neg other, dif_neg known] at equal
      obtain ⟨met', below⟩ := ih equal
      have old : (a, b) ∈ met := by simpa using known
      exact ⟨met', below.cons (.met (below.keeps old))⟩
  | case6 met u v rest scalars ih =>
      rw [allEqual_scalar scalars, Bool.and_eq_true] at equal
      obtain ⟨met', below⟩ := ih equal.2
      exact ⟨met', below.cons (.scalar ((scalarEqual_iff scalars).mp equal.1))⟩

/-- What has been met by a comparison that began with nothing is a bisimulation. -/
theorem Accounts.isBisimulation (all : h.Accounts [] pending met') :
    h.IsBisimulation Promoted (TakenEqual met') := by
  intro u v taken
  cases taken with
  | scalar equal => exact .scalar equal
  | same a => exact .same a
  | met mem => exact .items ((all.expands _ _ mem).resolve_left List.not_mem_nil)

/-! ### A no is right -/

theorem Matched.scalarEqual {mixed : Int64 → Float → Prop} {R : Value → Value → Prop}
    (matched : h.Matched mixed R u v) (scalars : ∀ a b, u = .array a → v ≠ .array b) :
    ScalarEqual mixed u v := by
  cases matched with
  | scalar equal => exact equal
  | same a => exact absurd rfl (scalars _ _ rfl)
  | items alike => exact absurd rfl (scalars _ _ rfl)

theorem Matched.items_of_ne {mixed : Int64 → Float → Prop} {R : Value → Value → Prop} {a b : ArrayId}
    (matched : h.Matched mixed R (.array a) (.array b)) (other : a ≠ b) : h.ItemsRelated R a b := by
  cases matched with
  | scalar equal => cases equal
  | same => exact absurd rfl other
  | items alike => exact alike

/-- The comparison finds no difference between pairs of a bisimulation. -/
theorem allEqual_of_bisimulation {R : Value → Value → Prop} (bisimulation : h.IsBisimulation Promoted R)
    (related : ∀ u v, (u, v) ∈ pending → R u v) : h.allEqual met pending = true := by
  induction met, pending using allEqual.induct h with
  | case1 met => rw [allEqual]
  | case2 met a rest ih =>
      rw [allEqual, if_pos rfl]
      exact ih fun u v mem => related u v (List.mem_cons_of_mem _ mem)
  | case3 met a b rest other fresh bounds xs ys ih =>
      have first := bisimulation _ _ (related _ _ (List.mem_cons_self ..))
      obtain ⟨xs', ys', left, right, size, elements⟩ := first.items_of_ne other
      obtain rfl : xs = xs' := Option.some.inj ((items?_eq_some bounds.1).symm.trans left)
      obtain rfl : ys = ys' := Option.some.inj ((items?_eq_some bounds.2).symm.trans right)
      rw [allEqual, if_neg other, dif_pos fresh, dif_pos bounds, Bool.and_eq_true]
      refine ⟨beq_iff_eq.mpr size, ih ?_⟩
      intro u v mem
      rcases List.mem_append.mp mem with element | mem
      · obtain ⟨i, left, right⟩ := mem_zip_iff.mp element
        exact elements i u v left right
      · exact related u v (List.mem_cons_of_mem _ mem)
  | case4 met a b rest other fresh bounds =>
      have first := bisimulation _ _ (related _ _ (List.mem_cons_self ..))
      obtain ⟨xs, ys, left, right, _⟩ := first.items_of_ne other
      have inside {c : ArrayId} {zs : Array Value} (some : h.items? c = some zs) : c < h.arrays.size :=
        (Array.getElem?_eq_some_iff.mp some).1
      exact absurd ⟨inside left, inside right⟩ bounds
  | case5 met a b rest other known ih =>
      rw [allEqual, if_neg other, dif_neg known]
      exact ih fun u v mem => related u v (List.mem_cons_of_mem _ mem)
  | case6 met u v rest scalars ih =>
      have first := bisimulation _ _ (related _ _ (List.mem_cons_self ..))
      rw [allEqual_scalar scalars, Bool.and_eq_true]
      exact ⟨(scalarEqual_iff scalars).mpr (first.scalarEqual scalars),
        ih fun u v mem => related u v (List.mem_cons_of_mem _ mem)⟩

/-! ### The equality of the language -/

/-- Values are equal exactly when they are bisimilar, an integer being rounded to a
double before it is compared with one. -/
theorem valuesEqual_iff_bisimilar (h : Heap) (a b : Value) :
    h.valuesEqual a b = true ↔ h.Bisimilar Promoted a b := by
  constructor
  · intro equal
    obtain ⟨met, all⟩ := accounts_of_allEqual equal
    exact ⟨TakenEqual met, all.settles a b (List.mem_singleton_self _), all.isBisimulation⟩
  · rintro ⟨R, related, bisimulation⟩
    apply allEqual_of_bisimulation bisimulation
    intro u v mem
    cases List.mem_singleton.mp mem
    exact related

theorem valuesEqual_integer_float {n : Int64} {x : Float} :
    h.valuesEqual (.integer n) (.float x) = true ↔ Promoted n x := by
  have scalars (a b : ArrayId) (array : Value.integer n = .array a) : Value.float x ≠ .array b := by
    cases array
  rw [valuesEqual, allEqual_scalar scalars, allEqual, Bool.and_true, promoted_iff]
  rfl

theorem bisimilar_integer_float {mixed : Int64 → Float → Prop} {n : Int64} {x : Float}
    (bisimilar : h.Bisimilar mixed (.integer n) (.float x)) : mixed n x := by
  obtain ⟨R, related, bisimulation⟩ := bisimilar
  cases bisimulation _ _ related with
  | scalar equal =>
      cases equal with
      | integerFloat equal => exact equal

/-- The least positive integer that is no double is equal to its predecessor as a float. -/
theorem promotion_rounds :
    ¬(({} : Heap).valuesEqual (.integer 9007199254740993) (.float 9007199254740992) = true ↔
      ({} : Heap).Bisimilar Exactly (.integer 9007199254740993) (.float 9007199254740992)) := by
  have shape : shape 9007199254740992 = .finite false (2 ^ 52) 1 := rfl
  have number : number? 9007199254740992 = some (.finite (2 ^ 53)) := by
    rw [number?_of_finite shape]
    norm_num [signed]
  have whole : (9007199254740993 : Int64).toInt = 2 ^ 53 + 1 := rfl
  have rounds : rounded (2 ^ 53 + 1) = 2 ^ 53 := rfl
  have promoted : Promoted 9007199254740993 9007199254740992 := by
    have sign : (2 ^ 53 + 1 : Int).sign = 1 := rfl
    have size : (2 ^ 53 + 1 : Int).natAbs = 2 ^ 53 + 1 := rfl
    rw [Promoted, number, whole, sign, size, rounds]
    norm_num
  intro iff
  have exact := bisimilar_integer_float (iff.mp (valuesEqual_integer_float.mpr promoted))
  rw [Exactly, number, whole] at exact
  have same := Number.finite.inj (Option.some.inj exact)
  norm_num at same

end Heap

end Pseudocode

import Pseudocode.Proofs.Binary64.Number
import Pseudocode.Proofs.Refusals
import Pseudocode.Proofs.Spans.Selection

/-!
The values of the floats in a program.

The numeral of a float is digits with a point in it and has no sign, so what is read from
it is a number without a sign (`unsigned_of_parse`): a finite one, or the infinite one
when it is too large. Of such doubles the equal ones are the same (`Unsigned.beq_iff`).
-/

namespace Pseudocode

/-! ### Numbers without a sign -/

namespace Binary64

/-- A double that is neither negative nor not a number. -/
def Unsigned (x : Float) : Prop :=
  (∃ m e, shape x = .finite false m e) ∨ shape x = .infinite false

/-- What is packed is a number. -/
theorem unsigned_pack (m : Nat) (e : Int) : Unsigned (pack false m e) := by
  rw [pack_eq]
  by_cases large : 2047 * 2 ^ 52 ≤ magnitude m e
  · right
    have place : min (magnitude m e) (2047 * 2 ^ 52) = 2047 * 2 ^ 52 + 0 := by omega
    rw [place, shape_packed (.inr ⟨rfl, rfl⟩) (by decide), if_pos rfl]
  · left
    have place : min (magnitude m e) (2047 * 2 ^ 52) =
        magnitude m e / 2 ^ 52 * 2 ^ 52 + magnitude m e % 2 ^ 52 := by omega
    have below : magnitude m e / 2 ^ 52 < 2047 := by omega
    rw [place, shape_packed (.inl below) (Nat.mod_lt _ (by decide)), if_neg (Nat.ne_of_lt below)]
    split
    · exact ⟨_, _, rfl⟩
    · exact ⟨_, _, rfl⟩

theorem unsigned_ofRatio (num den : Nat) : Unsigned (ofRatio false num den) := by
  unfold ofRatio
  split
  · exact unsigned_pack _ _
  · exact unsigned_pack _ _

namespace Unsigned

variable {x y : Float}

theorem ne_nan (unsigned : Unsigned x) : x ≠ Float.nan := by
  rintro rfl
  have nan : shape Float.nan = .nan := rfl
  rcases unsigned with ⟨_, _, finite⟩ | infinite
  · rw [nan] at finite
    cases finite
  · rw [nan] at infinite
    cases infinite

theorem ne_neg_zero (unsigned : Unsigned x) : x ≠ -0 := by
  rintro rfl
  rcases unsigned with ⟨_, _, finite⟩ | infinite
  · rw [shape_neg_zero] at finite
    cases finite
  · rw [shape_neg_zero] at infinite
    cases infinite

/-- Without signs there is one zero, so equal numbers are the same double. -/
theorem beq_iff (left : Unsigned x) (right : Unsigned y) : (x == y) = true ↔ x = y := by
  rw [Float.beq_iff_ne_nan_and_eq]
  constructor
  · rintro ⟨-, -, same | ⟨-, negative⟩ | ⟨negative, -⟩⟩
    · exact same
    · exact absurd negative right.ne_neg_zero
    · exact absurd negative left.ne_neg_zero
  · exact fun same => ⟨left.ne_nan, right.ne_nan, .inl same⟩

end Unsigned

end Binary64

/-! ### Numerals -/

namespace Decimal

open Binary64

theorem unsigned_nearestDouble (digits : Nat) (exponent : Int) :
    Unsigned (nearestDouble false digits exponent) := by
  unfold nearestDouble
  dsimp only
  split
  · exact unsigned_pack _ _
  · split
    · exact unsigned_pack _ _
    · exact unsigned_ofRatio _ _

theorem unsigned_of_parseDouble? {d : Char} {ds : List Char} {x : Float} (digit : isDigit d = true)
    (each : ∀ c ∈ ds, isDigit c = true ∨ c = '.') (few : ds.count '.' ≤ 1)
    (read : parseDouble? (d :: ds) = some x) : Unsigned x := by
  obtain ⟨n, numeral⟩ := Option.isSome_iff_exists.mp (isSome_parseNumeral? digit each few)
  unfold parseDouble? at read
  rw [splitSign_of_isDigit digit] at read
  simp only [numeral, Option.some.injEq] at read
  subst read
  unfold Numeral.toDouble
  dsimp only
  split
  · exact unsigned_nearestDouble _ _
  · exact unsigned_nearestDouble _ _

end Decimal

/-! ### Floats of a program -/

/-- A float among the nodes of an expression. -/
def Expr.HasFloat (e : Expr) (x : Float) : Prop := ∃ outer span, e.HasNode outer (.float span x)

theorem Expr.kind_indexed {object : Expr} (s : Span) {is : List Expr}
    (index : object.kind = .index ∨ is ≠ []) : (object.indexed s is).kind = .index := by
  induction is generalizing object with
  | nil => exact index.resolve_right fun more => more rfl
  | cons i is ih => exact ih (.inl rfl)

/-- A float was read from a token of its own. -/
theorem Phrase.Written.float_token {L : Nat} {span : Span} {x : Float} {us : List Token}
    (written : (Phrase.expr L (.float span x)).Written us) :
    ∃ t ∈ us, t.kind = .float ∧ Decimal.parseDouble? t.value.toList = some x := by
  generalize eq : Phrase.expr L (.float span x) = p at written
  induction written generalizing L span with
  | @atom t e found =>
      cases eq
      refine ⟨t, List.mem_singleton_self t, ?_⟩
      unfold Parser.atom? at found
      split at found
      · cases found
      · split at found <;> cases found
      · rename_i kind
        split at found
        · rename_i read
          cases found
          exact ⟨kind, read⟩
        · cases found
      · cases found
      · cases found
      · cases found
  | @parens opening close us e _ inner _ ih =>
      obtain ⟨level, same⟩ := Phrase.expr.inj eq
      cases e with
      | float span' x' =>
          cases same
          obtain ⟨t, mem, float⟩ := ih rfl
          exact ⟨t, by simp [mem], float⟩
      | _ => cases same
  | @index us vs object is opening close _ _ places _ _ _ =>
      have same := congrArg Expr.kind (Phrase.expr.inj eq).2
      rw [Expr.kind_indexed _ (.inr places.items_ne_nil)] at same
      cases same
  | loosen _ _ ih =>
      cases eq
      exact ih rfl
  | _ => cases eq

/-- The floats of a program that was read are numbers without a sign. -/
theorem unsigned_of_parse {source : String} {p : Program} (parsed : parse source = .ok p) :
    ∀ e ∈ p.exprs, ∀ x, e.HasFloat x → Binary64.Unsigned x := by
  rintro e mem x ⟨outer, span, node⟩
  obtain ⟨ts, stop, lexed, read⟩ := parse_eq_ok parsed
  obtain ⟨us, vs, rfl, written⟩ := written_of_ofTokens rfl read
  have traced : Traced (us ++ vs) e := (written.traced e mem).within (.first us vs)
  cases traced.node (inOrder_of_tokenizeChars lexed) node with
  | own here _ =>
      obtain ⟨L, row, part, float⟩ := here
      obtain ⟨t, mem, kind, read⟩ := float.float_token
      have among : t ∈ us ++ vs := part.sublist.subset mem
      obtain ⟨d, ds, value, digit, each, few⟩ := Token.exists_float lexed among kind
      rw [value] at read
      exact Decimal.unsigned_of_parseDouble? digit each few read
  | shared chained _ _ _ => cases chained.kind_eq

end Pseudocode

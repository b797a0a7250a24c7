import Mathlib.Data.Nat.Digits.Defs
import Pseudocode.Proofs.Derivation.Reading
import Pseudocode.Proofs.Lexing.Number
import Pseudocode.Proofs.Spans.Selection
import Pseudocode.Proofs.Pieces

/-!
Integers as text.

The numeral of an integer, read by either of the two readers of the language, is that
integer again (`integer_text_round_trip`). Both readers come down to one function from
digits to words, which gives the value of the digits when it fits and nothing otherwise
(`Integer.parse?_of_isDigits`).
-/

namespace Pseudocode

/-! ### Digits -/

namespace Decimal

theorem value_digits (n : Nat) : value (digits n) = n := Nat.ofDigitChars_ten_toDigits

theorem isDigit_iff {c : Char} : isDigit c = true ↔ c.isDigit = true := by
  simp only [isDigit, Char.isDigit, Bool.and_eq_true, decide_eq_true_eq]
  rfl

theorem isDigit_of_mem_digits {n : Nat} {c : Char} (mem : c ∈ digits n) : isDigit c = true :=
  isDigit_iff.mpr (Nat.isDigit_of_mem_toDigits (by decide) (by decide) mem)

theorem isDigits_digits (n : Nat) : isDigits (digits n) = true :=
  isDigits_iff.mpr ⟨Nat.toDigits_ne_nil, fun _ => isDigit_of_mem_digits⟩

theorem value_cons (c : Char) (ds : List Char) :
    value (c :: ds) = 10 ^ ds.length * digitValue c + value ds := by
  change Nat.ofDigitChars 10 (c :: ds) 0 = _
  rw [Nat.ofDigitChars_cons, Nat.ofDigitChars_eq_ofDigitChars_zero, Nat.mul_zero, Nat.zero_add]
  rfl

theorem value_zero_cons (ds : List Char) : value ('0' :: ds) = value ds := by
  rw [value_cons]
  simp [digitValue]

theorem value_dropWhile (ds : List Char) : value (ds.dropWhile (· == '0')) = value ds := by
  induction ds with
  | nil => rfl
  | cons c ds ih =>
      rw [List.dropWhile_cons]
      split
      · rename_i zero
        rw [ih, beq_iff_eq.mp zero, value_zero_cons]
      · rfl

theorem digitValue_pos {c : Char} (digit : isDigit c = true) (other : (c == '0') = false) :
    0 < digitValue c := by
  have ne : c.toNat ≠ 48 := fun eq => beq_eq_false_iff_ne.mp other (Char.toNat_inj.mp eq)
  have le : 48 ≤ c.toNat := by
    simp only [isDigit, Bool.and_eq_true, decide_eq_true_eq] at digit
    exact digit.1
  change 0 < c.toNat - 48
  omega

/-- More than 19 digits, the first not a zero, are too large for a word of either sign. -/
theorem value_of_length {ds : List Char} (each : ∀ c ∈ ds, isDigit c = true)
    (leads : ∀ c ∈ ds.head?, (c == '0') = false) (long : 19 < ds.length) :
    Integer.greatest + 1 < value ds := by
  cases ds with
  | nil => cases long
  | cons c ds =>
      have first : 1 ≤ digitValue c := digitValue_pos (each c List.mem_cons_self) (leads c rfl)
      have power : 10 ^ 19 ≤ 10 ^ ds.length :=
        Nat.pow_le_pow_right (by decide) (Nat.le_of_lt_succ long)
      have product : 10 ^ 19 * 1 ≤ 10 ^ ds.length * digitValue c := Nat.mul_le_mul power first
      rw [value_cons]
      unfold Integer.greatest
      omega

/-- A limit of 19 digits leaves out nothing but values that no word has. -/
theorem valueWithin?_bind (sign : Int) (unit : sign = 1 ∨ sign = -1) {ds : List Char}
    (each : ∀ c ∈ ds, isDigit c = true) :
    ((valueWithin? 19 ds).bind fun n => Integer.narrow? (sign * n)) =
      Integer.narrow? (sign * value ds) := by
  unfold valueWithin?
  dsimp only
  split
  · rw [value_dropWhile]
    rfl
  · rename_i long
    have large : Integer.greatest + 1 < value (ds.dropWhile (· == '0')) := by
      apply value_of_length
      · intro c mem
        exact each c ((List.dropWhile_sublist _).subset mem)
      · intro c head
        exact Lexeme.head_dropWhile (p := (· == '0')) head
      · omega
    rw [value_dropWhile] at large
    have none : Integer.narrow? (sign * value ds) = none := by
      rw [Integer.narrow?_eq_none_iff]
      unfold Integer.greatest Integer.least at *
      rcases unit with rfl | rfl <;> omega
    rw [none]
    rfl

end Decimal

/-! ### Words -/

namespace Integer

open Decimal

theorem splitSign_digits {ds : List Char} (each : ∀ c ∈ ds, isDigit c = true) :
    splitSign ds = (false, ds) := by
  unfold splitSign
  split
  · cases each '-' List.mem_cons_self
  · cases each '+' List.mem_cons_self
  · rfl

/-- Digits are read as their value, when it fits. -/
theorem parse?_of_isDigits {ds : List Char} (digits : isDigits ds = true) :
    parse? ds = narrow? (value ds) := by
  have each := (isDigits_iff.mp digits).2
  have within := valueWithin?_bind 1 (.inl rfl) each
  simp only [Int.one_mul] at within
  unfold parse?
  rw [splitSign_digits each]
  simpa only [digits, if_true, Bool.false_eq_true, if_false] using within

theorem parse?_minus {ds : List Char} (digits : isDigits ds = true) :
    parse? ('-' :: ds) = narrow? (-value ds) := by
  have within := valueWithin?_bind (-1) (.inr rfl) (isDigits_iff.mp digits).2
  simp only [Int.neg_mul, Int.one_mul] at within
  unfold parse?
  simpa only [splitSign, digits, if_true] using within

theorem text_toList (n : Int64) :
    (text n).toList = (if n.toInt < 0 then ['-'] else []) ++ digits n.toInt.natAbs := by
  unfold text numeral
  rw [String.toList_ofList]
  split <;> rfl

/-- The text of a word is read as that word. -/
theorem parse?_text (n : Int64) : parse? (text n).toList = some n := by
  have digits := isDigits_digits n.toInt.natAbs
  rw [text_toList]
  by_cases negative : n.toInt < 0
  · have back : -(n.toInt.natAbs : Int) = n.toInt := by omega
    rw [if_pos negative, List.singleton_append, parse?_minus digits, value_digits, back,
      narrow?_toInt]
  · have back : (n.toInt.natAbs : Int) = n.toInt := by omega
    rw [if_neg negative, List.nil_append, parse?_of_isDigits digits, value_digits, back,
      narrow?_toInt]

theorem not_isBlank_of_mem_text {n : Int64} {c : Char} (mem : c ∈ (text n).toList) :
    Text.isBlank c = false := by
  rw [text_toList] at mem
  rcases List.mem_append.mp mem with mem | mem
  · split at mem
    · obtain rfl := List.mem_singleton.mp mem
      decide
    · cases mem
  · have digit := isDigit_of_mem_digits mem
    simp only [isDigit, Bool.and_eq_true, decide_eq_true_eq] at digit
    have low : 48 ≤ c.toNat := digit.1
    have high : c.toNat ≤ 57 := digit.2
    exact Text.not_isBlank_of_graphic (by omega) (by omega)

end Integer

theorem Text.dropEnd_of_not {α : Type} {p : α → Bool} {xs : List α} (none : ∀ x ∈ xs, p x = false) :
    dropEnd p xs = xs := by
  unfold dropEnd
  rw [List.dropWhile_eq_self_iff.mpr, List.reverse_reverse]
  intro some
  rw [none _ (List.mem_reverse.mp (List.getElem_mem some))]
  exact Bool.false_ne_true

theorem Integer.trim_text (n : Int64) : Text.trim (text n) = text n := by
  have none := fun c => not_isBlank_of_mem_text (n := n) (c := c)
  have front : (text n).toList.dropWhile Text.isBlank = (text n).toList := by
    apply List.dropWhile_eq_self_iff.mpr
    intro some
    simp [none _ (List.getElem_mem some)]
  rw [Text.trim, front, Text.dropEnd_of_not none, String.ofList_toList]

/-- The casts to text and back give the same integer. -/
theorem Native.toInteger_text (n : Int64) : toInteger (.text (Integer.text n)) = .ok (.integer n) := by
  simp only [toInteger, Integer.trim_text, Integer.parse?_text]

/-! ### Programs of one integer -/

theorem Parser.atom?_integer {t : Token} {n : Int64} (kind : t.kind = .integer)
    (fits : Integer.parse? t.value.toList = some n) : atom? t = some (.ok (.integer t.span n)) := by
  simp only [atom?, kind, fits]

/-- A text whose tokens are those of an expression is a program of this expression. -/
theorem parse_of_written {source : String} {ts : List Token} {stop : Position} {L : Nat} {e : Expr}
    (lexed : tokenizeChars source.toList = .ok (ts, stop)) (written : (Phrase.expr L e).Written ts) :
    ∃ e', parse source = .ok ⟨[.expression e']⟩ ∧ e'.bare = e.bare := by
  rw [parse_of_tokens lexed]
  exact ofTokens_of_written written (fun t mem => faithful_of_tokenizeChars lexed mem) rfl rfl

/-- A program of one expression without effects has its value and leaves nothing. -/
theorem runSource_of_pure {source : String} {e : Expr} {v : Value}
    (parsed : parse source = .ok ⟨[.expression e]⟩)
    (value : ∀ ctx s m, Action.evaluate ctx s e m = .done v m) :
    runSource source = .ok (v, .start {} {}) := by
  have block (ctx : Context) (s : ScopeId) (m : Machine) (runs : m.heap.isTerminated s = false) :
      Action.executeBlock ctx s .null [.expression e] m = .done (.value v) m := by
    simp only [Action.executeBlock, Action.execute, Action.bind_apply, value, Action.isTerminated,
      Action.ofHeap]
    simp only [Pure.pure, Action.pure, runs, Bool.false_eq_true, if_false]
  have ran : (Session.startOn {} {} {}).run ⟨[.expression e]⟩ = (.ok v, .start {} {}) := by
    rw [Session.run_eq, block _ _ _ rfl]
    rfl
  simp only [runSource, runSourceOn, parsed, ran]

theorem runSource_numeral {source : String} {n : Int64} {d : Char} {parts : List Char}
    (whole : source.toList = d :: parts) (digit : Decimal.isDigit d = true)
    (each : ∀ c ∈ parts, Decimal.isDigit c = true ∨ c = '_')
    (value : n.toInt = Decimal.value ((d :: parts).filter (· != '_'))) :
    runSource source = .ok (.integer n, .start {} {}) := by
  obtain ⟨t, stop, lexed, kind, text⟩ := tokenizeChars_numeral digit each
  have fits : Integer.parse? t.value.toList = some n := by
    rw [text, String.toList_ofList, Integer.parse?_of_isDigits (isDigits_filter digit each), ← value,
      Integer.narrow?_toInt]
  rw [← whole] at lexed
  obtain ⟨e, parsed, same⟩ := parse_of_written lexed (.atom (Parser.atom?_integer kind fits))
  refine runSource_of_pure parsed ?_
  intro ctx s m
  cases e <;> cases same
  rfl

theorem runSource_minus {source : String} {n : Int64} {d : Char} {parts : List Char}
    (whole : source.toList = '-' :: d :: parts) (digit : Decimal.isDigit d = true)
    (each : ∀ c ∈ parts, Decimal.isDigit c = true ∨ c = '_') (above : Integer.least < n.toInt)
    (value : -n.toInt = Decimal.value ((d :: parts).filter (· != '_'))) :
    runSource source = .ok (.integer n, .start {} {}) := by
  obtain ⟨sign, t, stop, lexed, minus, kind, text⟩ := tokenizeChars_minus digit each
  have small : n.toInt ≤ 0 := by omega
  obtain ⟨k, opposite⟩ : ∃ k : Int64, k.toInt = -n.toInt := by
    cases found : Integer.narrow? (-n.toInt) with
    | some k => exact ⟨k, Integer.narrow?_eq_some_iff.mp found⟩
    | none =>
        rw [Integer.narrow?_eq_none_iff] at found
        unfold Integer.least Integer.greatest at *
        omega
  have fits : Integer.parse? t.value.toList = some k := by
    rw [text, String.toList_ofList, Integer.parse?_of_isDigits (isDigits_filter digit each), ← value,
      ← opposite, Integer.narrow?_toInt]
  have back : Integer.neg? k = some n := by
    rw [Integer.neg?, opposite, Int.neg_neg, Integer.narrow?_toInt]
  rw [← whole] at lexed
  have operand : (Phrase.expr 9 (.integer t.span k)).Written [t] :=
    .loosen (by decide) (.atom (Parser.atom?_integer kind fits))
  have signed : Parser.sign? sign.kind = some .neg := by rw [minus]; rfl
  obtain ⟨e, parsed, same⟩ := parse_of_written lexed (.sign signed operand)
  refine runSource_of_pure parsed ?_
  intro ctx s m
  cases e with
  | unary span op operand =>
      cases operand <;> cases same
      simp only [Action.evaluate, Action.orAt, Action.bind_apply, Pure.pure, Action.pure,
        Action.tryOfHeap, Operator.unary, back]
  | _ => cases same

/-! ### Numerals that are too large -/

theorem Integer.parse?_eq_none {ds : List Char} (digits : Decimal.isDigits ds = true)
    (large : greatest < Decimal.value ds) : parse? ds = none := by
  rw [parse?_of_isDigits digits]
  exact narrow?_eq_none_iff.mpr (.inr large)

namespace Parser

variable {sub : Parser Expr} {c : Cursor} {e : SyntaxError}

theorem operators_eq_error {bound : Nat} (failed : negation sub bound c = .error e)
    (levels : List Level) : operators sub bound levels c = .error e := by
  induction levels with
  | nil => exact failed
  | cons level tighter ih => exact bind_eq_error.mpr (.inl ih)

/-- A numeral that is too large ends the reading of the program at its first token. -/
theorem statements_eq_error {t : Token} {rest : List Token} (kind : t.kind = .integer)
    (large : Integer.parse? t.value.toList = none) (depth bound : Nat) :
    statements (depth + 3) (bound + 1) ⟨t, rest⟩ =
      .error (.at_ (.integerTooLarge t.value) t) := by
  have atom : atom? t = some (.error (.integerTooLarge t.value)) := by
    simp only [atom?, kind, large]
  have first (sub : Parser Expr) (bound : Nat) :
      primary sub bound ⟨t, rest⟩ = .error (.at_ (.integerTooLarge t.value) t) := by
    unfold primary
    rw [peek_bind]
    dsimp only
    rw [atom]
    rfl
  have signed (sub : Parser Expr) (bound : Nat) :
      signs sub (bound + 1) ⟨t, rest⟩ = .error (.at_ (.integerTooLarge t.value) t) := by
    rw [signs, peek_bind]
    dsimp only
    rw [kind]
    exact bind_eq_error.mpr (.inl (first sub bound))
  have negated (sub : Parser Expr) (bound : Nat) :
      negation sub (bound + 2) ⟨t, rest⟩ = .error (.at_ (.integerTooLarge t.value) t) := by
    rw [negation, peek_bind]
    dsimp only
    rw [kind]
    exact signed sub bound
  have expressed : expression (depth + 3) ⟨t, rest⟩ = .error (.at_ (.integerTooLarge t.value) t) := by
    rw [expression, assignment]
    exact bind_eq_error.mpr (.inl (bind_eq_error.mpr (.inl (operators_eq_error (negated _ depth) ladder))))
  have stated (block : BlockParser) :
      statement block (depth + 3) ⟨t, rest⟩ = .error (.at_ (.integerTooLarge t.value) t) := by
    rw [statement, peek_bind]
    dsimp only
    rw [kind]
    exact bind_eq_error.mpr (.inl expressed)
  rw [statements, nextIs_bind]
  dsimp only
  rw [kind]
  exact bind_eq_error.mpr (.inl (stated _))

end Parser

/-- Digits of a value that is too large are no program. -/
theorem parse_of_large {source : String} {d : Char} {parts : List Char}
    (whole : source.toList = d :: parts) (digit : Decimal.isDigit d = true)
    (each : ∀ c ∈ parts, Decimal.isDigit c = true ∨ c = '_')
    (large : Integer.greatest < Decimal.value ((d :: parts).filter (· != '_'))) :
    ∃ e, parse source = .error e ∧
      e.problem = .integerTooLarge (String.ofList ((d :: parts).filter (· != '_'))) := by
  obtain ⟨t, stop, lexed, kind, text⟩ := tokenizeChars_numeral digit each
  have none : Integer.parse? t.value.toList = none := by
    rw [text, String.toList_ofList]
    exact Integer.parse?_eq_none (isDigits_filter digit each) large
  have failed : Parser.statements 9 9 ⟨t, [.endOfInput stop]⟩ = .error (.at_ (.integerTooLarge t.value) t) :=
    Parser.statements_eq_error kind none 6 8
  rw [← whole] at lexed
  refine ⟨.at_ (.integerTooLarge t.value) t, ?_, by rw [← text]; rfl⟩
  rw [parse_of_tokens lexed]
  change (Parser.statements 9 9 ⟨t, [.endOfInput stop]⟩ >>= _) = _
  rw [failed]
  rfl

/-! ### Numerals in any program -/

/-- A token that has the value of a word, when it is an integer at all. -/
def Token.Sized (t : Token) : Prop :=
  t.kind = .integer → ∃ n, Integer.parse? t.value.toList = some n

theorem sized_of_kind {t : Token} {kind : TokenKind} (same : t.kind = kind)
    (other : kind ≠ .integer) : t.Sized :=
  fun integer => absurd (same.symm.trans integer) other

theorem Parser.sized_of_atom? {t : Token} {e : Expr} (found : atom? t = some (.ok e)) : t.Sized := by
  intro kind
  cases parsed : Integer.parse? t.value.toList with
  | some n => exact ⟨n, rfl⟩
  | none =>
      simp only [atom?, kind, parsed] at found
      cases found

def AllSized (ts : List Token) : Prop := ∀ t ∈ ts, t.Sized

@[simp] theorem allSized_nil : AllSized [] := List.forall_mem_nil _

@[simp] theorem allSized_cons {t : Token} {ts : List Token} :
    AllSized (t :: ts) ↔ t.Sized ∧ AllSized ts :=
  List.forall_mem_cons

@[simp] theorem allSized_append {us vs : List Token} :
    AllSized (us ++ vs) ↔ AllSized us ∧ AllSized vs :=
  List.forall_mem_append

theorem Phrase.Written.sized {p : Phrase} {us : List Token} (written : p.Written us) :
    AllSized us := by
  induction written with
  | atom found => simpa using Parser.sized_of_atom? found
  | parens opens _ closes ih => simp [sized_of_kind opens, sized_of_kind closes, ih]
  | create new _ _ ih ih' => simp [sized_of_kind new, ih, ih']
  | member _ dotted named ih => simp [sized_of_kind dotted, sized_of_kind named, ih]
  | index _ opens _ closes ih ih' => simp [sized_of_kind opens, sized_of_kind closes, ih, ih']
  | call _ _ ih ih' => simp [ih, ih']
  | sign sign _ ih =>
      have other : Token.Sized _ := fun kind => by rw [kind] at sign; cases sign
      simp [ih, other]
  | not negates _ ih =>
      rcases negates with same | same <;> simp [sized_of_kind same, ih]
  | @binary _ _ _ op _ _ _ operates _ ih ih' =>
      have other : op.piece.kind ≠ .integer := by cases op <;> nofun
      simp [sized_of_kind operates other, ih, ih']
  | range _ leads _ ih ih' => simp [sized_of_kind leads, ih, ih']
  | assign _ assigns _ _ ih ih' => simp [sized_of_kind assigns, ih, ih']
  | loosen _ _ ih => exact ih
  | item _ ih => exact ih
  | cons _ parts _ ih ih' => simp [sized_of_kind parts, ih, ih']
  | noArguments opens closes => simp [sized_of_kind opens, sized_of_kind closes]
  | arguments opens _ closes ih => simp [sized_of_kind opens, sized_of_kind closes, ih]
  | name named => simp [sized_of_kind named]
  | dotted _ dotted named ih => simp [sized_of_kind dotted, sized_of_kind named, ih]

theorem Parameters.sized {names : List String} {us : List Token} (written : Parameters names us) :
    AllSized us := by
  induction written with
  | one named => simp [sized_of_kind named]
  | cons named parts _ ih => simp [sized_of_kind named, sized_of_kind parts, ih]

theorem Parser.sized_of_visibility? {t : Token} {v : Visibility}
    (shown : visibility? t.kind = some v) : t.Sized := by
  intro kind
  rw [kind] at shown
  cases shown

theorem Sentence.Written.sized {s : Sentence} {us : List Token} (written : s.Written us) :
    AllSized us := by
  induction written with
  | declare opens named assigns given =>
      simp [sized_of_kind opens, sized_of_kind named, sized_of_kind assigns, given.sized]
  | array opens named starts given closes =>
      simp [sized_of_kind opens, sized_of_kind named, sized_of_kind starts, given.sized,
        sized_of_kind closes]
  | routineStmt _ ih => exact ih
  | classAlone opens named _ closes ih =>
      simp [sized_of_kind opens, sized_of_kind named, ih, sized_of_kind closes]
  | classUnder opens named leads above _ closes ih =>
      simp [sized_of_kind opens, sized_of_kind named, sized_of_kind leads, sized_of_kind above, ih,
        sized_of_kind closes]
  | giveNothing opens => simp [sized_of_kind opens]
  | giveBack opens given => simp [sized_of_kind opens, given.sized]
  | conditional opens _ ih => simp [sized_of_kind opens, ih]
  | switch opens given leads _ ih => simp [sized_of_kind opens, given.sized, sized_of_kind leads, ih]
  | count opens named assigns start leadsTo stop _ closes renamed ih =>
      simp [sized_of_kind opens, sized_of_kind named, sized_of_kind assigns, start.sized,
        sized_of_kind leadsTo, stop.sized, ih, sized_of_kind closes, sized_of_kind renamed]
  | whileLoop opens given _ closes ih =>
      simp [sized_of_kind opens, given.sized, ih, sized_of_kind closes]
  | untilLoop opens _ leadsTo given ih =>
      simp [sized_of_kind opens, ih, sized_of_kind leadsTo, given.sized]
  | expression given => exact given.sized
  | done => simp
  | next _ _ ih ih' => simp [ih, ih']
  | ifOnly given leads _ closes ih => simp [given.sized, sized_of_kind leads, ih, sized_of_kind closes]
  | ifElse given leads _ turns _ closes ih ih' =>
      simp [given.sized, sized_of_kind leads, ih, sized_of_kind turns, ih', sized_of_kind closes]
  | elseIf given leads _ turns _ ih ih' =>
      simp [given.sized, sized_of_kind leads, ih, sized_of_kind turns, ih']
  | endSwitch closes => simp [sized_of_kind closes]
  | caseArm opens given leads _ _ ih ih' =>
      simp [sized_of_kind opens, given.sized, sized_of_kind leads, ih, ih']
  | defaultArm opens leads _ _ ih ih' => simp [sized_of_kind opens, sized_of_kind leads, ih, ih']
  | @routine _ _ _ _ _ us _ kind _ _ encloses named opens given _ closes _ ih =>
      have names : AllSized us := by
        rcases given with ⟨_, rfl⟩ | given
        · exact allSized_nil
        · exact given.sized
      have word : Token.Sized _ := named.elim (sized_of_kind · nofun) (sized_of_kind · nofun)
      cases kind <;>
        simp [sized_of_kind encloses.1, word, sized_of_kind opens, names, sized_of_kind closes, ih,
          sized_of_kind encloses.2]
  | field shown named => simp [Parser.sized_of_visibility? shown, sized_of_kind named]
  | method shown _ ih => simp [Parser.sized_of_visibility? shown, ih]
  | noMembers => simp
  | nextMember _ _ ih ih' => simp [ih, ih']

/-- A program is read up to the end of input. -/
theorem Parser.statements_next {depth bound : Nat} {c c' : Cursor} {ss : List Stmt}
    (read : statements depth bound c = .ok (ss, c')) : c'.next.kind = .endOfInput := by
  induction bound generalizing c ss with
  | zero => cases exhausted_eq_ok.mp read
  | succ bound ih =>
      rw [statements, nextIs_bind] at read
      split at read
      · rename_i ended
        obtain ⟨_, rfl⟩ := pure_eq_ok.mp read
        exact beq_iff_eq.mp ended
      · obtain ⟨s, c₁, _, more⟩ := bind_eq_ok.mp read
        obtain ⟨ss, c₂, others, last⟩ := bind_eq_ok.mp more
        obtain ⟨_, rfl⟩ := pure_eq_ok.mp last
        exact ih others

/-- The tokens of a program all belong to its statements. -/
theorem written_of_parse {source : String} {p : Program} (parsed : parse source = .ok p) :
    ∃ ts stop, tokenizeChars source.toList = .ok (ts, stop) ∧ (Sentence.block p.body).Written ts := by
  obtain ⟨ts, stop, lexed, read⟩ := parse_eq_ok parsed
  refine ⟨ts, stop, lexed, ?_⟩
  obtain ⟨c, read⟩ := ofTokens_eq_ok.mp read
  have reads : Parser.Meets (.endOfInput stop) [] ts
      (Parser.statements (ts.length + 8) (ts.length + 8)) _ :=
    .statements rfl (ts.length + 8) (ts.length + 8)
  have ended := Parser.statements_next read
  unfold Parser.Meets at reads
  rw [read] at reads
  cases reads with
  | @ok _ us vs split written =>
      cases vs with
      | nil => rwa [split, List.append_nil]
      | cons t vs =>
          have mem : t ∈ ts := by rw [split]; simp
          exact absurd ended (kind_ne_of_tokenizeChars lexed mem)

/-- A program has no numeral that is too large. -/
theorem sized_of_parse {source : String} {p : Program} {ts : List Token} {stop : Position}
    {t : Token} (parsed : parse source = .ok p) (lexed : tokenizeChars source.toList = .ok (ts, stop))
    (mem : t ∈ ts) : t.Sized := by
  obtain ⟨_, _, lexed', written⟩ := written_of_parse parsed
  rw [lexed] at lexed'
  cases lexed'
  exact written.sized t mem

/-! ### The round trip -/

/-- The text of an integer, with separators put in anywhere after its first digit. -/
def Integer.Separated (n : Int64) (source : String) : Prop :=
  ∃ d ds parts, Decimal.digits n.toInt.natAbs = d :: ds ∧ parts.filter (· != '_') = ds ∧
    source.toList = (if n.toInt < 0 then ['-'] else []) ++ d :: parts

theorem Integer.separated_text (n : Int64) : Separated n (text n) := by
  obtain ⟨d, ds, eq⟩ := List.exists_cons_of_ne_nil (Nat.toDigits_ne_nil (n := n.toInt.natAbs) (b := 10))
  have plain : ds.filter (· != '_') = ds := by
    apply List.filter_eq_self.mpr
    intro c mem
    have digit : Decimal.isDigit c = true :=
      Decimal.isDigit_of_mem_digits (n := n.toInt.natAbs) (by rw [Decimal.digits, eq]; simp [mem])
    apply bne_iff_ne.mpr
    rintro rfl
    cases digit
  refine ⟨d, ds, ds, eq, plain, ?_⟩
  rw [text_toList, Decimal.digits, eq]

theorem Integer.Separated.runSource {n : Int64} {source : String} (separated : Separated n source)
    (above : n.toInt ≠ least) : runSource source = .ok (.integer n, .start {} {}) := by
  obtain ⟨d, ds, parts, digits, rfl, whole⟩ := separated
  have mem {c : Char} (mem : c ∈ d :: parts.filter (· != '_')) : Decimal.isDigit c = true :=
    Decimal.isDigit_of_mem_digits (digits ▸ mem)
  have digit : Decimal.isDigit d = true := mem List.mem_cons_self
  have each : ∀ c ∈ parts, Decimal.isDigit c = true ∨ c = '_' := by
    intro c found
    by_cases mark : c = '_'
    · exact .inr mark
    · refine .inl (mem (List.mem_cons_of_mem _ (List.mem_filter.mpr ⟨found, ?_⟩)))
      exact bne_iff_ne.mpr mark
  have kept : (d :: parts).filter (· != '_') = Decimal.digits n.toInt.natAbs := by
    rw [digits, List.filter_cons_of_pos]
    apply bne_iff_ne.mpr
    rintro rfl
    cases digit
  have bounds := Integer.toInt_bounds n
  by_cases negative : n.toInt < 0
  · rw [if_pos negative] at whole
    apply runSource_minus whole digit each (by omega)
    rw [kept, Decimal.value_digits]
    omega
  · rw [if_neg negative] at whole
    apply runSource_numeral whole digit each
    rw [kept, Decimal.value_digits]
    omega

/-- A call of a built-in function of one argument. -/
theorem evaluate_callNative {ctx : Context} {s : ScopeId} {f : NativeFunction} {name : String}
    {e : Expr} {v : Value} {m m' : Machine} (span place : Span)
    (value : Action.evaluate ctx s e m = .done v m')
    (found : m'.heap.lookup s name = .ok (.nativeFunction f)) :
    Action.evaluate ctx s (.call span (.identifier place name) [e]) m =
      Action.orAt span (Action.callNative f [v]) m' := by
  simp only [Action.evaluate, Action.evaluateAll, Action.orAt, Action.bind_apply, value, Pure.pure,
    Action.pure, Action.lookup, Action.tryOfHeap, found, Action.callValue]

/-- A call of `str` inside one of `int`, where these names mean the built-in functions, has
the value that its argument has. -/
theorem evaluate_int_str {ctx : Context} {s : ScopeId} {e : Expr} {m m' : Machine} {n : Int64}
    (value : Action.evaluate ctx s e m = .done (.integer n) m')
    (isInt : m'.heap.lookup s "int" = .ok (.nativeFunction .int))
    (isStr : m'.heap.lookup s "str" = .ok (.nativeFunction .str)) (outer inner int str : Span) :
    Action.evaluate ctx s
        (.call outer (.identifier int "int") [.call inner (.identifier str "str") [e]]) m =
      .done (.integer n) m' := by
  have text : Action.evaluate ctx s (.call inner (.identifier str "str") [e]) m =
      .done (.text (Integer.text n)) m' :=
    evaluate_callNative inner str value isStr
  rw [evaluate_callNative outer int text isInt]
  simp only [Action.orAt, Action.callNative, Action.unaryFunction, Native.toInteger_text,
    Action.ofExcept, Action.pure]

/-- The text of an integer other than the least, with any separators after its first digit,
is a program of that value. Digits of a larger value than any integer are no program, neither
alone nor in any other text. The casts of an integer to text and back give the same integer,
the least one included. -/
theorem integer_text_round_trip :
    (∀ (n : Int64) (source : String), n.toInt ≠ Integer.least → Integer.Separated n source →
      runSource source = .ok (.integer n, .start {} {})) ∧
    (∀ n : Int64, Integer.Separated n (Integer.text n)) ∧
    (∀ (d : Char) (parts : List Char), Decimal.isDigit d = true →
      (∀ c ∈ parts, Decimal.isDigit c = true ∨ c = '_') →
      Integer.greatest < Decimal.value ((d :: parts).filter (· != '_')) →
        ∃ e, runSource (String.ofList (d :: parts)) = .error (.notAProgram e) ∧
          e.problem = .integerTooLarge (String.ofList ((d :: parts).filter (· != '_')))) ∧
    (∀ (source : String) (ts : List Token) (stop : Position) (t : Token),
      tokenizeChars source.toList = .ok (ts, stop) → t ∈ ts → t.kind = .integer →
      Integer.greatest < Decimal.value t.value.toList →
        ∃ e, runSource source = .error (.notAProgram e)) ∧
    (∀ (ctx : Context) (s : ScopeId) (e : Expr) (m m' : Machine) (n : Int64),
      Action.evaluate ctx s e m = .done (.integer n) m' →
      m'.heap.lookup s "int" = .ok (.nativeFunction .int) →
      m'.heap.lookup s "str" = .ok (.nativeFunction .str) →
      ∀ outer inner int str : Span, Action.evaluate ctx s
          (.call outer (.identifier int "int") [.call inner (.identifier str "str") [e]]) m =
        .done (.integer n) m') := by
  refine ⟨?_, Integer.separated_text, ?_, ?_, ?_⟩
  · intro n source above separated
    exact separated.runSource above
  · intro d parts digit each large
    obtain ⟨e, failed, problem⟩ := parse_of_large String.toList_ofList digit each large
    exact ⟨e, by simp only [runSource, runSourceOn, failed], problem⟩
  · intro source ts stop t lexed mem kind large
    cases parsed : parse source with
    | error e => exact ⟨e, by simp only [runSource, runSourceOn, parsed]⟩
    | ok p =>
        obtain ⟨n, fits⟩ := sized_of_parse parsed lexed mem kind
        rw [Integer.parse?_eq_none (isDigits_of_integer lexed mem kind) large] at fits
        cases fits
  · intro ctx s e m m' n value isInt isStr outer inner int str
    exact evaluate_int_str value isInt isStr outer inner int str

/-- The number after the least one, with separators; the number after the greatest one; and
the least one itself, taken to text and back. -/
theorem integer_text_round_trip_limits :
    runSource "-9_223_372__036_854_775_807_" = .ok (.integer (-9223372036854775807), .start {} {}) ∧
    (∃ e, runSource "9223372036854775808" = .error (.notAProgram e) ∧
      e.problem = .integerTooLarge "9223372036854775808") ∧
    (∃ e, runSource "print(9223372036854775808)" = .error (.notAProgram e)) ∧
    (let session := Session.start {} {}
    Action.evaluate (Action.context {} 0) session.globals (.call .unplaced (.identifier .unplaced "int")
        [.call .unplaced (.identifier .unplaced "str")
          [.binary .unplaced .sub (.integer .unplaced (-9223372036854775807)) (.integer .unplaced 1)]])
        session.machine =
      .done (.integer (-9223372036854775808)) session.machine) := by
  obtain ⟨small, _, alone, within, casts⟩ := integer_text_round_trip
  refine ⟨?_, ?_, ?_, ?_⟩
  · refine small _ _ (by decide) ?_
    exact ⟨'9', "223372036854775807".toList, "_223_372__036_854_775_807_".toList, by decide +kernel,
      by decide +kernel, by decide +kernel⟩
  · exact alone '9' "223372036854775808".toList (by decide) (by simp [Decimal.isDigit]) (by decide)
  · have lexed : tokenizeChars "print(9223372036854775808)".toList =
        .ok ([⟨.identifier, "print", ⟨0, 5⟩, 1, 1⟩, ⟨.symbol .openParen, "(", ⟨5, 6⟩, 1, 6⟩,
          ⟨.integer, "9223372036854775808", ⟨6, 25⟩, 1, 7⟩,
          ⟨.symbol .closeParen, ")", ⟨25, 26⟩, 1, 26⟩], ⟨26, 1, 27⟩) := by
      decide +kernel
    exact within _ _ _ ⟨.integer, "9223372036854775808", ⟨6, 25⟩, 1, 7⟩ lexed (by simp) rfl (by decide)
  · exact casts _ _ _ _ _ _ rfl rfl rfl _ _ _ _

end Pseudocode

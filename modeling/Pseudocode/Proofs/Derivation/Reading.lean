import Pseudocode.Proofs.Reading.Statement
import Pseudocode.Proofs.Spans.Layout
import Pseudocode.Proofs.Derivation.Expression

/-!
What is written is read.

The tokens of a phrase spell pieces that the parser of its level reads as this phrase
(`Phrase.Written.readable`), with as many parentheses as there are. So the tokens of an
expression at any place, standing alone, are a program with that expression as its only
statement (`ofTokens_of_written`).
-/

namespace Pseudocode

/-- A token of a reserved word or a symbol has the spelling of it as its value. -/
structure Token.Faithful (t : Token) : Prop where
  keyword : ∀ k, t.kind = .keyword k → t.value = k.text
  symbol : ∀ s, t.kind = .symbol s → t.value = s.text

namespace Token.Faithful

variable {t : Token} (faithful : t.Faithful)
include faithful

theorem spells_symbol {s : Symbol} (kind : t.kind = .symbol s) : t.Spells (.symbol s) :=
  ⟨kind, faithful.symbol s kind⟩

theorem spells_keyword {k : Keyword} (kind : t.kind = .keyword k) : t.Spells (.keyword k) :=
  ⟨kind, faithful.keyword k kind⟩

theorem spells_binary {op : BinaryOp} (kind : t.kind = op.piece.kind) : t.Spells op.piece := by
  cases op <;> first | exact faithful.spells_symbol kind | exact faithful.spells_keyword kind

theorem spells_sign {op : UnaryOp} (sign : Parser.sign? t.kind = some op) :
    t.Spells op.piece ∧ Parser.sign? op.piece.kind = some op := by
  unfold Parser.sign? at sign
  split at sign
  · rename_i kind
    cases sign
    exact ⟨faithful.spells_symbol kind, rfl⟩
  · rename_i kind
    cases sign
    exact ⟨faithful.spells_symbol kind, rfl⟩
  · cases sign

theorem spells_not (negates : t.kind = .keyword .not ∨ t.kind = .symbol .bang) :
    ∃ piece, t.Spells piece ∧ (piece.kind = .keyword .not ∨ piece.kind = .symbol .bang) := by
  rcases negates with kind | kind
  · exact ⟨.keyword .not, faithful.spells_keyword kind, .inl rfl⟩
  · exact ⟨.symbol .bang, faithful.spells_symbol kind, .inr rfl⟩

/-- A literal or name is read from its token. -/
theorem readsAs_atom {e : Expr} (found : Parser.atom? t = some (.ok e)) :
    ∃ piece, t.Spells piece ∧ Parser.ReadsAs [piece] 12 e := by
  have reads {e : Expr} (legible : Parser.Legible true e) :
      Parser.ReadsAs (e.piecesAt true 12) 12 e :=
    legible.readsAs 12 (Nat.le_refl 12)
  unfold Parser.atom? at found
  split at found
  · rename_i kind
    cases found
    exact ⟨.name t.value, ⟨kind, rfl⟩, reads (Parser.legible_identifier t.span t.value)⟩
  · rename_i kind
    split at found <;> cases found
    rename_i value written
    exact ⟨.integer value, ⟨kind, written⟩, reads (Parser.legible_integer t.span value)⟩
  · rename_i kind
    split at found <;> cases found
    rename_i value written
    exact ⟨.float value, ⟨kind, written⟩, reads (Parser.legible_float t.span value)⟩
  · rename_i kind
    cases found
    exact ⟨.text t.value, ⟨kind, rfl⟩, reads (Parser.legible_text t.span t.value)⟩
  · rename_i kind
    cases found
    exact ⟨.keyword .null, faithful.spells_keyword kind, reads (Parser.legible_null t.span)⟩
  · cases found

end Token.Faithful

theorem Spelled.append {us vs : List Token} {ps qs : List Piece} (first : Spelled us ps)
    (second : Spelled vs qs) : Spelled (us ++ vs) (ps ++ qs) :=
  List.rel_append first second

/-- What tokens spell does not depend on their places. -/
theorem Spelled.of_content {us us' : List Token} {ps : List Piece} (spelled : Spelled us ps)
    (same : us'.map Token.content = us.map Token.content) : Spelled us' ps := by
  induction spelled generalizing us' with
  | nil =>
      rw [List.map_nil, List.map_eq_nil_iff] at same
      rw [same]
      exact .nil
  | @cons t p us ps spells _ ih =>
      cases us' with
      | nil => cases same
      | cons t' us' =>
          obtain ⟨content, rest⟩ := List.cons.inj same
          obtain ⟨kind, value⟩ := Prod.mk.inj content
          refine .cons ?_ (ih rest)
          unfold Token.Spells at spells ⊢
          rwa [kind, value]

/-! ### Phrases -/

/-- The expressions are read from the pieces beside them. -/
def EachReads (items : List (List Piece × Expr)) : Prop := ∀ x ∈ items, Parser.ReadsAs x.1 0 x.2

/-- Tokens that spell pieces from which a phrase is read. -/
def Phrase.Readable : Phrase → List Token → Prop
  | .expr L e, us => L ≤ 12 ∧ ∃ ps, Spelled us ps ∧ Parser.ReadsAs ps L e
  | .items es, us => ∃ items, Spelled us (commas (items.map Prod.fst)) ∧ items.map Prod.snd = es ∧
      items ≠ [] ∧ EachReads items
  | .arguments es _, us => ∃ items, Spelled us (parenthesise (commas (items.map Prod.fst))) ∧
      items.map Prod.snd = es ∧ EachReads items
  | .name e, us => Spelled us (e.pieces true) ∧ e.isDotted = true

theorem Phrase.Written.readable {p : Phrase} {us : List Token} (written : p.Written us)
    (faithful : ∀ t ∈ us, t.Faithful) : p.Readable us := by
  induction written with
  | @atom t e found =>
      obtain ⟨piece, spells, reads⟩ := (faithful t (by simp)).readsAs_atom found
      exact ⟨Nat.le_refl 12, [piece], .cons spells .nil, reads⟩
  | @parens opening close us e opens _ closes ih =>
      obtain ⟨_, ps, spelled, reads⟩ := ih fun t mem => faithful t (by simp [mem])
      refine ⟨Nat.le_refl 12, parenthesise ps, ?_, ?_⟩
      · exact .cons ((faithful opening (by simp)).spells_symbol opens)
          (spelled.append (.cons ((faithful close (by simp)).spells_symbol closes) .nil))
      · exact reads.inParens.of_bare (e.bare_withSpan _)
  | @create keyword us vs classExpr args close new _ _ ih ih' =>
      obtain ⟨spelled, named⟩ := ih fun t mem => faithful t (by simp [mem])
      obtain ⟨items, spelled', rfl, each⟩ := ih' fun t mem => faithful t (by simp [mem])
      refine ⟨Nat.le_refl 12, _, ?_, .create true _ named each⟩
      exact .cons ((faithful keyword (by simp)).spells_keyword new) (spelled.append spelled')
  | @member us object dot field _ dotted named ih =>
      obtain ⟨_, ps, spelled, reads⟩ := ih fun t mem => faithful t (by simp [mem])
      refine ⟨by decide, _, spelled.append ?_, reads.member _ field.value⟩
      exact .cons ((faithful dot (by simp)).spells_symbol dotted) (.cons ⟨named, rfl⟩ .nil)
  | @index us vs object is opening close _ opens _ closes ih ih' =>
      obtain ⟨_, ps, spelled, reads⟩ := ih fun t mem => faithful t (by simp [mem])
      obtain ⟨items, spelled', rfl, some, each⟩ := ih' fun t mem => faithful t (by simp [mem])
      refine ⟨by decide, _, spelled.append ?_, reads.index _ some each⟩
      exact .cons ((faithful opening (by simp)).spells_symbol opens)
        (spelled'.append (.cons ((faithful close (by simp)).spells_symbol closes) .nil))
  | @call us vs callee args close _ _ ih ih' =>
      obtain ⟨_, ps, spelled, reads⟩ := ih fun t mem => faithful t (by simp [mem])
      obtain ⟨items, spelled', rfl, each⟩ := ih' fun t mem => faithful t (by simp [mem])
      exact ⟨by decide, _, spelled.append spelled', reads.call _ each⟩
  | @sign operator us op operand sign _ ih =>
      obtain ⟨_, ps, spelled, reads⟩ := ih fun t mem => faithful t (by simp [mem])
      obtain ⟨spells, same⟩ := (faithful operator (by simp)).spells_sign sign
      exact ⟨by decide, _, .cons spells spelled, .sign _ same (by decide) (by decide) reads⟩
  | @not operator us operand negates _ ih =>
      obtain ⟨_, ps, spelled, reads⟩ := ih fun t mem => faithful t (by simp [mem])
      obtain ⟨piece, spells, kind⟩ := (faithful operator (by simp)).spells_not negates
      exact ⟨by decide, _, .cons spells spelled, .not _ kind reads⟩
  | @binary us vs operator op left right _ operates _ ih ih' =>
      obtain ⟨le, ps, spelled, reads⟩ := ih fun t mem => faithful t (by simp [mem])
      obtain ⟨_, qs, spelled', reads'⟩ := ih' fun t mem => faithful t (by simp [mem])
      refine ⟨le, _, spelled.append ?_, reads.binary _ op reads'⟩
      exact .cons ((faithful operator (by simp)).spells_binary operates) spelled'
  | @range us vs keyword start stop _ leads _ ih ih' =>
      obtain ⟨_, ps, spelled, reads⟩ := ih fun t mem => faithful t (by simp [mem])
      obtain ⟨_, qs, spelled', reads'⟩ := ih' fun t mem => faithful t (by simp [mem])
      refine ⟨by decide, _, spelled.append ?_, reads.range _ reads'⟩
      exact .cons ((faithful keyword (by simp)).spells_keyword leads) spelled'
  | @assign us vs equals target value _ assigns allowed _ ih ih' =>
      obtain ⟨_, ps, spelled, reads⟩ := ih fun t mem => faithful t (by simp [mem])
      obtain ⟨_, qs, spelled', reads'⟩ := ih' fun t mem => faithful t (by simp [mem])
      refine ⟨by decide, _, spelled.append ?_, .assign _ allowed reads reads'⟩
      exact .cons ((faithful equals (by simp)).spells_symbol assigns) spelled'
  | loosen tighter _ ih =>
      obtain ⟨le, ps, spelled, reads⟩ := ih faithful
      exact ⟨Nat.le_trans tighter le, ps, spelled, reads.lower le tighter⟩
  | @item us e _ ih =>
      obtain ⟨_, ps, spelled, reads⟩ := ih faithful
      exact ⟨[(ps, e)], spelled, rfl, List.cons_ne_nil _ _, by simpa [EachReads] using reads⟩
  | @cons us vs comma e es _ parts _ ih ih' =>
      obtain ⟨_, ps, spelled, reads⟩ := ih fun t mem => faithful t (by simp [mem])
      obtain ⟨items, spelled', rfl, some, each⟩ := ih' fun t mem => faithful t (by simp [mem])
      refine ⟨(ps, e) :: items, ?_, rfl, List.cons_ne_nil _ _, List.forall_mem_cons.mpr ⟨reads, each⟩⟩
      rw [List.map_cons, commas.eq_3 _ _ (by simpa using some)]
      exact spelled.append (.cons ((faithful comma (by simp)).spells_symbol parts) spelled')
  | @noArguments opening close opens closes =>
      refine ⟨[], .cons ((faithful opening (by simp)).spells_symbol opens) ?_, rfl, ?_⟩
      · exact .cons ((faithful close (by simp)).spells_symbol closes) .nil
      · exact List.forall_mem_nil _
  | @arguments opening close us es opens _ closes ih =>
      obtain ⟨items, spelled, rfl, _, each⟩ := ih fun t mem => faithful t (by simp [mem])
      refine ⟨items, .cons ((faithful opening (by simp)).spells_symbol opens) ?_, rfl, each⟩
      exact spelled.append (.cons ((faithful close (by simp)).spells_symbol closes) .nil)
  | @name t named => exact ⟨.cons ⟨named, rfl⟩ .nil, rfl⟩
  | @dotted us object dot field _ dotted named ih =>
      obtain ⟨spelled, isName⟩ := ih fun t mem => faithful t (by simp [mem])
      refine ⟨?_, isName⟩
      rw [Parser.pieces_member _ isName]
      exact spelled.append
        (.cons ((faithful dot (by simp)).spells_symbol dotted) (.cons ⟨named, rfl⟩ .nil))

/-! ### Programs -/

/-- Pieces of an expression, alone in a text. -/
theorem Parser.ReadsAs.statements {ps : List Piece} {e : Expr} (read : ReadsAs ps 0 e)
    {depth b : Nat} (deep : ps.length + 3 ≤ depth) (rounds : 2 ≤ b) :
    Reads (statements depth b) ps (· = .endOfInput) pure
      fun body => ∃ e', body = [.expression e'] ∧ Same e e' := by
  obtain ⟨b, rfl⟩ : ∃ n, b = n + 2 := ⟨b - 2, by omega⟩
  rw [Parser.statements]
  refine .nextIs false ?_ ?_
  · intro k _
    obtain ⟨m, lead, _⟩ := read.head k
    rw [beq_eq_false_iff_ne]
    intro eq
    rw [eq] at lead
    cases lead
  · refine ((read.statement deep).bind _).finish ?_ ?_
    · rintro k rfl
      exact stops_of_none rfl 0
    · rintro _ ⟨e', rfl, same⟩
      have rest : Reads (Parser.statements depth (b + 1)) [] (· = .endOfInput) pure (· = []) := by
        rw [Parser.statements]
        refine .nextIs true ?_ (.gives rfl)
        rintro k rfl
        rfl
      refine (rest.bind _).finish (fun _ ends => ends) ?_
      rintro _ rfl
      exact .gives ⟨e', rfl, same⟩

/-- The tokens of an expression are a program with this expression as its only statement. -/
theorem ofTokens_of_written {L : Nat} {e : Expr} {us us' : List Token} {stop : Token}
    (written : (Phrase.expr L e).Written us) (faithful : ∀ t ∈ us, t.Faithful)
    (same : us'.map Token.content = us.map Token.content) (ends : stop.kind = .endOfInput) :
    ∃ e', Program.ofTokens us' stop = .ok ⟨[.expression e']⟩ ∧ e'.bare = e.bare := by
  obtain ⟨le, ps, spelled, reads⟩ := written.readable faithful
  have spelled' : Spelled us' ps := spelled.of_content same
  have reads : Reads (Parser.statements (us'.length + 8) (us'.length + 8)) ps _ pure _ :=
    (reads.lower le (Nat.zero_le L)).statements (by have := spelled'.length_eq; omega) (by omega)
  obtain ⟨body, ⟨e', rfl, same⟩, read⟩ := reads us' ⟨stop, []⟩ spelled' ends
  rw [← Cursor.start_eq] at read
  exact ⟨e', ofTokens_eq_ok.mpr ⟨_, read⟩, same⟩

end Pseudocode

import Pseudocode.Proofs.Parsed.Expression

/-!
Parsers on written pieces.

`Reads p ps Q q R` says that the parser `p` reads the pieces `ps`, however they
are spelled, when a token that `Q` allows stands after them, and goes on as `q a`
for some `a` of which `R` holds. With `pure` for `q` this is the result of `p`; a
loop that goes on with another round is a `q` of its own, and the rounds are put
together by `Reads.trans`.
-/

namespace Pseudocode

/-- The cursor with tokens before it. -/
def Cursor.feed : List Token → Cursor → Cursor
  | [], c => c
  | t :: ts, c => ⟨t, (feed ts c).next :: (feed ts c).rest⟩

theorem Cursor.feed_append (us vs : List Token) (c : Cursor) :
    Cursor.feed (us ++ vs) c = Cursor.feed us (Cursor.feed vs c) := by
  induction us with
  | nil => rfl
  | cons t us ih => simp only [List.cons_append, feed, ih]

theorem Cursor.next_feed {ts : List Token} {ps : List Piece} (spelled : Spelled ts ps) (c : Cursor) :
    (Cursor.feed ts c).next.kind = firstKind ps c.next.kind := by
  cases spelled with
  | nil => rfl
  | cons spells _ => exact spells.kind_eq

theorem Cursor.start_eq (ts : List Token) (stop : Token) :
    Cursor.start ts stop = Cursor.feed ts ⟨stop, []⟩ := by
  have rest (ts : List Token) : (Cursor.feed ts ⟨stop, []⟩).next :: (Cursor.feed ts ⟨stop, []⟩).rest =
      ts ++ [stop] := by
    induction ts with
    | nil => rfl
    | cons t ts ih => simp only [Cursor.feed, ih, List.cons_append]
  cases ts with
  | nil => rfl
  | cons t ts => rw [Cursor.start, Cursor.feed, rest]

def Reads {α β : Type} (p : Parser β) (ps : List Piece) (Q : TokenKind → Prop) (q : α → Parser β)
    (R : α → Prop) : Prop :=
  ∀ ts c, Spelled ts ps → Q c.next.kind → ∃ a, R a ∧ p (c.feed ts) = q a c

namespace Reads

variable {α β γ : Type} {p : Parser β} {ps qs : List Piece} {piece : Piece}
  {Q Q' : TokenKind → Prop} {q : α → Parser β} {R : α → Prop} {f : Token → Parser β}

theorem done {a : α} (holds : R a) : Reads (q a) [] Q q R := by
  intro ts c spelled _
  cases spelled
  exact ⟨a, holds, rfl⟩

theorem gives {a : β} {R : β → Prop} (holds : R a) : Reads (pure a) [] Q pure R := .done holds

/-- Pieces after pieces: the parser goes on from where it got. -/
theorem trans {q' : γ → Parser β} {R' : γ → Prop} (first : Reads p ps Q q R)
    (follow : ∀ k, Q' k → Q (firstKind qs k)) (rest : ∀ a, R a → Reads (q a) qs Q' q' R') :
    Reads p (ps ++ qs) Q' q' R' := by
  intro ts c spelled allowed
  obtain ⟨us, vs, rfl, left, right⟩ := spelled.split
  have next : Q (c.feed vs).next.kind := Cursor.next_feed right c ▸ follow _ allowed
  obtain ⟨a, holds, eq⟩ := first us (c.feed vs) left next
  obtain ⟨b, holds', eq'⟩ := rest a holds vs c right allowed
  exact ⟨b, holds', by rw [Cursor.feed_append, eq, eq']⟩

/-- What is done after the pieces when no piece follows. -/
theorem finish {q' : γ → Parser β} {R' : γ → Prop} (first : Reads p ps Q q R)
    (follow : ∀ k, Q' k → Q k) (rest : ∀ a, R a → Reads (q a) [] Q' q' R') :
    Reads p ps Q' q' R' := by
  have both : Reads p (ps ++ []) Q' q' R' := first.trans follow rest
  rwa [List.append_nil] at both

theorem imp {R' : α → Prop} (read : Reads p ps Q q R) (follow : ∀ k, Q' k → Q k)
    (holds : ∀ a, R a → R' a) : Reads p ps Q' q R' :=
  read.finish follow fun a h => .done (holds a h)

/-- A parser and what is done with its result. -/
theorem bind {p : Parser γ} {R : γ → Prop} (read : Reads p ps Q pure R) (f : γ → Parser β) :
    Reads (p >>= f) ps Q f R := by
  intro ts c spelled allowed
  obtain ⟨a, holds, eq⟩ := read ts c spelled allowed
  refine ⟨a, holds, ?_⟩
  rw [Parser.bind_apply, eq]
  rfl

/-- A parser on the first pieces and what is done with its result on the others. -/
theorem andThen {δ : Type} {p : Parser γ} {R : γ → Prop} {f : γ → Parser β} {q' : δ → Parser β}
    {R' : δ → Prop} (first : Reads p ps Q pure R) (follow : ∀ k, Q' k → Q (firstKind qs k))
    (rest : ∀ a, R a → Reads (f a) qs Q' q' R') : Reads (p >>= f) (ps ++ qs) Q' q' R' :=
  (first.bind f).trans follow rest

theorem eat (rest : ∀ t, t.Spells piece → Reads (f t) ps Q q R) :
    Reads (Parser.eat >>= f) (piece :: ps) Q q R := by
  rintro _ c (_ | ⟨spells, spelled⟩) allowed
  exact rest _ spells _ c spelled allowed

theorem expect {kind : TokenKind} (eq : piece.kind = kind)
    (rest : ∀ t, t.Spells piece → Reads (f t) ps Q q R) :
    Reads (Parser.expect kind >>= f) (piece :: ps) Q q R := by
  rintro _ c (_ | ⟨spells, spelled⟩) allowed
  rename_i t ts
  have found : Parser.expect kind (c.feed (t :: ts)) = Parser.eat (c.feed (t :: ts)) := by
    have is : (c.feed (t :: ts)).next.kind = kind := spells.kind_eq.trans eq
    rw [Parser.expect, Parser.nextIs_bind, if_pos (beq_iff_eq.mpr is)]
  obtain ⟨a, holds, run⟩ := rest t spells ts c spelled allowed
  refine ⟨a, holds, ?_⟩
  rw [Parser.bind_apply, found]
  exact run

/-- A look at the next token, when it is one of the pieces. -/
theorem peek (rest : ∀ t, t.Spells piece → Reads (f t) (piece :: ps) Q q R) :
    Reads (Parser.peek >>= f) (piece :: ps) Q q R := by
  rintro _ c (_ | ⟨spells, spelled⟩) allowed
  exact rest _ spells _ c (.cons spells spelled) allowed

/-- A look at the kind of the next token. -/
theorem peekKind (rest : ∀ t k, Q k → t.kind = firstKind ps k → Reads (f t) ps Q q R) :
    Reads (Parser.peek >>= f) ps Q q R := by
  intro ts c spelled allowed
  rw [Parser.peek_bind]
  exact rest _ _ allowed (Cursor.next_feed spelled c) ts c spelled allowed

theorem nextIs {kind : TokenKind} {f : Bool → Parser β} (b : Bool)
    (eq : ∀ k, Q k → (firstKind ps k == kind) = b) (rest : Reads (f b) ps Q q R) :
    Reads (Parser.nextIs kind >>= f) ps Q q R := by
  intro ts c spelled allowed
  rw [Parser.nextIs_bind, Cursor.next_feed spelled, eq _ allowed]
  exact rest ts c spelled allowed

end Reads

end Pseudocode

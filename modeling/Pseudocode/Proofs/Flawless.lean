import Mathlib.Data.List.Chain
import Pseudocode.Proofs.Congruence
import Pseudocode.Proofs.Spans.Selection

/-!
Programs that were read have no flaws.

Targets of assignments and names of parameters are checked when they are read. That no
field is called like the constructor is decided before: the name of the constructor is a
word of the language, and only behind a dot is it a name (`constructorName_behind_dot`),
where no field is declared.
-/

namespace Pseudocode

/-- All features but flaws. -/
def Flawless (f : Feature) : Prop := f ≠ .flaw

@[simp] theorem flawless_assigns (name : String) : Flawless (.assigns name) := nofun

@[simp] theorem flawless_counts (name : String) : Flawless (.counts name) := nofun

@[simp] theorem flawless_repeats : Flawless .repeats := nofun

theorem not_flawless_flaw : ¬ Flawless .flaw := fun other => other rfl

@[simp] theorem permits_flawless_unless {condition : Prop} [Decidable condition] :
    Permits Flawless (flawUnless condition) ↔ condition := by
  rw [permits_flawUnless, or_iff_left not_flawless_flaw]

/-! ### Expressions -/

namespace Expr

theorem features_withSpan (e : Expr) (s : Span) : (e.withSpan s).features = e.features := by
  cases e <;> rfl

theorem features_indexed (object : Expr) (s : Span) (is : List Expr) :
    (object.indexed s is).features = object.features ++ featuresAll is := by
  induction is generalizing object with
  | nil => simp [indexed, featuresAll]
  | cons i is ih =>
      have step := ih (.index s object i)
      simp only [indexed, List.foldl_cons] at step ⊢
      rw [step]
      simp [features, featuresAll]

theorem flawless_target {target : Expr} :
    Permits Flawless target.targetFeatures ↔ target.isTarget = true := by
  cases target with
  | identifier span name => simp [targetFeatures, isTarget]
  | _ => exact permits_flawless_unless

end Expr

/-- The features of what is read. -/
def Phrase.features : Phrase → List Feature
  | .expr _ e | .name e => e.features
  | .items es | .arguments es _ => Expr.featuresAll es

theorem Phrase.Written.flawless {phrase : Phrase} {us : List Token} (written : phrase.Written us) :
    Permits Flawless phrase.features := by
  induction written with
  | @atom t e found =>
      unfold Parser.atom? at found
      split at found <;> first | split at found | skip
      all_goals cases found
      all_goals exact permits_nil
  | parens _ _ _ ih => rwa [features, Expr.features_withSpan]
  | create _ _ _ ih ih' => exact permits_append.mpr ⟨ih, ih'⟩
  | member _ _ _ ih => exact ih
  | index _ _ _ _ ih ih' =>
      rw [features, Expr.features_indexed]
      exact permits_append.mpr ⟨ih, ih'⟩
  | call _ _ ih ih' => exact permits_append.mpr ⟨ih, ih'⟩
  | sign _ _ ih => exact ih
  | not _ _ ih => exact ih
  | binary _ _ _ ih ih' => exact permits_append.mpr ⟨ih, ih'⟩
  | range _ _ _ ih ih' => exact permits_append.mpr ⟨ih, ih'⟩
  | assign _ _ allowed _ ih ih' =>
      simp only [features, Expr.features, permits_append]
      exact ⟨⟨Expr.flawless_target.mpr allowed, ih⟩, ih'⟩
  | loosen _ _ ih => exact ih
  | item _ ih => simpa [features, Expr.featuresAll] using ih
  | cons _ _ _ ih ih' => exact permits_append.mpr ⟨ih, ih'⟩
  | noArguments _ _ => exact permits_nil
  | arguments _ _ _ ih => exact ih
  | name _ => exact permits_nil
  | dotted _ _ _ ih => exact ih

/-! ### The name of the constructor -/

/-- If the second token is a name, and that of the constructor, the first one is a dot. -/
def Token.Leads (t u : Token) : Prop :=
  u.kind = .identifier → u.value = Heap.constructorName → t.kind = .symbol .dot

theorem PlacedLexeme.afterDot_of_constructorName {l : PlacedLexeme} {afterDot : Bool} {t : Token}
    (made : l.token afterDot = .ok t) (named : t.kind = .identifier)
    (called : t.value = Heap.constructorName) : afterDot = true := by
  unfold token at made
  split at made
  · split at made
    · cases made
      by_contra before
      simp [before] at named
    · rename_i text free
      cases made
      dsimp only at called
      rw [called] at free
      exact absurd free (by decide)
  · split at made
    · cases made
    · cases made
      dsimp only at named
      split at named <;> cases named
  · cases made
    cases named
  · split at made
    · cases made
      cases named
    · cases made

theorem constructorName_behind_dot {ls : List PlacedLexeme} {afterDot : Bool} {ts : List Token}
    (made : tokensOf afterDot ls = .ok ts) : ts.IsChain Token.Leads := by
  induction ls generalizing afterDot ts with
  | nil =>
      cases made
      exact .nil
  | cons l ls ih =>
      obtain ⟨t, rest, rfl, first, more⟩ := tokensOf_cons_eq_ok.mp made
      apply List.isChain_cons.mpr
      refine ⟨?_, ih more⟩
      intro u second named called
      cases ls with
      | nil =>
          cases more
          cases second
      | cons l' ls =>
          obtain ⟨u', rest', rfl, found, _⟩ := tokensOf_cons_eq_ok.mp more
          cases second
          have dot := PlacedLexeme.afterDot_of_constructorName found named called
          exact beq_iff_eq.mp dot

/-- What stands inside a row is one. -/
theorem isChain_part {us vs : List Token} (row : us.IsChain Token.Leads) (front back : List Token)
    (split : front ++ vs ++ back = us) : vs.IsChain Token.Leads :=
  List.IsChain.infix row ⟨front, back, split⟩

/-! ### Statements -/

def Sentence.features : Sentence → List Feature
  | .stmt s | .conditional s => s.features
  | .block ss => Stmt.featuresAll ss
  | .arms cases => Case.featuresAll cases
  | .routine decl => decl.features
  | .member m => m.features
  | .members ms => Member.featuresAll ms

/-- A field stands behind a word, so it is not called like the constructor. -/
theorem Sentence.Written.flawless {sentence : Sentence} {us : List Token}
    (written : sentence.Written us) (row : us.IsChain Token.Leads) :
    Permits Flawless sentence.features := by
  induction written with
  | declare _ _ _ given => exact given.flawless
  | array _ _ _ given _ => exact given.flawless
  | routineStmt _ ih => exact ih row
  | @classAlone keyword name close us _ _ _ _ _ ih =>
      exact ih (isChain_part row [keyword, name] [close] (by simp))
  | @classUnder keyword name inherits parent close us _ _ _ _ _ _ _ ih =>
      exact ih (isChain_part row [keyword, name, inherits, parent] [close] (by simp))
  | giveNothing _ => exact permits_nil
  | giveBack _ given => exact given.flawless
  | @conditional keyword us _ _ _ ih => exact ih (isChain_part row [keyword] [] (by simp))
  | @switch keyword colon us vs _ _ _ given _ _ ih =>
      have inside := ih (isChain_part row (keyword :: us ++ [colon]) [] (by simp))
      exact permits_append.mpr ⟨given.flawless, inside⟩
  | @count keyword name equals leads next again us vs ws _ _ _ _ _ _ start _ stop _ _ _ ih =>
      have inside := ih (isChain_part row (keyword :: name :: equals :: us ++ leads :: vs) [next, again]
        (by simp))
      simp only [features, Stmt.features, List.cons_append, permits_cons, permits_append]
      exact ⟨flawless_counts _, ⟨start.flawless, stop.flawless⟩, inside⟩
  | @whileLoop keyword close us vs _ _ _ given _ _ ih =>
      have inside := ih (isChain_part row (keyword :: us) [close] (by simp))
      exact permits_append.mpr ⟨given.flawless, inside⟩
  | @untilLoop keyword leads us vs _ _ _ _ _ given ih =>
      have inside := ih (isChain_part row [keyword] (leads :: vs) (by simp))
      simp only [features, Stmt.features, List.cons_append, permits_cons, permits_append]
      exact ⟨flawless_repeats, inside, given.flawless⟩
  | expression given => exact given.flawless
  | done => exact permits_nil
  | next _ _ ih ih' => exact permits_append.mpr ⟨ih row.left_of_append, ih' row.right_of_append⟩
  | @ifOnly then_ close us vs _ _ given _ _ _ ih =>
      have inside := ih (isChain_part row (us ++ [then_]) [close] (by simp))
      simp only [features, Stmt.features, Stmt.featuresElse, permits_append]
      exact ⟨⟨given.flawless, inside⟩, permits_nil⟩
  | @ifElse then_ else_ close us vs ws _ _ _ given _ _ _ _ _ ih ih' =>
      have inside := ih (isChain_part row (us ++ [then_]) (else_ :: (ws ++ [close])) (by simp))
      have other := ih' (isChain_part row (us ++ then_ :: vs ++ [else_]) [close] (by simp))
      simp only [features, Stmt.features, Stmt.featuresElse, permits_append]
      exact ⟨⟨given.flawless, inside⟩, other⟩
  | @elseIf then_ again us vs ws _ _ _ given _ _ _ _ ih ih' =>
      have inside := ih (isChain_part row (us ++ [then_]) (again :: ws) (by simp))
      have other := ih' (isChain_part row (us ++ then_ :: vs ++ [again]) [] (by simp))
      simp only [features, Stmt.features, Stmt.featuresElse, Stmt.featuresAll, List.append_nil,
        permits_append]
      exact ⟨⟨given.flawless, inside⟩, other⟩
  | endSwitch _ => exact permits_nil
  | @caseArm opening colon us vs ws _ _ _ _ given _ _ _ ih ih' =>
      have inside := ih (isChain_part row (opening :: us ++ [colon]) ws (by simp))
      have others := ih' (isChain_part row (opening :: us ++ colon :: vs) [] (by simp))
      simp only [features, Case.featuresAll, permits_append]
      exact ⟨⟨given.flawless, inside⟩, others⟩
  | @defaultArm opening colon vs ws _ _ _ _ _ _ ih ih' =>
      have inside := ih (isChain_part row [opening, colon] ws (by simp))
      have others := ih' (isChain_part row (opening :: colon :: vs) [] (by simp))
      exact permits_append.mpr ⟨inside, others⟩
  | @routine keyword name opening closing close us vs _ _ _ _ _ _ _ distinct _ _ ih =>
      have inside := ih (isChain_part row (keyword :: name :: opening :: us ++ [closing]) [close] (by simp))
      exact permits_routine.mpr ⟨.inl distinct, inside⟩
  | @field modifier name _ shown named =>
      apply permits_flawless_unless.mpr
      intro called
      have dot := List.isChain_pair.mp row named called
      rw [dot] at shown
      cases shown
  | @method modifier us _ _ _ _ ih => exact ih (isChain_part row [modifier] [] (by simp))
  | noMembers => exact permits_nil
  | nextMember _ _ ih ih' => exact permits_append.mpr ⟨ih row.left_of_append, ih' row.right_of_append⟩

theorem flawless_of_parse {source : String} {p : Program} (parsed : parse source = .ok p) :
    Permits Flawless p.features := by
  obtain ⟨ts, stop, lexed, read⟩ := parse_eq_ok parsed
  obtain ⟨us, vs, rfl, written⟩ := written_of_ofTokens rfl read
  obtain ⟨_, _, _, _, _, made, _⟩ := tokenizeChars_eq_ok.mp lexed
  exact written.flawless (constructorName_behind_dot made).left_of_append

end Pseudocode

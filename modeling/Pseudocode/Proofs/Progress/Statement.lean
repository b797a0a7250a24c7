import Pseudocode.Proofs.Parsed.Statement
import Pseudocode.Proofs.Progress.Expression

/-!
Reading a statement comes to an end.

The bounds of a statement are those of its expressions and blocks. A block leaves the
word that closes it, so it may take no token at all, while every statement takes at
least one.
-/

namespace Pseudocode.Parser.Settles

variable {stop : Token} {ts : List Token} {k : Nat} (ends : stop.kind = .endOfInput)
include ends

/-- The rest of a statement behind an expression. -/
theorem bindExpression {α : Type} {k' d d' : Nat} {f g : Expr → Parser α} (large : ts.length + 2 < d)
    (large' : ts.length + 2 < d')
    (rest : ∀ e vs, vs.length < ts.length → Settles stop vs k' (f e) (g e)) :
    Settles stop ts k' (Parser.expression d >>= f) (Parser.expression d' >>= g) :=
  bind (expression ends large large') rest

/-! ### Statements without blocks -/

section Depth

variable {d d' : Nat} (large : ts.length + 2 < d) (large' : ts.length + 2 < d')
include large large'

theorem declaration : Settles stop ts ts.length (declaration d) (declaration d') := by
  apply eat
  intro keyword us le
  apply expect ends (by nofun)
  intro name vs fewer
  apply expect ends (by nofun)
  intro _ ws fewer'
  exact (returns (expression ends (by omega) (by omega))).mono (by omega)

theorem arrayDeclaration : Settles stop ts ts.length (arrayDeclaration d) (arrayDeclaration d') := by
  apply eat
  intro keyword us le
  apply expect ends (by nofun)
  intro name vs fewer
  apply expect ends (by nofun)
  intro _ ws fewer'
  have dimensions := commaSeparated ends
    (fun xs le => expression ends (by omega : xs.length + 2 < d) (by omega : xs.length + 2 < d'))
    (by omega : ws.length < d) (by omega : ws.length < d')
  apply bind dimensions
  intro _ xs fewer''
  exact expect ends nofun fun _ ys fewer''' => pure (by omega)

/-- At the end of input no token is taken. -/
theorem returnStatement :
    Settles stop ts (max ts.length 1) (returnStatement d) (returnStatement d') := by
  apply eat
  intro keyword us le
  apply peek
  split
  · exact pure le
  · exact (returns (expression ends (by omega) (by omega))).mono (by omega)

end Depth

/-! ### Parts of declarations -/

theorem parameters (routine : String) {b b' : Nat} (large : ts.length < b) (large' : ts.length < b')
    (earlier : List String) :
    Settles stop ts ts.length (parameters routine b earlier) (parameters routine b' earlier) := by
  revert earlier
  refine rounds 0 ?_ b b' ts large large'
  intro b b' ts _ _ ih earlier
  apply expect ends (by nofun)
  intro name vs fewer
  split
  · exact throw nofun
  · apply ifNextIs
    · intro comma
      apply eatKind ends comma (by nofun)
      intro _ ws fewer'
      exact (ih ws (by omega) _).mono (by omega)
    · exact pure fewer

theorem routineName : Settles stop ts ts.length routineName routineName := by
  apply ifNextIs
  · intro new
    exact returns (eatOne (ne_nil ends (by rw [new]; nofun)))
  · exact returns (expectOne ends nofun)

/-! ### Statements with blocks -/

section Blocks

variable {block block' : BlockParser}
  (blocks : ∀ closers opener vs, vs.length < k →
    Settles stop vs (vs.length + 1) (block closers opener) (block' closers opener))
  (fits : ts.length ≤ k) {d d' : Nat} (large : ts.length + 2 < d) (large' : ts.length + 2 < d')
include blocks fits large large'

omit large large' in
theorem routineRest (keyword : Token) (name : String) (params : List String) :
    Settles stop ts ts.length (routineRest block keyword name params)
      (routineRest block' keyword name params) := by
  apply expect ends (by nofun)
  intro _ us fewer
  apply bind (blocks _ keyword us (by omega))
  intro body vs le
  exact expect ends nofun fun _ _ _ => pure (by omega)

theorem routine : Settles stop ts ts.length (routine block d) (routine block' d') := by
  rw [routine_eq, routine_eq]
  apply eat
  intro keyword us le
  apply bind (routineName ends)
  intro name vs fewer
  apply expect ends (by nofun)
  intro _ ws fewer'
  apply ifNextIs
  · intro _
    exact (routineRest ends blocks (by omega) keyword name []).mono (by omega)
  · apply bind (parameters ends name (by omega : ws.length < d) (by omega : ws.length < d') [])
    intro params xs fewer''
    exact (routineRest ends blocks (by omega) keyword name params).mono (by omega)

theorem member (visibility : Visibility) (modifier : Token) :
    Settles stop ts ts.length (member block d visibility modifier)
      (member block' d' visibility modifier) := by
  have method := routine ends blocks fits large large'
  apply peek
  split
  · exact returns method
  · exact returns method
  · rename_i named
    exact returns (eatOne (ne_nil ends (by rw [named]; nofun)))
  · exact fail nofun

theorem members (keyword : Token) (className : String) {b b' : Nat} (more : ts.length < b)
    (more' : ts.length < b') (earlier : List Member) :
    Settles stop ts (ts.length + 1) (members block d keyword className b earlier)
      (members block' d' keyword className b' earlier) := by
  revert fits large large' earlier
  refine rounds 0 ?_ b b' ts more more'
  intro b b' ts _ _ ih fits large large' earlier
  apply peek
  split
  · rename_i visibility shown
    have some : (upcoming stop ts).kind ≠ .endOfInput := by
      intro kind
      rw [kind] at shown
      cases shown
    apply eatKind ends rfl some
    intro _ vs fewer
    apply bind (member ends blocks (by omega : vs.length ≤ k) (by omega : vs.length + 2 < d)
      (by omega : vs.length + 2 < d') visibility _)
    intro m ws fewer'
    split
    · exact throw nofun
    · exact (ih ws (by omega) (by omega) (by omega) (by omega) _).mono (by omega)
  · split
    · exact pure (Nat.lt_succ_self _)
    · split
      · exact throw nofun
      · exact fail nofun

theorem classRest (keyword name : Token) (parent : Option (String × Span)) :
    Settles stop ts ts.length (classRest block d keyword name parent)
      (classRest block' d' keyword name parent) := by
  apply bind (members ends blocks fits large large' keyword name.value (by omega) (by omega) [])
  intro ms us le
  exact expect ends nofun fun _ _ _ => pure (by omega)

theorem classDeclaration :
    Settles stop ts ts.length (classDeclaration block d) (classDeclaration block' d') := by
  rw [classDeclaration_eq, classDeclaration_eq]
  apply eat
  intro keyword us le
  apply expect ends (by nofun)
  intro name vs fewer
  apply ifNextIs
  · intro inherits
    apply eatKind ends inherits (by nofun)
    intro _ ws fewer'
    apply expect ends (by nofun)
    intro parent xs fewer''
    exact (classRest ends blocks (by omega) (by omega) (by omega) keyword name _).mono (by omega)
  · exact (classRest ends blocks (by omega) (by omega) (by omega) keyword name none).mono (by omega)

theorem conditional {b b' : Nat} (more : ts.length < b) (more' : ts.length < b') (keyword : Token) :
    Settles stop ts ts.length (conditional block d b keyword) (conditional block' d' b' keyword) := by
  revert fits large large' keyword
  refine rounds 0 ?_ b b' ts more more'
  intro b b' ts _ _ ih fits large large' keyword
  apply bindExpression ends large large'
  intro condition vs fewer
  apply expect ends (by nofun)
  intro _ ws fewer'
  apply bind (blocks _ keyword ws (by omega))
  intro yes xs le
  apply peek
  split
  · rename_i turns
    apply eatKind ends turns (by nofun)
    intro again ys fewer''
    exact (returns (ih ys (by omega) (by omega) (by omega) (by omega) again)).mono (by omega)
  · rename_i turns
    apply eatKind ends turns (by nofun)
    intro otherwise ys fewer''
    apply bind (blocks _ otherwise ys (by omega))
    intro no zs le'
    exact expect ends nofun fun _ _ _ => pure (by omega)
  · exact expect ends nofun fun _ _ _ => pure (by omega)

theorem arms (keyword : Token) {b b' : Nat} (more : ts.length < b) (more' : ts.length < b')
    (earlier : List Case) :
    Settles stop ts ts.length (arms block d keyword b earlier) (arms block' d' keyword b' earlier) := by
  revert fits large large' earlier
  refine rounds 0 ?_ b b' ts more more'
  intro b b' ts _ _ ih fits large large' earlier
  apply peek
  split
  · rename_i case
    apply eatKind ends case (by nofun)
    intro opener vs fewer
    apply bindExpression ends (by omega : vs.length + 2 < d) (by omega : vs.length + 2 < d')
    intro test ws fewer'
    apply expect ends (by nofun)
    intro _ xs fewer''
    apply bind (blocks _ opener xs (by omega))
    intro body ys le
    exact (ih ys (by omega) (by omega) (by omega) (by omega) _).mono (by omega)
  · rename_i default
    apply eatKind ends default (by nofun)
    intro opener vs fewer
    apply expect ends (by nofun)
    intro _ xs fewer'
    apply bind (blocks _ opener xs (by omega))
    intro body ys le
    exact (ih ys (by omega) (by omega) (by omega) (by omega) _).mono (by omega)
  · rename_i closes
    exact returns (eatOne (ne_nil ends (by rw [closes]; nofun)))
  · exact throw nofun
  · exact fail nofun

theorem switchStatement :
    Settles stop ts ts.length (switchStatement block d) (switchStatement block' d') := by
  apply eat
  intro keyword us le
  apply bindExpression ends (by omega : us.length + 2 < d) (by omega : us.length + 2 < d')
  intro subject vs fewer
  apply expect ends (by nofun)
  intro _ ws fewer'
  have cases := arms ends blocks (by omega : ws.length ≤ k) (by omega : ws.length + 2 < d)
    (by omega : ws.length + 2 < d') keyword (by omega : ws.length < d) (by omega : ws.length < d') []
  exact (returns cases).mono (by omega)

theorem countingLoop : Settles stop ts ts.length (countingLoop block d) (countingLoop block' d') := by
  apply eat
  intro keyword us le
  apply expect ends (by nofun)
  intro name vs fewer
  apply expect ends (by nofun)
  intro _ ws fewer'
  apply bind (loopBound ends (by omega : ws.length + 2 < d) (by omega : ws.length + 2 < d'))
  intro first xs fewer''
  apply expect ends (by nofun)
  intro _ ys fewer'''
  apply bind (loopBound ends (by omega : ys.length + 2 < d) (by omega : ys.length + 2 < d'))
  intro last zs less
  apply bind (blocks _ keyword zs (by omega))
  intro body zs' le'
  apply expect ends (by nofun)
  intro _ ys' less'
  apply expect ends (by nofun)
  intro again xs' less''
  split
  · exact pure (by omega)
  · exact throw nofun

theorem whileLoop : Settles stop ts ts.length (whileLoop block d) (whileLoop block' d') := by
  apply eat
  intro keyword us le
  apply bindExpression ends (by omega : us.length + 2 < d) (by omega : us.length + 2 < d')
  intro condition vs fewer
  apply bind (blocks _ keyword vs (by omega))
  intro body ws le'
  exact expect ends nofun fun _ _ _ => pure (by omega)

theorem untilLoop (some : 0 < k) :
    Settles stop ts ts.length (untilLoop block d) (untilLoop block' d') := by
  apply eat
  intro keyword us le
  apply bind (blocks _ keyword us (by omega))
  intro body vs le'
  apply expect ends (by nofun)
  intro _ ws fewer
  exact (returns (expression ends (by omega) (by omega))).mono (by omega)

/-- Every statement takes a token. -/
theorem statement : Settles stop ts ts.length (statement block d) (statement block' d') := by
  have some {kind : TokenKind} (same : (upcoming stop ts).kind = kind) (other : kind ≠ .endOfInput) :
      0 < ts.length :=
    List.length_pos_iff.mpr (ne_nil ends (same ▸ other))
  apply peek
  split
  · exact declaration ends large large'
  · exact arrayDeclaration ends large large'
  · exact returns (routine ends blocks fits large large')
  · exact returns (routine ends blocks fits large large')
  · exact classDeclaration ends blocks fits large large'
  · rename_i keyword
    have nonempty := some keyword nofun
    exact (returnStatement ends large large').mono (by omega)
  · rename_i keyword
    apply eatKind ends keyword (by nofun)
    intro opener vs fewer
    have rest := conditional ends blocks (by omega : vs.length ≤ k) (by omega : vs.length + 2 < d)
      (by omega : vs.length + 2 < d') (by omega : vs.length < d) (by omega : vs.length < d') opener
    exact rest.mono (by omega)
  · exact switchStatement ends blocks fits large large'
  · exact countingLoop ends blocks fits large large'
  · exact whileLoop ends blocks fits large large'
  · rename_i keyword
    have nonempty := some keyword nofun
    exact untilLoop ends blocks fits large large' (by omega)
  · exact returns (expression ends large large')

end Blocks

theorem block (closers : List Keyword) (opener : Token) {n n' : Nat} (large : ts.length + 3 < n)
    (large' : ts.length + 3 < n') :
    Settles stop ts (ts.length + 1) (block n closers opener) (block n' closers opener) := by
  revert closers opener
  refine rounds 3 ?_ n n' ts large large'
  intro n n' ts large large' ih closers opener
  apply peek
  split
  · exact pure (Nat.lt_succ_self _)
  · split
    · exact throw nofun
    · apply bind (statement ends (fun closers opener vs fewer => ih vs fewer closers opener)
        (Nat.le_refl _) (by omega) (by omega))
      intro s vs fewer
      exact (returns (ih vs fewer closers opener)).mono (by omega)

theorem statements {n n' b b' : Nat} (large : ts.length + 4 < n) (large' : ts.length + 4 < n')
    (more : ts.length < b) (more' : ts.length < b') :
    Settles stop ts (ts.length + 1) (statements n b) (statements n' b') := by
  revert large large'
  refine rounds 0 ?_ b b' ts more more'
  intro b b' ts _ _ ih large large'
  apply ifNextIs
  · intro _
    exact pure (Nat.lt_succ_self _)
  · have blocks : ∀ closers opener vs, vs.length < ts.length + 1 →
        Settles stop vs (vs.length + 1) (Parser.block n closers opener) (Parser.block n' closers opener) :=
      fun closers opener vs le => block ends closers opener (by omega) (by omega)
    apply bind (statement ends blocks (Nat.le_succ _) (by omega : ts.length + 2 < n) (by omega))
    intro s vs fewer
    exact (returns (ih vs fewer (by omega) (by omega))).mono (by omega)

end Pseudocode.Parser.Settles

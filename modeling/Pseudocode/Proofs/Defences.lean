import Pseudocode.Proofs.Pieces
import Pseudocode.Proofs.Refusals
import Pseudocode.Proofs.Cursors
import Pseudocode.Proofs.Spans.Sessions
import Pseudocode.Proofs.Unguarded.Agreement

/-!
What never happens.

The lexer, the parser and the evaluator are prepared for some things that do not happen,
whatever a session is given (`Session.Undisturbed`). Each is ruled out elsewhere: by the
lexeme grammar, by what the parser lets through, or by what a run keeps.
-/

namespace Pseudocode

/-! ### Operators -/

namespace Operator

/-- The operators that work on numbers. -/
def IsArithmetic (op : BinaryOp) : Prop := op ∈ [.add, .sub, .mul, .div, .intDiv, .mod, .pow]

variable {pow : Float → Float → Float} {op : BinaryOp}

theorem floatArithmetic_ne (arithmetic : IsArithmetic op) (a b : Float) (op' : BinaryOp) :
    floatArithmetic pow op a b ≠ .error (.misuse (.notArithmetic op')) := by
  unfold floatArithmetic
  split
  · nofun
  · nofun
  · nofun
  · split <;> nofun
  · split <;> nofun
  · split <;> nofun
  · nofun
  · cases op <;> simp_all [IsArithmetic]

theorem exact_ne (result : Option Int64) (op' : BinaryOp) :
    exact op result ≠ .error (.misuse (.notArithmetic op')) := by
  cases result <;> nofun

theorem integerArithmetic_ne (arithmetic : IsArithmetic op) (a b : Int64) (op' : BinaryOp) :
    integerArithmetic pow op a b ≠ .error (.misuse (.notArithmetic op')) := by
  unfold integerArithmetic
  split
  · exact exact_ne _ op'
  · exact exact_ne _ op'
  · exact exact_ne _ op'
  · exact floatArithmetic_ne arithmetic _ _ op'
  · split
    · nofun
    · exact exact_ne _ op'
  · split
    · nofun
    · exact exact_ne _ op'
  · split
    · nofun
    · exact exact_ne _ op'
  · exact exact_ne _ op'

theorem arithmetic_ne (arithmetic : IsArithmetic op) (l r : Value) (op' : BinaryOp) :
    Operator.arithmetic pow op l r ≠ .error (.misuse (.notArithmetic op')) := by
  unfold Operator.arithmetic
  split
  · exact integerArithmetic_ne arithmetic _ _ op'
  · split <;> nofun
  · split
    · exact floatArithmetic_ne arithmetic _ _ op'
    · nofun

theorem order_ne (l r : Value) (f : Option Ordering → Value) (op' : BinaryOp) :
    (order op l r).map f ≠ .error (.misuse (.notArithmetic op')) := by
  unfold order
  split
  · nofun
  · nofun
  · split <;> nofun

theorem logical_ne (l r : Value) (op' : BinaryOp) :
    logical op l r ≠ .error (.misuse (.notArithmetic op')) := by
  unfold logical
  split <;> nofun

/-- Floats are only ever combined by operators that are arithmetic. -/
theorem binary_ne (h : Heap) (op : BinaryOp) (l r : Value) (op' : BinaryOp) :
    binary h op l r ≠ .error (.misuse (.notArithmetic op')) := by
  cases op with
  | eq => nofun
  | notEq => nofun
  | greater => exact order_ne l r _ op'
  | less => exact order_ne l r _ op'
  | greaterEq => exact order_ne l r _ op'
  | lessEq => exact order_ne l r _ op'
  | and => exact logical_ne l r op'
  | or => exact logical_ne l r op'
  | _ => exact arithmetic_ne (by simp [IsArithmetic]) l r op'

end Operator

/-! ### Sessions -/

namespace Session

open Pseudocode.Action

variable {session : Session} {p : Program}

/-- The code that the session keeps is flawless, and its outermost scope exists. -/
def Flawless (session : Session) : Prop := session.heap.Ready (some session.globals)

theorem flawless_start (limits : Limits) (world : World) : (start limits world).Flawless where
  sound := Heap.sound_start limits world
  carries := {
    routines := fun _ mem => absurd mem (Array.not_mem_empty _)
    classes := fun _ mem => absurd mem (Array.not_mem_empty _) }
  hosts := Heap.hosts_some Nat.one_pos

theorem Flawless.run (flawless : session.Flawless) (permitted : Permits Pseudocode.Flawless p.features) :
    (session.run p).2.Flawless := by
  have leads := executeBlock_leads session.limits ampleFuel session.limits.depth session.globals .null
    permitted { session.machine with depth := 0 } flawless.carries
  rw [Flawless, run_globals]
  exact run_all (Q := fun m => m.heap.Ready (some session.globals)) flawless
    (leads.imp fun _ reached => Heap.Ready.run flawless reached.1)

theorem Flawless.execute (flawless : session.Flawless) (source : String) :
    (session.execute source).2.Flawless :=
  execute_kept (Q := Flawless) flawless (fun _ parsed => flawless.run (flawless_of_parse parsed))
    fun _ kept => kept

/-- What source texts keep, sessions keep that are given some. -/
theorem feed_kept {Q : Session → Prop}
    (kept : ∀ {session : Session} (source : String), Q session → Q (session.execute source).2)
    (holds : Q session) (sources : List String) : Q (session.feed sources) := by
  induction sources generalizing session with
  | nil => exact holds
  | cons source rest ih => exact ih (kept source holds)

theorem feed_flawless (limits : Limits) (world : World) (earlier : List String) :
    ((start limits world).feed earlier).Flawless :=
  feed_kept (fun source flawless => flawless.execute source) (flawless_start limits world) earlier

theorem feed_reachable (limits : Limits) (world : World) (earlier : List String) :
    ((start limits world).feed earlier).Reachable :=
  feed_kept (fun source reachable => .execute reachable source) (.start limits world) earlier

/-- Without defences a program runs as it does with them. -/
theorem runUnguarded_eq (flawless : session.Flawless) (reachable : session.Reachable)
    (permitted : Permits Pseudocode.Flawless p.features) (trap : Unguarded.Trap) :
    session.runUnguarded trap p = session.run p := by
  have same : Unguarded.executeBlock trap (Unguarded.contextAt trap session.limits ampleFuel
      session.limits.depth) session.globals .null p.body session.machine =
        session.blockFrom .null p.body session.machine :=
    same_executeBlock (sameCalls trap _) session.globals .null p.body permitted session.machine flawless
  have idle : (⟨session.machine.heap, session.machine.world, 0⟩ : Machine) = session.machine :=
    reachable.machine_idle
  rw [reachable.run_eq_runFrom, runFrom]
  unfold runUnguarded
  dsimp only
  rw [idle, Unguarded.program, bind_apply, same]
  cases ended : session.blockFrom .null p.body session.machine with
  | done flow m =>
      cases flow with
      | value v => rfl
      | returned => exact absurd ended (reachable.blockFrom_ne_returned .null p.body m)
  | failed _ _ | crashed _ _ | exhausted => rfl

/-- A session is given a source text, and nothing happens that the language is only
prepared for. -/
structure Undisturbed (session : Session) (source : String) : Prop where
  /-- All symbols are known, and all floats can be read. -/
  problems : ∀ e, parse source = .error e → e.problem.Arises
  /-- The parser does nothing with tokens but look at the next one and pass it. -/
  parts : ∀ depth bound, Parser.Made (Parser.statements depth bound)
  /-- It stands at one of the tokens all the time, the end of input included. -/
  tokens : ∀ ts stop, tokenizeChars source.toList = .ok (ts, stop) →
    ∀ c, Parser.Visits (Parser.statements (ts.length + 8) (ts.length + 8)) (.start ts (.endOfInput stop)) c →
      ∃ current < ts.length + 1, c.StandsAt (ts ++ [.endOfInput stop]) current
  /-- When it refuses a parameter, wherever it began to read them, there is a token before
  the one at which it stands, and the error is about that token. -/
  previous : ∀ ts stop, tokenizeChars source.toList = .ok (ts, stop) →
    ∀ c, Parser.Visits (Parser.statements (ts.length + 8) (ts.length + 8)) (.start ts (.endOfInput stop)) c →
      ∀ routine bound earlier e name, Parser.parameters routine bound earlier c = .error e →
        e.problem = .duplicateParameter name routine →
          ∃ c' current t, Parser.Visits (Parser.parameters routine bound earlier) c c' ∧
            c'.StandsAt (ts ++ [.endOfInput stop]) current ∧ 0 < current ∧
            (ts ++ [.endOfInput stop])[current - 1]? = some t ∧
            e = SyntaxError.at_ (.duplicateParameter name routine) t
  /-- It makes no difference what happens where a parameter is bound already, a variable of
  a loop is not there, a constructor is not a routine, the target of an assignment is none,
  or a program returns. -/
  traps : ∀ p, parse source = .ok p → ∀ trap, session.runUnguarded trap p = session.run p
  /-- Floats are combined by arithmetic only. -/
  operators : ∀ (h : Heap) (op : BinaryOp) (l r : Value) (op' : BinaryOp),
    Operator.binary h op l r ≠ .error (.misuse (.notArithmetic op'))

/-- Whatever a session was given before, and whatever source text comes next. -/
theorem feed_undisturbed (limits : Limits) (world : World) (earlier : List String) (source : String) :
    ((start limits world).feed earlier).Undisturbed source where
  problems _ failed := arises_of_parse failed
  parts := Parser.Made.statements
  tokens ts stop _ c visits := by
    obtain ⟨current, _, stands⟩ := visits.standsAt (Cursor.start_standsAt ts (.endOfInput stop))
    have inside := stands.lt_length
    rw [List.length_append, List.length_singleton] at inside
    exact ⟨current, inside, stands⟩
  previous ts stop _ c visits routine bound earlier e name failed duplicate := by
    obtain ⟨current, _, stands⟩ := visits.standsAt (Cursor.start_standsAt ts (.endOfInput stop))
    have ends : ∀ t ∈ (ts ++ [Token.endOfInput stop]).getLast?, t.kind = .endOfInput := by
      rw [List.getLast?_concat]
      rintro _ ⟨⟩
      rfl
    exact Parser.token_before_of_duplicateParameter ends stands failed duplicate
  traps _ parsed := runUnguarded_eq (feed_flawless limits world earlier)
    (feed_reachable limits world earlier) (flawless_of_parse parsed)
  operators := Operator.binary_ne

/-- Something is caught in a program that no text is read as. -/
example :
    let p : Program := ⟨[.expression (.assign .unplaced (.null .unplaced) (.null .unplaced))]⟩
    (start {} {}).runUnguarded (fun _ => exhausted) p ≠ (start {} {}).run p := by
  intro p same
  cases congrArg Prod.fst same

end Session

end Pseudocode

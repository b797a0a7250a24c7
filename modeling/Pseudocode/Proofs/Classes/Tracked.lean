import Pseudocode.Proofs.Classes.Keeping

/-!
Evaluation refers to no class that is not there.

`Tracked C ctx n R x` says that the action `x` is put together, in the way in which
evaluation is, from steps that keep the heap tidy and from calls. Where an action goes
on with a result, this is asked only for the results that it can have: unlike what is
`Made`, a tracked action never has to do with a class out of nowhere. All evaluation of
code of the kind `C` is tracked (`Tracked.executeBlock`), and so calls keep the heap
tidy (`callRoutine_upholds`).
-/

namespace Pseudocode

namespace Action

inductive Tracked (C : Code) (ctx : Context) : Nat → {α : Type} → (Nat → α → Prop) → Action α → Prop where
  | leaf {n : Nat} {α : Type} {R : Nat → α → Prop} {x : Action α} (kept : Upholds C n R x) : Tracked C ctx n R x
  | call {n : Nat} (id : RoutineId) {args : List Value} (span : Span) (below : AllBelow n args) :
      Tracked C ctx n Value.Below (ctx.call id args span)
  | bind {n : Nat} {α β : Type} {R : Nat → α → Prop} {R' : Nat → β → Prop} {x : Action α}
      {f : α → Action β} (first : Tracked C ctx n R x)
      (second : ∀ k a, n ≤ k → R k a → Tracked C ctx k R' (f a)) : Tracked C ctx n R' (x >>= f)
  | orAt {n : Nat} {α : Type} {R : Nat → α → Prop} {x : Action α} (span : Span)
      (inner : Tracked C ctx n R x) : Tracked C ctx n R (orAt span x)
  | deeper {n : Nat} {α : Type} {R : Nat → α → Prop} {x : Action α} (inner : Tracked C ctx n R x) :
      Tracked C ctx n R (deeper x)

variable {C : Code} {ctx : Context} {α β : Type} {n : Nat} {R : Nat → α → Prop} {s : ScopeId}

namespace Tracked

/-! ### Expressions -/

theorem value {v : Value} (below : v.Below n) : Tracked C ctx n Value.Below (Pure.pure v) :=
  .leaf (.pure fun _ => below.mono)

theorem anything (a : α) : Tracked C ctx n Anything (Pure.pure a) := .leaf (.pure fun _ _ => trivial)

theorem callValue (function : Value) (receiver : Option Value) {args : List Value} (span : Span)
    (below : AllBelow n args) : Tracked C ctx n Value.Below (callValue ctx function receiver args span) := by
  cases function with
  | nativeFunction f => exact leaf (.callNative f args)
  | nativeMethod m =>
      cases receiver with
      | some receiver => exact leaf (.callMethod m receiver args)
      | none => exact leaf (.fail _)
  | function id => exact call id span below
  | procedure id => exact call id span below
  | _ => exact leaf (.fail _)

theorem instantiate (c : ClassId) {args : List Value} (span : Span) (below : AllBelow n args) :
    Tracked C ctx n Value.Below (instantiate ctx c args span) := by
  apply bind (orAt span (leaf (.buildObject c)))
  intro k o le _
  apply bind (leaf (.ofHeap fun _ _ => trivial) : Tracked C ctx k Anything _)
  intro k' found le' _
  have later := below.mono (Nat.le_trans le le')
  match found with
  | some (layer, _) =>
      apply bind (leaf .lookup)
      intro k'' constructor le'' _
      have call : ∀ id, Tracked C ctx k'' Value.Below (ctx.call id args span) :=
        fun id => call id span (later.mono le'')
      cases constructor with
      | function id => exact bind (call id) fun _ _ _ _ => value trivial
      | procedure id => exact bind (call id) fun _ _ _ _ => value trivial
      | _ => exact bind (leaf (.failAt span _) : Tracked C ctx k'' Anything _) fun _ _ _ _ => value trivial
  | none =>
      by_cases empty : args.isEmpty = true
      · simp only [empty, if_true]
        exact value trivial
      · simp only [empty]
        apply bind (leaf (.ofHeap fun _ _ => trivial) : Tracked C ctx k' Anything _)
        intro k'' name _ _
        exact bind (leaf (.failAt span _) : Tracked C ctx k'' Anything _) fun _ _ _ _ => value trivial

mutual

theorem evaluate (n : Nat) (s : ScopeId) : ∀ e : Expr, Tracked C ctx n Value.Below (Action.evaluate ctx s e)
  | .identifier span name => orAt span (leaf .lookup)
  | .integer _ i => value trivial
  | .float _ x => value trivial
  | .text _ t => value trivial
  | .null _ => value trivial
  | .assign span target given => by
      have first := evaluate n s given
      cases target with
      | identifier _ name =>
          apply orAt span (bind first _)
          intro k v _ below
          exact bind (leaf (.assign below)) fun _ _ le _ => value (below.mono le)
      | member _ object field =>
          apply orAt span (bind first _)
          intro k v _ below
          apply bind (evaluate k s object)
          intro k' o le _
          have later := below.mono le
          exact bind (leaf (.storeMember later)) fun _ _ le' _ => value (later.mono le')
      | index _ object i =>
          apply orAt span (bind first _)
          intro k v _ below
          apply bind (evaluate k s i)
          intro k' position le _
          have later := below.mono le
          have general : Tracked C ctx k' Value.Below (Action.evaluate ctx s object >>= fun container =>
              Action.storeAt container position v >>= fun _ => Pure.pure v) := by
            apply bind (evaluate k' s object)
            intro k'' container le' _
            have latest := later.mono le'
            exact bind (leaf (.storeAt latest)) fun _ _ le'' _ => value (latest.mono le'')
          -- An array that a variable stands for is changed without reading the variable first.
          cases object with
          | identifier _ name =>
              cases position with
              | integer j =>
                  exact bind (leaf (.assignIndexed later)) fun _ _ le' _ => value (later.mono le')
              | _ => exact general
          | _ => exact general
      | _ => exact orAt span (bind first fun _ _ _ _ => leaf (.fail _))
  | .binary span op left right => by
      apply orAt span (bind (evaluate n s left) _)
      intro k l _ _
      exact bind (evaluate k s right) fun _ r _ _ => leaf (.binary op l r)
  | .unary span op operand => orAt span (bind (evaluate n s operand) fun _ v _ _ => leaf (.unary op v))
  | .range span start stop => by
      apply orAt span (bind (evaluate n s start) _)
      intro k first _ _
      apply bind (evaluate k s stop)
      intro k' last _ _
      split
      · exact value trivial
      · exact leaf (.fail _)
  | .member span object field => orAt span (bind (evaluate n s object) fun _ v _ _ => leaf (.member v field))
  | .index span object i => by
      apply orAt span (bind (evaluate n s object) _)
      intro k v _ _
      exact bind (evaluate k s i) fun _ position _ _ => leaf (.index v position)
  | .call span callee args => by
      have first := evaluateAll n s args
      cases callee with
      | member calleeSpan object field =>
          apply orAt span (bind first _)
          intro k vs _ below
          apply bind (evaluate k s object)
          intro k' receiver le _
          apply bind (orAt calleeSpan (leaf (.member receiver field)))
          intro k'' function le' _
          exact callValue function (some receiver) span (below.mono (Nat.le_trans le le'))
      | identifier place name =>
          apply orAt span (bind first _)
          intro k vs _ below
          apply bind (evaluate k s (.identifier place name))
          intro k' function le _
          exact callValue function none span (below.mono le)
      | index place object i =>
          apply orAt span (bind first _)
          intro k vs _ below
          apply bind (evaluate k s (.index place object i))
          intro k' function le _
          exact callValue function none span (below.mono le)
      | _ => exact orAt span (bind first fun _ _ _ _ => leaf (.failAt _ _))
  | .create span classExpr args => by
      apply orAt span (bind (evaluateAll n s args) _)
      intro k vs _ below
      apply bind (evaluate k s classExpr)
      intro k' v le _
      cases v with
      | classRef c => exact instantiate c span (below.mono le)
      | _ => exact leaf (.fail _)

theorem evaluateAll (n : Nat) (s : ScopeId) :
    ∀ es : List Expr, Tracked C ctx n AllBelow (Action.evaluateAll ctx s es)
  | [] => leaf (.pure fun _ _ _ mem => absurd mem List.not_mem_nil)
  | e :: es => by
      apply bind (evaluate n s e)
      intro k v _ below
      apply bind (evaluateAll k s es)
      intro k' vs le others
      apply leaf
      apply Upholds.pure
      intro k'' le' w mem
      rcases List.mem_cons.mp mem with rfl | mem
      · exact below.mono (Nat.le_trans le le')
      · exact (others w mem).mono le'

end

theorem condition (n : Nat) (s : ScopeId) (problem : ValueKind → TypeProblem) (e : Expr) :
    Tracked C ctx n Anything (Action.condition ctx s problem e) := by
  apply bind (evaluate n s e)
  intro k v _ _
  cases v with
  | boolean b => exact anything b
  | _ => exact leaf (.failAt _ _)

theorem loopBound (n : Nat) (s : ScopeId) (e : Expr) : Tracked C ctx n Anything (Action.loopBound ctx s e) := by
  apply bind (evaluate n s e)
  intro k v _ _
  cases v with
  | integer i => exact anything i
  | _ => exact leaf (.failAt _ _)

theorem dimensions (n : Nat) (s : ScopeId) (es : List Expr) :
    Tracked C ctx n Anything (Action.dimensions ctx s es) := by
  induction es generalizing n with
  | nil => exact anything []
  | cons e es ih =>
      apply bind (evaluate n s e)
      intro k v _ _
      cases v with
      | integer i =>
          dsimp only
          split
          · exact leaf (.failAt _ _)
          · exact bind (ih k) fun _ sizes _ _ => anything _
      | _ => exact leaf (.failAt _ _)

/-! ### Blocks and loops -/

theorem ended (flow : Flow) (below : flow.Below n) : Tracked C ctx n Flow.Below (Pure.pure flow) :=
  leaf (.pure fun _ => below.mono)

theorem nested {body : ScopeId → Action Flow}
    (inside : ∀ k inner, n ≤ k → Tracked C ctx k Flow.Below (body inner)) :
    Tracked C ctx n Flow.Below (nested s body) := by
  apply bind (leaf .newBlock)
  intro k inner le _
  apply bind (inside k inner le)
  intro k' flow _ _
  cases flow with
  | returned => exact ended .returned trivial
  | value v => exact ended (.value .null) trivial

section Loops

variable {test : Action Bool} {body : Action Flow}

theorem whileLoop (limit : Nat) (span : Span) (tested : ∀ k, n ≤ k → Tracked C ctx k Anything test)
    (inside : ∀ k, n ≤ k → Tracked C ctx k Flow.Below body) (left : Nat) :
    Tracked C ctx n Flow.Below (whileLoop limit span test body left) := by
  induction left generalizing n with
  | zero =>
      apply bind (tested n (Nat.le_refl n))
      intro k holds _ _
      cases holds with
      | true => exact leaf (.refuseRound limit span)
      | false => exact ended (.value .null) trivial
  | succ left ih =>
      apply bind (tested n (Nat.le_refl n))
      intro k holds le _
      cases holds with
      | true =>
          apply bind (inside k le)
          intro k' flow le' _
          cases flow with
          | returned => exact ended .returned trivial
          | value v =>
              have further := Nat.le_trans le le'
              exact ih (fun l le'' => tested l (Nat.le_trans further le''))
                fun l le'' => inside l (Nat.le_trans further le'')
      | false => exact ended (.value .null) trivial

theorem untilLoop (tested : ∀ k, n ≤ k → Tracked C ctx k Anything test)
    (inside : ∀ k, n ≤ k → Tracked C ctx k Flow.Below body) (fuel : Nat) :
    Tracked C ctx n Flow.Below (untilLoop body test fuel) := by
  induction fuel generalizing n with
  | zero => exact leaf .exhausted
  | succ fuel ih =>
      apply bind (inside n (Nat.le_refl n))
      intro k flow le _
      cases flow with
      | returned => exact ended .returned trivial
      | value v =>
          apply bind (tested k le)
          intro k' holds le' _
          cases holds with
          | true => exact ended (.value .null) trivial
          | false =>
              have further := Nat.le_trans le le'
              exact ih (fun l le'' => tested l (Nat.le_trans further le''))
                fun l le'' => inside l (Nat.le_trans further le'')

theorem loopVariable (s : ScopeId) (name : String) (span : Span) :
    Tracked C ctx n Anything (loopVariable s name span) := by
  apply bind (leaf .lookup)
  intro k v _ _
  cases v with
  | integer i => exact anything i
  | _ => exact leaf (.failAt span _)

theorem countLoop (s : ScopeId) (name : String) (last : Int64) (span : Span)
    (inside : ∀ k, n ≤ k → Tracked C ctx k Flow.Below body) (fuel : Nat) :
    Tracked C ctx n Flow.Below (countLoop s name last span body fuel) := by
  induction fuel generalizing n with
  | zero => exact leaf .exhausted
  | succ fuel ih =>
      apply bind (loopVariable s name span)
      intro k current le _
      by_cases more : current.toInt ≤ last.toInt
      · simp only [more, if_true]
        apply bind (inside k le)
        intro k' flow le' _
        cases flow with
        | returned => exact ended .returned trivial
        | value v =>
            apply bind (loopVariable s name span)
            intro k'' reached le'' _
            cases Integer.add? reached 1 with
            | none => exact ended (.value .null) trivial
            | some next =>
                apply bind (leaf (.setLocal (Value.below_integer _ _)))
                intro l _ up _
                have further := Nat.le_trans le (Nat.le_trans le' (Nat.le_trans le'' up))
                exact ih fun l' up' => inside l' (Nat.le_trans further up')
      · simp only [more, if_false]
        exact ended (.value .null) trivial

end Loops

/-! ### Statements -/

mutual

theorem execute (n : Nat) (s : ScopeId) :
    ∀ stmt : Stmt, C.stmt stmt → Tracked C ctx n Flow.Below (Action.execute ctx s stmt)
  | .declare span name e, _ => by
      apply bind (evaluate n s e)
      intro k v _ below
      exact bind (orAt span (leaf (.declare below))) fun _ _ le _ => ended (.value v) (below.mono le)
  | .array span name sizes, _ => by
      apply bind (dimensions n s sizes)
      intro k sizes _ _
      apply bind (leaf (.makeArray ctx.limits.room sizes))
      intro k' v _ below
      exact bind (orAt span (leaf (.declare below))) fun _ _ le _ => ended (.value v) (below.mono le)
  | .routine decl, kept => by
      apply bind (leaf (.closure fun _ mem => C.inside kept (.routine mem)))
      intro k v _ below
      exact bind (orAt decl.span (leaf (.declare below))) fun _ _ le _ => ended (.value v) (below.mono le)
  | .classDecl decl, kept =>
      bind (leaf (.declareClass (C.declares kept))) fun _ v _ below => ended (.value v) below
  | .conditional test yes none, kept => by
      have inYes : ∀ stmt ∈ yes, C.stmt stmt := fun _ mem => C.inside kept (.yes mem)
      apply bind (evaluate n s test)
      intro k v _ _
      apply bind (leaf (.ofHeap fun _ _ => trivial) : Tracked C ctx k Anything _)
      intro k' holds _ _
      cases holds with
      | true => exact nested fun l inner _ => executeBlock l inner (Value.below_null l) yes inYes
      | false => exact ended (.value .null) trivial
  | .conditional test yes (some no), kept => by
      have inYes : ∀ stmt ∈ yes, C.stmt stmt := fun _ mem => C.inside kept (.yes mem)
      have inNo : ∀ stmt ∈ no, C.stmt stmt := fun _ mem => C.inside kept (.no mem)
      apply bind (evaluate n s test)
      intro k v _ _
      apply bind (leaf (.ofHeap fun _ _ => trivial) : Tracked C ctx k Anything _)
      intro k' holds _ _
      cases holds with
      | true => exact nested fun l inner _ => executeBlock l inner (Value.below_null l) yes inYes
      | false => exact nested fun l inner _ => executeBlock l inner (Value.below_null l) no inNo
  | .switch subject cases, kept => by
      apply bind (evaluate n s subject)
      intro k v _ _
      exact executeCases k s v cases fun _ isArm _ mem => C.inside kept (.arm isArm mem)
  | .count span name first last body, kept => by
      have inBody : ∀ stmt ∈ body, C.stmt stmt := fun _ mem => C.inside kept (.count mem)
      apply bind (loopBound n s first)
      intro k first _ _
      apply bind (loopBound k s last)
      intro k' last _ _
      apply bind (leaf .newBlock)
      intro l loop _ _
      apply bind (leaf (.declare (Value.below_integer _ _)))
      intro l' _ _ _
      apply countLoop
      intro j _
      exact nested fun i inner _ => executeBlock i inner (Value.below_null i) body inBody
  | .whileLoop span test body, kept => by
      have inBody : ∀ stmt ∈ body, C.stmt stmt := fun _ mem => C.inside kept (.whileLoop mem)
      apply whileLoop
      · exact fun k _ => condition k s _ test
      · exact fun k _ => nested fun l inner _ => executeBlock l inner (Value.below_null l) body inBody
  | .untilLoop body test, kept => by
      have inBody : ∀ stmt ∈ body, C.stmt stmt := fun _ mem => C.inside kept (.untilLoop mem)
      apply untilLoop
      · exact fun k _ => condition k s _ test
      · exact fun k _ => nested fun l inner _ => executeBlock l inner (Value.below_null l) body inBody
  | .giveBack span (some e), _ => by
      apply bind (evaluate n s e)
      intro k v _ below
      exact bind (orAt span (leaf (.signalReturn below))) fun _ _ _ _ => ended .returned trivial
  | .giveBack span none, _ => by
      apply bind (value (Value.below_null _))
      intro k v _ below
      exact bind (orAt span (leaf (.signalReturn below))) fun _ _ _ _ => ended .returned trivial
  | .expression e, _ => bind (evaluate n s e) fun _ v _ below => ended (.value v) below

theorem executeBlock (n : Nat) (s : ScopeId) {last : Value} (below : last.Below n) :
    ∀ block : List Stmt, (∀ stmt ∈ block, C.stmt stmt) →
      Tracked C ctx n Flow.Below (Action.executeBlock ctx s last block)
  | [], _ => ended (.value last) below
  | stmt :: rest, kept => by
      rw [List.forall_mem_cons] at kept
      apply bind (execute n s stmt kept.1)
      intro k flow le ran
      apply bind (leaf .isTerminated)
      intro k' left le' _
      cases left with
      | true => exact ended .returned trivial
      | false =>
          cases flow with
          | value v => exact executeBlock k' s (Value.Below.mono ran le') rest kept.2
          | returned => exact executeBlock k' s (below.mono (Nat.le_trans le le')) rest kept.2

theorem executeCases (n : Nat) (s : ScopeId) (subject : Value) :
    ∀ cases : List Case, (∀ arm ∈ cases, ∀ stmt ∈ arm.body, C.stmt stmt) →
      Tracked C ctx n Flow.Below (Action.executeCases ctx s subject cases)
  | [], _ => ended (.value .null) trivial
  | ⟨none, body⟩ :: rest, kept => by
      rw [List.forall_mem_cons] at kept
      apply bind (anything true)
      intro k matched _ _
      cases matched with
      | true => exact nested fun l inner _ => executeBlock l inner (Value.below_null l) body kept.1
      | false => exact executeCases k s subject rest kept.2
  | ⟨some test, body⟩ :: rest, kept => by
      rw [List.forall_mem_cons] at kept
      apply bind (evaluate n s test)
      intro k v _ _
      apply bind (leaf (.ofHeap fun _ _ => trivial) : Tracked C ctx k Anything _)
      intro k' matched _ _
      cases matched with
      | true => exact nested fun l inner _ => executeBlock l inner (Value.below_null l) body kept.1
      | false => exact executeCases k' s subject rest kept.2

end

/-! ### Calls -/

theorem bindParameters (s : ScopeId) (names : List String) {args : List Value} (below : AllBelow n args) :
    Tracked C ctx n Anything (bindParameters s names args) := by
  induction names generalizing n args with
  | nil => exact anything ()
  | cons name names ih =>
      cases args with
      | nil => exact anything ()
      | cons v vs =>
          obtain ⟨first, others⟩ := List.forall_mem_cons.mp below
          exact bind (leaf (.declare first)) fun _ _ le _ => ih (AllBelow.mono others le)

theorem callBody {decl : RoutineDecl} {args : List Value} {run : RoutineDecl → ScopeId → Action Flow}
    (below : AllBelow n args) (inside : ∀ k, n ≤ k → Tracked C ctx k Flow.Below (run decl s)) :
    Tracked C ctx n Value.Below (callBody decl args run s) := by
  apply bind (bindParameters s decl.params below)
  intro k _ le _
  apply bind (deeper (inside k le))
  intro k' _ _ _
  apply bind (leaf .takeReturned)
  intro l v _ parked
  cases decl.kind with
  | function => exact value parked
  | procedure => exact value trivial

/-- Where calls keep heaps tidy, tracked actions do. -/
theorem upholds_of_calls {x : Action α} (tracked : Tracked C ctx n R x)
    (calls : ∀ (k : Nat) id args span, AllBelow k args → Upholds C k Value.Below (ctx.call id args span)) :
    Upholds C n R x := by
  induction tracked with
  | leaf kept => exact kept
  | call id span below => exact calls _ id _ span below
  | bind _ _ first second => exact .bind first second
  | orAt span _ ih => exact .orAt span ih
  | deeper _ ih => exact .deeper ih

end Tracked

variable {limits : Limits} {fuel : Nat}

/-- A call keeps the heap tidy where the body does that it runs. -/
theorem Upholds.invoke {run : RoutineDecl → ScopeId → Action Flow} {id : RoutineId} {args : List Value}
    {span : Span} (below : AllBelow n args)
    (inside : ∀ decl s k, C.routine decl → AllBelow k args →
      Upholds C k Value.Below (Action.callBody decl args run s)) :
    Upholds C n Value.Below (invoke limits id args span run) := by
  intro m tidy enough
  rw [invoke_eq]
  split
  · exact ⟨tidy, Nat.le_refl _⟩
  · rename_i decl scope found
    split
    · exact ⟨tidy, Nat.le_refl _⟩
    · split
      · exact ⟨tidy, Nat.le_refl _⟩
      · have kept := tidy.routines _ (Array.mem_of_getElem? found)
        have entered : (m.heap.newCall scope).2.Tidy C := tidy.newScope (some scope) true
        exact inside decl _ _ kept (below.mono enough) _ entered (Nat.le_refl _)

theorem callRoutine_upholds (left : Nat) (id : RoutineId) {args : List Value} (span : Span)
    (below : AllBelow n args) : Upholds C n Value.Below (callRoutine limits fuel left id args span) := by
  induction left generalizing n id args span with
  | zero =>
      apply Upholds.invoke below
      intro decl s k _ below'
      -- No call is made inside, whatever the context.
      let ctx : Context := ⟨limits, fuel, fun _ _ _ => exhausted⟩
      have tracked : Tracked C ctx k Value.Below (callBody decl args (fun _ _ => exhausted) s) :=
        .callBody below' fun _ _ => .leaf .exhausted
      exact tracked.upholds_of_calls fun _ _ _ _ _ => .exhausted
  | succ left ih =>
      apply Upholds.invoke below
      intro decl s k kept below'
      have tracked : Tracked C (contextAt limits fuel left) k Value.Below
          (callBody decl args (bodyAt limits fuel left) s) :=
        .callBody below' fun l _ => .executeBlock l s (Value.below_null l) decl.body kept
      exact tracked.upholds_of_calls fun _ id args span below'' => ih id span below''

/-- Tracked actions keep heaps tidy. -/
theorem Tracked.upholds {left : Nat} {x : Action α} (tracked : Tracked C (contextAt limits fuel left) n R x) :
    Upholds C n R x :=
  tracked.upholds_of_calls fun _ id _ span below => callRoutine_upholds left id span below

end Action

end Pseudocode

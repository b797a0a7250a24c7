import Pseudocode.Proofs.Classes.References

/-!
Steps of evaluation that refer to no class that is not there.

`Upholds C n R x`: begun on a tidy heap with at least `n` classes, the action `x` leaves
a tidy heap and takes no class away, and what its result refers to is as `R` says.
Operators and built-in functions give values that are no classes; what is read from the
heap refers to the classes of the heap.
-/

namespace Pseudocode

/-- However an action ended that began with `n` classes, the heap is tidy and no class
is gone; a result is as `R` says for the number of classes that there are now. -/
def Outcome.Ends {α : Type} (C : Code) (n : Nat) (R : Nat → α → Prop) : Outcome α → Prop
  | .done a m => m.heap.Tidy C ∧ n ≤ m.heap.classes.size ∧ R m.heap.classes.size a
  | .failed _ m | .crashed _ m => m.heap.Tidy C ∧ n ≤ m.heap.classes.size
  | .exhausted => True

theorem Outcome.Ends.mono {α : Type} {C : Code} {n k : Nat} {R : Nat → α → Prop} {o : Outcome α}
    (ended : o.Ends C k R) (le : n ≤ k) : o.Ends C n R := by
  cases o with
  | done a m => exact ⟨ended.1, Nat.le_trans le ended.2.1, ended.2.2⟩
  | failed _ m | crashed _ m => exact ⟨ended.1, Nat.le_trans le ended.2⟩
  | exhausted => trivial

theorem Outcome.Ends.tidy {α : Type} {C : Code} {n : Nat} {R : Nat → α → Prop} {o : Outcome α}
    (ended : o.Ends C n R) : o.All fun m => m.heap.Tidy C := by
  cases o with
  | done _ m | failed _ m | crashed _ m => exact ended.1
  | exhausted => trivial

/-- Nothing is said about a result. -/
def Anything {α : Type} (_ : Nat) (_ : α) : Prop := True

def AllBelow (n : Nat) (vs : List Value) : Prop := ∀ v ∈ vs, v.Below n

theorem AllBelow.mono {n k : Nat} {vs : List Value} (below : AllBelow n vs) (le : n ≤ k) : AllBelow k vs :=
  fun v mem => (below v mem).mono le

def Flow.Below (n : Nat) : Flow → Prop
  | .value v => v.Below n
  | .returned => True

theorem Flow.Below.mono {n k : Nat} {flow : Flow} (below : flow.Below n) (le : n ≤ k) : flow.Below k := by
  cases flow with
  | value v => exact Value.Below.mono below le
  | returned => trivial

/-! ### Verdicts -/

/-- The value that is given, if one is, is no class. -/
def GivesPlain (verdict : Except Cause Value) : Prop := ∀ v, verdict = .ok v → v.Below 0

namespace GivesPlain

theorem ok {v : Value} (below : v.Below 0) : GivesPlain (.ok v) := by
  rintro _ ⟨⟩
  exact below

theorem error (cause : Cause) : GivesPlain (.error cause) := nofun

theorem map {α : Type} {verdict : Except Cause α} {f : α → Value} (each : ∀ a, (f a).Below 0) :
    GivesPlain (verdict.map f) := by
  cases verdict with
  | ok a => exact ok (each a)
  | error cause => exact error cause

/-! ### Operators -/

theorem floatArithmetic (pow : Float → Float → Float) (op : BinaryOp) (a b : Float) :
    GivesPlain (Operator.floatArithmetic pow op a b) := by
  unfold Operator.floatArithmetic
  split
  · exact ok trivial
  · exact ok trivial
  · exact ok trivial
  · split
    · exact error _
    · exact ok trivial
  · split
    · exact error _
    · exact ok trivial
  · split
    · exact error _
    · exact ok trivial
  · exact ok trivial
  · exact error _

theorem exact (op : BinaryOp) (result : Option Int64) : GivesPlain (Operator.exact op result) := by
  cases result with
  | none => exact error _
  | some n => exact ok trivial

theorem reciprocalPower (pow : Float → Float → Float) (a b : Int64) :
    (Operator.reciprocalPower pow a b).Below 0 := by
  unfold Operator.reciprocalPower
  dsimp only
  split <;> trivial

theorem integerArithmetic (pow : Float → Float → Float) (op : BinaryOp) (a b : Int64) :
    GivesPlain (Operator.integerArithmetic pow op a b) := by
  unfold Operator.integerArithmetic
  split
  · exact exact _ _
  · exact exact _ _
  · exact exact _ _
  · exact floatArithmetic _ _ _ _
  · split
    · exact error _
    · exact exact _ _
  · split
    · exact error _
    · exact exact _ _
  · split
    · exact ok (reciprocalPower _ _ _)
    · exact exact _ _
  · exact exact _ _

theorem arithmetic (pow : Float → Float → Float) (op : BinaryOp) (l r : Value) :
    GivesPlain (Operator.arithmetic pow op l r) := by
  unfold Operator.arithmetic
  split
  · exact integerArithmetic _ _ _ _
  · split
    · exact ok trivial
    · exact error _
  · split
    · exact floatArithmetic _ _ _ _
    · exact error _

theorem logical (op : BinaryOp) (l r : Value) : GivesPlain (Operator.logical op l r) := by
  unfold Operator.logical
  split
  · exact ok trivial
  · exact error _

theorem binary (h : Heap) (op : BinaryOp) (l r : Value) : GivesPlain (Operator.binary h op l r) := by
  have comparison : ∀ op', GivesPlain ((Operator.order op' l r).map fun o => .boolean (Operator.holds op' o)) :=
    fun _ => map fun _ => trivial
  cases op with
  | eq => exact ok trivial
  | notEq => exact ok trivial
  | greater => exact comparison _
  | less => exact comparison _
  | greaterEq => exact comparison _
  | lessEq => exact comparison _
  | and => exact logical _ l r
  | or => exact logical _ l r
  | _ => exact arithmetic _ _ l r

theorem unary (h : Heap) (op : UnaryOp) (v : Value) : GivesPlain (Operator.unary h op v) := by
  unfold Operator.unary
  split
  · exact ok trivial
  · exact ok trivial
  · exact ok trivial
  · split
    · exact ok trivial
    · exact error _
  · exact ok trivial
  · exact error _

/-! ### Casts, texts and members -/

theorem floorToInteger (x : Float) : GivesPlain (Native.floorToInteger x) := by
  unfold Native.floorToInteger
  split
  · split
    · exact ok trivial
    · exact error _
  · exact error _

theorem toInteger (v : Value) : GivesPlain (Native.toInteger v) := by
  unfold Native.toInteger
  split
  · exact ok trivial
  · exact floorToInteger _
  · exact ok trivial
  · split
    · exact ok trivial
    · split
      · exact floorToInteger _
      · exact error _
  · exact error _

theorem toFloat (v : Value) : GivesPlain (Native.toFloat v) := by
  unfold Native.toFloat
  split
  · exact ok trivial
  · exact ok trivial
  · exact ok trivial
  · split
    · exact ok trivial
    · exact error _
  · exact error _

theorem toText (v : Value) : GivesPlain (Native.toText v) := by
  unfold Native.toText
  split
  · exact ok trivial
  · exact ok trivial
  · exact ok trivial
  · exact ok trivial
  · exact ok trivial
  · exact error _

theorem substring (receiver start count : Value) : GivesPlain (Native.substring receiver start count) := by
  unfold Native.substring
  split
  · cases Native.textArgument "substring" receiver with
    | error cause => exact error cause
    | ok s =>
        simp only [bind, Except.bind]
        split
        · exact error _
        · split
          · exact error _
          · exact ok trivial
  · exact error _

theorem member (v : Value) (name : String) : GivesPlain (Native.member v name) := by
  unfold Native.member
  split
  · exact map fun _ => trivial
  · rename_i method _ found
    have plain : ∀ b ∈ Native.membersOf v.kind, b.2.Below 0 := by
      cases v.kind <;> simp [Native.membersOf, Value.Below]
    exact ok (plain _ (Bindings.mem_of_lookup found))
  · exact error _

end GivesPlain

namespace Action

variable {C : Code} {α β : Type} {n k : Nat} {R : Nat → α → Prop} {R' : Nat → β → Prop}

def Upholds (C : Code) (n : Nat) (R : Nat → α → Prop) (x : Action α) : Prop :=
  ∀ m, m.heap.Tidy C → n ≤ m.heap.classes.size → (x m).Ends C m.heap.classes.size R

namespace Upholds

/-! ### Single steps -/

theorem pure {a : α} (result : ∀ k, n ≤ k → R k a) : Upholds C n R (Pure.pure a) :=
  fun _ tidy enough => ⟨tidy, Nat.le_refl _, result _ enough⟩

/-- A value that is no class can always be given. -/
theorem plain {v : Value} (below : v.Below 0) : Upholds C n Value.Below (Pure.pure v) :=
  pure fun _ _ => Value.below_zero _ below

theorem fail (cause : Cause) : Upholds C n R (fail cause) := fun _ tidy _ => ⟨tidy, Nat.le_refl _⟩

theorem failAt (span : Span) (cause : Cause) : Upholds C n R (failAt span cause) :=
  fun _ tidy _ => ⟨tidy, Nat.le_refl _⟩

theorem crash (c : Crash) : Upholds C n R (crash c) := fun _ tidy _ => ⟨tidy, Nat.le_refl _⟩

theorem exhausted : Upholds C n R (exhausted : Action α) := fun _ _ _ => trivial

theorem ofExcept {verdict : Except Cause α} (result : ∀ a, verdict = .ok a → ∀ k, R k a) :
    Upholds C n R (ofExcept verdict) := by
  cases verdict with
  | ok a => exact pure fun k _ => result a rfl k
  | error cause => exact fail cause

theorem ofHeap {f : Heap → α} (result : ∀ h : Heap, h.Tidy C → R h.classes.size (f h)) :
    Upholds C n R (ofHeap f) :=
  fun m tidy _ => ⟨tidy, Nat.le_refl _, result m.heap tidy⟩

theorem tryOfHeap {f : Heap → Except Cause α}
    (result : ∀ (h : Heap) (a : α), h.Tidy C → f h = .ok a → R h.classes.size a) :
    Upholds C n R (tryOfHeap f) := by
  intro m tidy _
  unfold Action.tryOfHeap
  cases found : f m.heap with
  | ok a => exact ⟨tidy, Nat.le_refl _, result m.heap a tidy found⟩
  | error cause => exact ⟨tidy, Nat.le_refl _⟩

theorem changeHeap {f : Heap → α × Heap}
    (kept : ∀ h : Heap, h.Tidy C → n ≤ h.classes.size → (f h).2.Tidy C ∧
      h.classes.size ≤ (f h).2.classes.size ∧ R (f h).2.classes.size (f h).1) :
    Upholds C n R (changeHeap f) :=
  fun m tidy enough => kept m.heap tidy enough

theorem tryChangeHeap {f : Heap → Except Cause α × Heap} (grows : ∀ h : Heap, h.classes.size ≤ (f h).2.classes.size)
    (kept : ∀ h : Heap, h.Tidy C → n ≤ h.classes.size → (f h).2.Tidy C) :
    Upholds C n Anything (tryChangeHeap f) := by
  intro m tidy enough
  have after := kept m.heap tidy enough
  have grown := grows m.heap
  rw [tryChangeHeap_apply]
  cases (f m.heap).1 with
  | ok a => exact ⟨after, grown, trivial⟩
  | error cause => exact ⟨after, grown⟩

theorem changeWorld (f : World → α × World) : Upholds C n Anything (changeWorld f) :=
  fun _ tidy _ => ⟨tidy, Nat.le_refl _, trivial⟩

theorem draw (range : Draw) (answer : Generator → List Draw → Option α) :
    Upholds C n Anything (draw range answer) := by
  intro m tidy _
  rw [draw_apply]
  cases answer m.world.generator m.world.drawn with
  | some a => exact ⟨tidy, Nat.le_refl _, trivial⟩
  | none => exact ⟨tidy, Nat.le_refl _⟩

theorem bind {x : Action α} {f : α → Action β} (first : Upholds C n R x)
    (second : ∀ k a, n ≤ k → R k a → Upholds C k R' (f a)) : Upholds C n R' (x >>= f) := by
  intro m tidy enough
  have ended := first m tidy enough
  rw [bind_apply]
  cases run : x m with
  | done a m₁ =>
      rw [run] at ended
      obtain ⟨tidy₁, grown, result⟩ := ended
      have after := second _ a (Nat.le_trans enough grown) result m₁ tidy₁ (Nat.le_refl _)
      exact after.mono grown
  | failed _ m₁ | crashed _ m₁ =>
      rw [run] at ended
      exact ended
  | exhausted => trivial

theorem orAt {x : Action α} (span : Span) (kept : Upholds C n R x) : Upholds C n R (orAt span x) := by
  intro m tidy enough
  have ended := kept m tidy enough
  unfold Action.orAt
  cases run : x m with
  | done _ m' | failed _ m' | crashed _ m' =>
      rw [run] at ended
      exact ended
  | exhausted => trivial

theorem deeper {x : Action α} (kept : Upholds C n R x) : Upholds C n R (deeper x) := by
  intro m tidy enough
  have ended := kept { m with depth := m.depth + 1 } tidy enough
  rw [deeper_apply]
  cases run : x { m with depth := m.depth + 1 } with
  | done _ m' | failed _ m' | crashed _ m' =>
      rw [run] at ended
      exact ended
  | exhausted => trivial

/-! ### Scopes and cells -/

section

variable {s : ScopeId} {name : String} {v : Value}

theorem lookup : Upholds C n Value.Below (lookup s name) :=
  tryOfHeap fun _ _ tidy found => tidy.below (Heap.contains_of_lookup found)

theorem declare (below : v.Below n) : Upholds C n Anything (declare s name v) := by
  apply tryChangeHeap
  · exact fun h => (h.declare_run (P := fun _ => True) s name v).extends.classes_le
  · exact fun h tidy enough => tidy.declare s name (below.mono enough)

theorem setLocal (below : v.Below n) : Upholds C n Anything (setLocal s name v) :=
  changeHeap fun _ tidy enough => ⟨tidy.setLocal s name (below.mono enough), Nat.le_refl _, trivial⟩

theorem assign (below : v.Below n) : Upholds C n Anything (assign s name v) :=
  changeHeap fun _ tidy enough => ⟨tidy.setLocal _ name (below.mono enough), Nat.le_refl _, trivial⟩

theorem newBlock : Upholds C n Anything (newBlock s) :=
  changeHeap fun _ tidy _ => ⟨tidy.newScope (some s) false, Nat.le_refl _, trivial⟩

theorem isTerminated : Upholds C n Anything (isTerminated s) := ofHeap fun _ _ => trivial

theorem signalReturn (below : v.Below n) : Upholds C n Anything (signalReturn s v) := by
  apply tryChangeHeap
  · exact fun h => (h.signalReturn_sameCode s v).extends.classes_le
  · exact fun h tidy enough => tidy.signalReturn s (below.mono enough)

/-- The value that a call gives back was parked. -/
theorem takeReturned : Upholds C n (fun k v => (v.getD .null).Below k) (takeReturned s) := by
  apply changeHeap
  intro h tidy _
  refine ⟨tidy.takeReturned s, Nat.le_refl _, ?_⟩
  change (((h.scope? s).bind Scope.returned).getD .null).Below h.classes.size
  cases parked : (h.scope? s).bind Scope.returned with
  | none => trivial
  | some v =>
      obtain ⟨scope, found, value⟩ := Option.bind_eq_some_iff.mp parked
      exact tidy.below (.parked found value)

theorem storeElement {a : ArrayId} {i : Int64} (below : v.Below n) : Upholds C n Anything (storeElement a i v) := by
  apply tryChangeHeap
  · exact fun h => ((Heap.storeElement_blind a i v).keeps h).extends.classes_le
  · exact fun h tidy enough => tidy.storeElement a i (below.mono enough)

theorem storeAt {container i : Value} (below : v.Below n) : Upholds C n Anything (storeAt container i v) := by
  unfold Action.storeAt
  split
  · exact storeElement below
  · exact fail _
  · exact fail _
  · exact fail _

theorem assignIndexed {i : Int64} (below : v.Below n) : Upholds C n Anything (assignIndexed s name i v) := by
  apply tryChangeHeap
  · intro h
    unfold Heap.assignIndexed
    split
    · rename_i a _
      exact ((Heap.storeElement_blind a i v).keeps h).extends.classes_le
    · exact Nat.le_refl _
    · exact Nat.le_refl _
  · intro h tidy enough
    unfold Heap.assignIndexed
    split
    · exact tidy.storeElement _ i (below.mono enough)
    · exact tidy
    · exact tidy

theorem storeMember {object : Value} {field : String} (below : v.Below n) :
    Upholds C n Anything (storeMember object field v) := by
  cases object with
  | object o =>
      unfold Action.storeMember
      apply tryChangeHeap
      · intro h
        have run : Heap.Run (fun _ => True) none h (h.setMember o field v).2 := Heap.setMember_run o field v h
        exact run.extends.classes_le
      · exact fun h tidy enough => tidy.setMember o field (below.mono enough)
  | _ => exact fail _

theorem makeArray (room : Nat) (sizes : List Nat) :
    Upholds C n Value.Below (Action.makeArray room sizes) := by
  unfold Action.makeArray
  split
  · exact crash _
  · apply changeHeap
    intro h tidy _
    have same := ((Heap.makeArray_blind sizes).keeps h).classes
    exact ⟨tidy.makeArray sizes, Nat.le_of_eq (congrArg Array.size same).symm,
      Value.below_zero _ (Heap.makeArray_below sizes h).1⟩

theorem refuseRound (limit : Nat) (span : Span) : Upholds C n R (refuseRound limit span) := by
  unfold Action.refuseRound
  split
  · exact failAt span _
  · exact crash _

theorem closure {decl : RoutineDecl} (permitted : C.routine decl) :
    Upholds C n Value.Below (Action.changeHeap fun h => h.closure decl s) := by
  apply changeHeap
  intro h tidy _
  refine ⟨tidy.newRoutine permitted, Nat.le_refl _, ?_⟩
  unfold Heap.closure
  cases decl.kind <;> trivial

theorem declareClass {decl : ClassDecl} (permitted : C.classDecl decl) :
    Upholds C n Value.Below (declareClass decl s) := by
  intro m tidy enough
  cases found : m.heap.parentClass decl s with
  | error f =>
      simp only [Action.declareClass, bind_apply, Action.ofHeap, found]
      exact ⟨tidy, Nat.le_refl _⟩
  | ok parent =>
      -- The class is made from what was found in the same heap.
      have made : (m.heap.newClass ⟨decl, s, parent⟩).2.Tidy C := tidy.newClass permitted found
      have size : (m.heap.newClass ⟨decl, s, parent⟩).2.classes.size = m.heap.classes.size + 1 :=
        Array.size_push ..
      have here : (m.heap.newClass ⟨decl, s, parent⟩).1.Below (m.heap.classes.size + 1) :=
        Nat.lt_succ_self _
      have named : Upholds C (m.heap.classes.size + 1) Value.Below (do
          Action.orAt decl.span (Action.declare s decl.name (m.heap.newClass ⟨decl, s, parent⟩).1)
          return (m.heap.newClass ⟨decl, s, parent⟩).1) :=
        bind (orAt decl.span (declare here)) fun k _ le _ => pure fun _ le' => here.mono (Nat.le_trans le le')
      have ended := named { m with heap := (m.heap.newClass ⟨decl, s, parent⟩).2 } made (Nat.le_of_eq size.symm)
      simp only [Action.declareClass, bind_apply, Action.ofHeap, found]
      apply ended.mono
      rw [size]
      exact Nat.le_succ _

theorem buildObject (c : ClassId) : Upholds C n Anything (Action.tryChangeHeap fun h => h.buildObject c) := by
  apply tryChangeHeap
  · intro h
    have run : Heap.Run (fun _ => True) none h (h.buildObject c).2 :=
      (Heap.buildFrom_run (c + 1) c h.carries_true).1
    exact run.extends.classes_le
  · exact fun h tidy _ => tidy.buildFrom (c + 1) c

end

/-! ### Operators, elements and members -/

section

theorem ofPlain {verdict : Except Cause Value} (plain : GivesPlain verdict) :
    Upholds C n Value.Below (Action.ofExcept verdict) :=
  ofExcept fun v given k => Value.below_zero k (plain v given)

theorem binary (op : BinaryOp) (l r : Value) :
    Upholds C n Value.Below (Action.tryOfHeap fun h => Operator.binary h op l r) :=
  tryOfHeap fun h v _ given => Value.below_zero _ (GivesPlain.binary h op l r v given)

theorem unary (op : UnaryOp) (v : Value) :
    Upholds C n Value.Below (Action.tryOfHeap fun h => Operator.unary h op v) :=
  tryOfHeap fun h w _ given => Value.below_zero _ (GivesPlain.unary h op v w given)

/-- Elements are held by the heap. -/
theorem elementAt (a : ArrayId) (i : Int64) :
    Upholds C n Value.Below (Action.tryOfHeap fun h => Slice.elementAt (h.items a) i) := by
  apply tryOfHeap
  intro h v tidy given
  unfold Slice.elementAt at given
  split at given
  · rename_i found
    cases given
    obtain ⟨j, -, element⟩ := Option.bind_eq_some_iff.mp found
    exact tidy.below (.item (Array.mem_of_getElem? element))
  · cases given

/-- So are the elements of a slice. -/
theorem slice (a : ArrayId) (start stop : Int64) :
    Upholds C n (fun k xs => ∀ v ∈ xs, v.Below k)
      (Action.tryOfHeap fun h => Slice.ofArray (h.items a) start stop) := by
  apply tryOfHeap
  intro h xs tidy given v mem
  unfold Slice.ofArray at given
  cases bounds : Slice.bounds start stop (h.items a).size with
  | error cause =>
      rw [bounds] at given
      cases given
  | ok pair =>
      rw [bounds] at given
      cases given
      obtain ⟨i, inside, rfl⟩ := Array.mem_iff_getElem.mp mem
      rw [Array.getElem_extract]
      exact tidy.below (.item (Array.getElem_mem _))

theorem newArray {xs : Array Value} (below : ∀ v ∈ xs, v.Below n) : Upholds C n Value.Below (Action.newArray xs) :=
  changeHeap fun _ tidy enough =>
    ⟨tidy.newArray fun v mem => (below v mem).mono enough, Nat.le_refl _, trivial⟩

theorem index (object i : Value) : Upholds C n Value.Below (Action.index object i) := by
  unfold Action.index
  split
  · exact elementAt _ _
  · exact ofPlain (GivesPlain.map fun _ => trivial)
  · exact bind (slice _ _ _) fun _ _ _ below => newArray below
  · exact ofPlain (GivesPlain.map fun _ => trivial)
  · exact fail _
  · exact fail _
  · exact fail _

theorem member (object : Value) (name : String) : Upholds C n Value.Below (Action.member object name) := by
  unfold Action.member
  split
  · apply tryOfHeap
    intro h v tidy given
    unfold Heap.getMember at given
    split at given
    · cases given
    · split at given
      · cases given
      · exact tidy.below (Heap.contains_of_lookup given)
  · apply tryOfHeap
    rintro _ _ _ ⟨⟩
  · exact ofPlain (GivesPlain.member _ name)

/-! ### Built-in functions -/

theorem printWith (text : Heap → Value → String) (args : List Value) :
    Upholds C n Value.Below (Action.printWith text args) := by
  apply bind (ofHeap fun _ _ => trivial : Upholds C n Anything _)
  intro _ line _ _
  apply bind (changeWorld _)
  intro _ _ _ _
  exact plain trivial

theorem requestInput (prompt : String) : Upholds C n Value.Below (Action.requestInput prompt) := by
  apply bind (changeWorld _)
  intro _ answer _ _
  cases answer with
  | ok answer => exact plain trivial
  | error reason => exact fail _

theorem input (args : List Value) : Upholds C n Value.Below (Action.input args) := by
  unfold Action.input
  split
  · exact requestInput _
  · exact requestInput _
  · exact fail _
  · exact fail _

theorem len (v : Value) : Upholds C n Value.Below (Action.len v) := by
  unfold Action.len
  split
  · exact ofHeap fun _ _ => trivial
  · exact fail _

theorem random (first last : Value) : Upholds C n Value.Below (Action.random first last) := by
  unfold Action.random
  split
  · unfold randomInteger
    split
    · exact fail _
    · exact bind (draw _ _) fun _ _ _ _ => plain trivial
  · unfold randomFloat
    split
    · exact fail _
    · split
      · exact plain trivial
      · exact bind (draw _ _) fun _ _ _ _ => plain trivial
  · exact fail _

theorem fileContents (path : String) : Upholds C n Anything (Action.fileContents path) := by
  apply bind (changeWorld _)
  intro _ contents _ _
  cases contents with
  | none => exact fail _
  | some contents => exact pure fun _ _ => trivial

theorem saveFile (path contents : String) : Upholds C n Anything (Action.saveFile path contents) := by
  apply bind (changeWorld _)
  intro _ verdict _ _
  cases verdict with
  | ok _ => exact pure fun _ _ => trivial
  | error reason => exact fail _

/-- A change of the open files. -/
theorem changeFiles {f : Heap → α × Heap}
    (files : ∀ h, ∃ readers writers, (f h).2 = { h with readers := readers, writers := writers })
    (result : ∀ h k, R k (f h).1) : Upholds C n R (Action.changeHeap f) := by
  apply changeHeap
  intro h tidy _
  obtain ⟨readers, writers, same⟩ := files h
  rw [same]
  have after : Heap.Tidy C { h with readers := readers, writers := writers } :=
    tidy.keep rfl rfl fun _ holds => holds.of_eq rfl rfl
  exact ⟨after, Nat.le_refl _, result h _⟩

theorem openReader (path : String) : Upholds C n Value.Below (Action.openReader path) := by
  apply bind (fileContents path)
  intro _ contents _ _
  exact changeFiles (fun _ => ⟨_, _, rfl⟩) fun _ _ => trivial

theorem openWriter (path : String) : Upholds C n Value.Below (Action.openWriter path) := by
  apply bind (fileContents path)
  intro _ contents _ _
  exact changeFiles (fun _ => ⟨_, _, rfl⟩) fun _ _ => trivial

theorem unaryFunction {f : NativeFunction} {run : Value → Action Value} (args : List Value)
    (kept : ∀ v, Upholds C n Value.Below (run v)) : Upholds C n Value.Below (Action.unaryFunction f args run) := by
  unfold Action.unaryFunction
  split
  · exact kept _
  · exact fail _

theorem textFunction {f : NativeFunction} {run : String → Action Value} (args : List Value)
    (kept : ∀ k s, n ≤ k → Upholds C k Value.Below (run s)) :
    Upholds C n Value.Below (Action.textFunction f args run) := by
  apply unaryFunction
  intro v
  apply bind (ofExcept fun _ _ _ => trivial : Upholds C n Anything _)
  intro k s le _
  exact kept k s le

theorem callNative (f : NativeFunction) (args : List Value) : Upholds C n Value.Below (Action.callNative f args) := by
  cases f with
  | print => exact printWith _ args
  | printRaw => exact printWith _ args
  | input => exact input args
  | int => exact unaryFunction args fun v => ofPlain (GivesPlain.toInteger v)
  | float => exact unaryFunction args fun v => ofPlain (GivesPlain.toFloat v)
  | str => exact unaryFunction args fun v => ofPlain (GivesPlain.toText v)
  | len => exact unaryFunction args len
  | upper => exact textFunction args fun _ _ _ => plain trivial
  | lower => exact textFunction args fun _ _ _ => plain trivial
  | openRead => exact textFunction args fun _ path _ => openReader path
  | openWrite => exact textFunction args fun _ path _ => openWriter path
  | newFile =>
      exact textFunction args fun _ path _ => bind (saveFile path "") fun _ _ _ _ => plain trivial
  | random =>
      simp only [Action.callNative]
      split
      · exact random _ _
      · exact fail _

/-! ### Built-in methods -/

theorem readerOf (receiver : Value) : Upholds C n Anything (Action.readerOf receiver) := by
  cases receiver with
  | reader id =>
      apply bind (ofHeap fun _ _ => trivial : Upholds C n Anything _)
      intro _ found _ _
      cases found with
      | none => exact fail _
      | some r => exact pure fun _ _ => trivial
  | _ => exact fail _

theorem writerOf (receiver : Value) : Upholds C n Anything (Action.writerOf receiver) := by
  cases receiver with
  | writer id =>
      apply bind (ofHeap fun _ _ => trivial : Upholds C n Anything _)
      intro _ found _ _
      cases found with
      | none => exact fail _
      | some r => exact pure fun _ _ => trivial
  | _ => exact fail _

theorem setReader (id : ReaderId) (r : FileReader) : Upholds C n Anything (Action.setReader id r) :=
  changeFiles (fun _ => ⟨_, _, rfl⟩) fun _ _ => trivial

theorem setWriter (id : WriterId) (w : FileWriter) : Upholds C n Anything (Action.setWriter id w) :=
  changeFiles (fun _ => ⟨_, _, rfl⟩) fun _ _ => trivial

theorem readLine (receiver : Value) : Upholds C n Value.Below (Action.readLine receiver) := by
  apply bind (readerOf receiver)
  rintro _ ⟨id, r⟩ _ _
  dsimp only
  split
  · exact fail _
  · split
    · exact fail _
    · exact bind (setReader id _) fun _ _ _ _ => plain trivial

theorem endOfFile (receiver : Value) : Upholds C n Value.Below (Action.endOfFile receiver) := by
  apply bind (readerOf receiver)
  rintro _ ⟨id, r⟩ _ _
  dsimp only
  split
  · exact fail _
  · exact plain trivial

theorem closeReader (receiver : Value) : Upholds C n Value.Below (Action.closeReader receiver) := by
  apply bind (readerOf receiver)
  rintro _ ⟨id, r⟩ _ _
  dsimp only
  split
  · exact fail _
  · exact bind (setReader id _) fun _ _ _ _ => plain trivial

theorem writeLine (receiver line : Value) : Upholds C n Value.Below (Action.writeLine receiver line) := by
  apply bind (writerOf receiver)
  rintro _ ⟨id, w⟩ _ _
  dsimp only
  split
  · exact fail _
  · split
    · exact bind (setWriter id _) fun _ _ _ _ => plain trivial
    · exact fail _

theorem closeWriter (receiver : Value) : Upholds C n Value.Below (Action.closeWriter receiver) := by
  apply bind (writerOf receiver)
  rintro _ ⟨id, w⟩ _ _
  dsimp only
  split
  · exact fail _
  · apply bind (saveFile _ _)
    intro _ _ _ _
    exact bind (setWriter id _) fun _ _ _ _ => plain trivial

theorem plainMethod {m : NativeMethod} {run : Action Value} (args : List Value)
    (kept : Upholds C n Value.Below run) : Upholds C n Value.Below (Action.plainMethod m args run) := by
  unfold Action.plainMethod
  split
  · exact kept
  · exact fail _

theorem callMethod (m : NativeMethod) (receiver : Value) (args : List Value) :
    Upholds C n Value.Below (Action.callMethod m receiver args) := by
  cases m with
  | substring =>
      simp only [Action.callMethod]
      split
      · exact ofPlain (GivesPlain.substring _ _ _)
      · exact fail _
  | readLine => exact plainMethod args (readLine receiver)
  | endOfFile => exact plainMethod args (endOfFile receiver)
  | closeReader => exact plainMethod args (closeReader receiver)
  | writeLine =>
      simp only [Action.callMethod]
      split
      · exact writeLine receiver _
      · exact fail _
  | closeWriter => exact plainMethod args (closeWriter receiver)

end

end Upholds

end Action

end Pseudocode

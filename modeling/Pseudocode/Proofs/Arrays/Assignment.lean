import Pseudocode.Eval
import Pseudocode.Proofs.Arrays.Storage

/-!
Assignments to elements.

`object[index] = v` is done in one of two ways: where the object is a variable and the index
an integer, the array is looked up and changed at once; otherwise the object is evaluated
like any other expression (`Action.storeThrough`). Whatever the form of the object, both ways
leave the same machine (`Action.storeNamed_sameButFault`). Where the object and the index only
look at things, the assignment succeeds exactly when they select an element of an array, and
this element is then all that changes (`Action.element_assigned`).
-/

namespace Pseudocode

/-- Expressions that only look at things: no assignment, no call and no new object. -/
inductive Expr.OnlyReads : Expr → Prop where
  | identifier (span : Span) (name : String) : OnlyReads (.identifier span name)
  | integer (span : Span) (n : Int64) : OnlyReads (.integer span n)
  | float (span : Span) (x : Float) : OnlyReads (.float span x)
  | text (span : Span) (t : String) : OnlyReads (.text span t)
  | null (span : Span) : OnlyReads (.null span)
  | binary {left right : Expr} (span : Span) (op : BinaryOp) (first : OnlyReads left)
      (second : OnlyReads right) : OnlyReads (.binary span op left right)
  | unary {operand : Expr} (span : Span) (op : UnaryOp) (inside : OnlyReads operand) :
      OnlyReads (.unary span op operand)
  | range {start stop : Expr} (span : Span) (first : OnlyReads start) (second : OnlyReads stop) :
      OnlyReads (.range span start stop)
  | member {object : Expr} (span : Span) (field : String) (inside : OnlyReads object) :
      OnlyReads (.member span object field)
  | index {object i : Expr} (span : Span) (first : OnlyReads object) (second : OnlyReads i) :
      OnlyReads (.index span object i)

/-- Endings that differ at most in the fault. -/
inductive Outcome.SameButFault {α : Type} : Outcome α → Outcome α → Prop where
  | done (a : α) (m : Machine) : SameButFault (.done a m) (.done a m)
  | failed (f g : Fault) (m : Machine) : SameButFault (.failed f m) (.failed g m)
  | crashed (c : Crash) (m : Machine) : SameButFault (.crashed c m) (.crashed c m)
  | exhausted : SameButFault .exhausted .exhausted

/-- The machine on which element `i` of the array `a` is `v`. -/
def Machine.setElement (m : Machine) (a : ArrayId) (i : Nat) (v : Value) : Machine :=
  { m with heap := m.heap.setElement a i v }

namespace Outcome.SameButFault

variable {α : Type} {o o' o'' : Outcome α}

theorem refl (o : Outcome α) : o.SameButFault o := by
  cases o with
  | done a m => exact .done a m
  | failed f m => exact .failed f f m
  | crashed c m => exact .crashed c m
  | exhausted => exact .exhausted

theorem trans (first : o.SameButFault o') (second : o'.SameButFault o'') : o.SameButFault o'' := by
  cases first with
  | done a m => exact second
  | failed f g m =>
      cases second with
      | failed g k m => exact .failed f k m
  | crashed c m => exact second
  | exhausted => exact second

theorem of_bind {β : Type} {x y : Action α} {f g : α → Action β} {m : Machine}
    (first : (x m).SameButFault (y m)) (second : ∀ a m', (f a m').SameButFault (g a m')) :
    ((x >>= f) m).SameButFault ((y >>= g) m) := by
  rw [Action.bind_apply, Action.bind_apply]
  generalize x m = o, y m = o' at first
  cases first with
  | done a m' => exact second a m'
  | failed f g m' => exact .failed f g m'
  | crashed c m' => exact .crashed c m'
  | exhausted => exact .exhausted

theorem orAt (span : Span) (x : Action α) (m : Machine) :
    (Action.orAt span x m).SameButFault (x m) := by
  unfold Action.orAt
  cases x m with
  | done a m' => exact .done a m'
  | failed f m' => exact .failed _ f m'
  | crashed c m' => exact .crashed c m'
  | exhausted => exact .exhausted

end Outcome.SameButFault

namespace Action

variable {ctx : Context} {s : ScopeId} {object index value : Expr} {span place : Span} {v : Value}
  {m before : Machine}

/-- Looking at things makes copies of slices at most. -/
theorem copies_of_onlyReads {e : Expr} (reads : e.OnlyReads) : Copies (evaluate ctx s e) := by
  induction reads with
  | identifier span name => exact .orAt span (.tryOfHeap _)
  | integer span n => exact .pure _
  | float span x => exact .pure _
  | text span t => exact .pure _
  | null span => exact .pure _
  | binary span op _ _ left right =>
      exact .orAt span (.bind left fun l => .bind right fun r => .tryOfHeap _)
  | unary span op _ operand => exact .orAt span (.bind operand fun v => .tryOfHeap _)
  | range span _ _ start stop =>
      refine .orAt span (.bind start fun first => .bind stop fun last => ?_)
      split
      · exact .pure _
      · exact .fail _
  | member span field _ object =>
      refine .orAt span (.bind object fun v => ?_)
      unfold Action.member
      split
      · exact .tryOfHeap _
      · exact .tryOfHeap _
      · exact .ofExcept _
  | index span _ _ object i =>
      exact .orAt span (.bind object fun v => .bind i fun position => .index v position)

/-! ### The two ways -/

/-- `object[index] = v` for any object: the index and the object are evaluated, and then the
element is overwritten. -/
def storeThrough (ctx : Context) (s : ScopeId) (object index : Expr) (v : Value) : Action Unit := do
  let i ← evaluate ctx s index
  let container ← evaluate ctx s object
  storeAt container i v

/-- `object[index] = v`, where a variable that an integer is the index of is not evaluated
first. -/
def storeNamed (ctx : Context) (s : ScopeId) (object index : Expr) (v : Value) : Action Unit := do
  let i ← evaluate ctx s index
  match object, i with
  | .identifier _ name, .integer n => assignIndexed s name n v
  | _, _ =>
      let container ← evaluate ctx s object
      storeAt container i v

theorem bind_bind {α β γ : Type} (x : Action α) (f : α → Action β) (g : β → Action γ) :
    x >>= f >>= g = x >>= fun a => f a >>= g := by
  funext m
  simp only [bind_apply]
  cases x m <;> rfl

theorem evaluate_assign_index :
    evaluate ctx s (.assign span (.index place object index) value) = orAt span (do
      let v ← evaluate ctx s value
      storeNamed ctx s object index v
      return v) := by
  rw [evaluate]
  simp only [storeNamed, bind_bind]
  congr 3
  funext v
  congr 1
  funext i
  cases object with
  | identifier _ name =>
      cases i with
      | integer n => rfl
      | _ => exact (bind_bind ..).symm
  | _ => exact (bind_bind ..).symm

/-- A variable is looked up in the same way when it is not evaluated first. -/
theorem assignIndexed_sameButFault (name : String) (n : Int64) :
    (assignIndexed s name n v m).SameButFault
      ((evaluate ctx s (.identifier place name) >>= fun container =>
        storeAt container (.integer n) v) m) := by
  have changed : assignIndexed s name n v m = tryChangeHeap (fun h => h.assignIndexed s name n v) m := rfl
  rw [changed, tryChangeHeap_apply, bind_apply, evaluate, Action.orAt, Action.lookup, Action.tryOfHeap,
    Heap.assignIndexed]
  cases m.heap.lookup s name with
  | error cause => exact .failed _ _ m
  | ok w =>
      cases w with
      | array a =>
          dsimp only
          rw [← tryChangeHeap_apply fun h => h.storeElement a n v]
          exact .refl _
      | _ => exact .failed _ _ m

/-- Both ways leave the same machine, whether they succeed or fail. -/
theorem storeNamed_sameButFault (object index : Expr) (v : Value) (m : Machine) :
    (storeNamed ctx s object index v m).SameButFault (storeThrough ctx s object index v m) := by
  apply Outcome.SameButFault.of_bind (.refl _)
  intro i m'
  cases object with
  | identifier _ name =>
      cases i with
      | integer n => exact assignIndexed_sameButFault name n
      | _ => exact .refl _
  | _ => exact .refl _

/-! ### Elements -/

/-- The expressions `object` and `index` select element `i` of the array `a`. The machine
with which this is known has the copies of the slices that they take. -/
inductive Selects (ctx : Context) (s : ScopeId) (object index : Expr) (m : Machine) (a : ArrayId)
    (i : Nat) (m' : Machine) : Prop where
  | element {n : Int64} {m₁ : Machine} (position : evaluate ctx s index m = .done (.integer n) m₁)
      (container : evaluate ctx s object m₁ = .done (.array a) m') (same : n.toInt = i)
      (inside : i < (m'.heap.items a).size)

theorem storeThrough_of_selects {a : ArrayId} {i : Nat} {m' : Machine}
    (selects : Selects ctx s object index m a i m') (v : Value) :
    storeThrough ctx s object index v m = .done () (m'.setElement a i v) := by
  obtain ⟨position, container, same, inside⟩ := selects
  rw [storeThrough, bind_apply, position]
  dsimp only
  rw [bind_apply, container]
  have stored := Heap.storeElement_of_lt (v := v) same inside
  change tryChangeHeap (fun h => h.storeElement a _ v) m' = _
  rw [tryChangeHeap_apply, stored]
  rfl

theorem Selects.copies {a : ArrayId} {i : Nat} {m' : Machine}
    (selects : Selects ctx s object index m a i m') (object_reads : object.OnlyReads)
    (index_reads : index.OnlyReads) : m.Copies m' := by
  obtain ⟨position, container, -, -⟩ := selects
  exact ((copies_of_onlyReads index_reads).of_done position).trans
    ((copies_of_onlyReads object_reads).of_done container)

/-- What cannot be stored leaves the machine as it is. -/
theorem storeAt_cases (container i v : Value) (m : Machine) :
    (∃ a n k, container = .array a ∧ i = .integer n ∧ n.toInt = (k : Nat) ∧ k < (m.heap.items a).size) ∨
      ∃ f, storeAt container i v m = .failed f m := by
  cases container with
  | array a =>
      cases i with
      | integer n =>
          cases found : Heap.position? n (m.heap.items a).size with
          | some k =>
              obtain ⟨same, inside⟩ := Heap.position?_eq_some_iff.mp found
              exact .inl ⟨a, n, k, rfl, rfl, same, inside⟩
          | none =>
              right
              change ∃ f, tryChangeHeap (fun h => h.storeElement a n v) m = .failed f m
              rw [tryChangeHeap_apply, Heap.storeElement_of_none found]
              exact ⟨_, rfl⟩
      | _ => exact .inr ⟨_, rfl⟩
  | _ => exact .inr ⟨_, rfl⟩

/-- An assignment that selects no element fails, and all that it may have done is to make
arrays. -/
theorem storeThrough_of_not_selects (object_reads : object.OnlyReads) (index_reads : index.OnlyReads)
    (none : ∀ a i m', ¬Selects ctx s object index m a i m') (v : Value) :
    ∃ f m', storeThrough ctx s object index v m = .failed f m' ∧ m.Copies m' := by
  rw [storeThrough, bind_apply]
  have index_copies : Copies (evaluate ctx s index) := copies_of_onlyReads index_reads
  have object_copies : Copies (evaluate ctx s object) := copies_of_onlyReads object_reads
  rcases index_copies.ends m with
    ⟨i, m₁, position, first⟩ | ⟨f, m₁, failed, first⟩
  · rw [position]
    dsimp only
    rw [bind_apply]
    rcases object_copies.ends m₁ with
      ⟨c, m₂, container, second⟩ | ⟨f, m₂, failed, second⟩
    · rw [container]
      dsimp only
      rcases storeAt_cases c i v m₂ with ⟨a, n, k, rfl, rfl, same, inside⟩ | ⟨f, failed⟩
      · exact absurd (.element position container same inside) (none a k m₂)
      · exact ⟨f, m₂, failed, first.trans second⟩
    · rw [failed]
      exact ⟨f, m₂, rfl, first.trans second⟩
  · rw [failed]
    exact ⟨f, m₁, rfl, first⟩

/-- Element `i` of the array `a` is `v` on the second machine. Of what there was on the first,
nothing else is different. -/
structure ElementChanged (m m' : Machine) (a : ArrayId) (i : Nat) (v : Value) : Prop where
  element : (m'.heap.items a)[i]? = some v
  /-- Every expression that stands for the array shows the new element. -/
  aliases : ∀ (ctx : Context) (t : ScopeId) (e : Expr) (span place : Span) (n : Int64) (m'' : Machine),
    e.OnlyReads → evaluate ctx t e m' = .done (.array a) m'' → n.toInt = i →
      evaluate ctx t (.index span e (.integer place n)) m' = .done v m''
  others : ∀ b < m.heap.arrays.size, ∀ j, ¬(b = a ∧ j = i) →
    (m'.heap.items b)[j]? = (m.heap.items b)[j]?
  rest : m' = { m with heap := { m.heap with arrays := m'.heap.arrays } }

/-- An index that is a literal. -/
theorem evaluate_index_integer {e : Expr} {c : Value} {m' : Machine} (n : Int64)
    (stands : evaluate ctx s e m = .done c m') :
    evaluate ctx s (.index span e (.integer place n)) m =
      Action.orAt span (Action.index c (.integer n)) m' := by
  have literal : evaluate ctx s (.integer place n) m' = .done (.integer n) m' := rfl
  rw [evaluate, Action.orAt, bind_apply, stands]
  dsimp only
  rw [bind_apply, literal]
  rfl

theorem evaluate_index_failed {e i : Expr} {f : Fault} {m' : Machine}
    (failed : evaluate ctx s e m = .failed f m') :
    evaluate ctx s (.index span e i) m = .failed (f.orAt span) m' := by
  rw [evaluate, Action.orAt, bind_apply, failed]

theorem elementChanged {a : ArrayId} {i : Nat} {m₁ : Machine} (copies : m.Copies m₁)
    (inside : i < (m₁.heap.items a).size) (v : Value) :
    ElementChanged m (m₁.setElement a i v) a i v := by
  have element : ((m₁.setElement a i v).heap.items a)[i]? = some v := by
    have written : (m₁.setElement a i v).heap.items a = (m₁.heap.items a).setIfInBounds i v :=
      Heap.items_setElement_self
    rw [written, Array.getElem?_setIfInBounds_self_of_lt inside]
  constructor
  case element => exact element
  case aliases =>
    intro ctx t e span place n m'' reads stands same
    have kept := (copies_of_onlyReads reads).of_done stands
    have old : a < (m₁.setElement a i v).heap.arrays.size := by
      obtain ⟨inside, -⟩ := Array.getElem?_eq_some_iff.mp element
      exact Heap.lt_size_of_items inside
    rw [← kept.items old] at element
    rw [evaluate_index_integer n stands, Action.orAt, index_of_getElem? same element]
  case others =>
    intro b old j other
    rw [← copies.items old]
    change ((m₁.heap.setElement a i v).items b)[j]? = _
    rw [Heap.items_setElement]
    split
    · rename_i same
      subst same
      have apart : i ≠ j := fun equal => other ⟨rfl, equal.symm⟩
      rw [Array.getElem?_setIfInBounds_ne apart]
    · rfl
  case rest =>
    rw [copies.rest]
    rfl

/-- Once the value is there, an assignment to an element ends as if the form of the object made
no difference. -/
theorem assign_sameButFault (given : evaluate ctx s value before = .done v m) :
    (evaluate ctx s (.assign span (.index place object index) value) before).SameButFault
      ((storeThrough ctx s object index v >>= fun _ => pure v) m) := by
  rw [evaluate_assign_index]
  apply (Outcome.SameButFault.orAt span _ before).trans
  rw [bind_apply, given]
  exact .of_bind (storeNamed_sameButFault object index v m) fun _ _ => .refl _

theorem evaluate_assign_of_selects {a : ArrayId} {i : Nat} {m₁ : Machine}
    (given : evaluate ctx s value before = .done v m) (selects : Selects ctx s object index m a i m₁) :
    evaluate ctx s (.assign span (.index place object index) value) before =
      .done v (m₁.setElement a i v) := by
  have same : (evaluate ctx s (.assign span (.index place object index) value) before).SameButFault _ :=
    assign_sameButFault given
  rw [bind_apply, storeThrough_of_selects selects v] at same
  generalize evaluate ctx s (.assign span (.index place object index) value) before = ended at same ⊢
  cases same with
  | done => rfl

/-- How the assignment of `v` to `object[index]` ends on the machine `m`. -/
structure AssignsElement (ctx : Context) (s : ScopeId) (object index : Expr) (v : Value) (m : Machine)
    (ended : Outcome Value) : Prop where
  succeeds : (∃ w m', ended = .done w m') ↔ ∃ a i m₁, Selects ctx s object index m a i m₁
  changes : ∀ a i m₁, Selects ctx s object index m a i m₁ →
    ended = .done v (m₁.setElement a i v) ∧ ElementChanged m (m₁.setElement a i v) a i v
  /-- Without an answer it does not end, and when it fails no array that there was, no binding
  and no mark has changed. -/
  fails : (∃ w m', ended = .done w m') ∨ ∃ f m', ended = .failed f m' ∧ m.Copies m'
  /-- The element is overwritten, or not, as if the form of the object made no difference. -/
  general : ended.SameButFault ((storeThrough ctx s object index v >>= fun _ => pure v) m)

/-- An assignment to an element whose object and index only look at things, after the value
has been evaluated. -/
theorem element_assigned (object_reads : object.OnlyReads) (index_reads : index.OnlyReads)
    (given : evaluate ctx s value before = .done v m) :
    AssignsElement ctx s object index v m
      (evaluate ctx s (.assign span (.index place object index) value) before) := by
  have stored : ∀ a i m₁, Selects ctx s object index m a i m₁ →
      evaluate ctx s (.assign span (.index place object index) value) before =
        .done v (m₁.setElement a i v) := fun a i m₁ selects => evaluate_assign_of_selects given selects
  have same : (evaluate ctx s (.assign span (.index place object index) value) before).SameButFault _ :=
    assign_sameButFault given
  generalize evaluate ctx s (.assign span (.index place object index) value) before = ended at same stored ⊢
  have refused : (¬∃ a i m₁, Selects ctx s object index m a i m₁) →
      ∃ f m', ended = .failed f m' ∧ m.Copies m' := by
    intro none
    obtain ⟨f, m', failed, copies⟩ := storeThrough_of_not_selects object_reads index_reads
      (fun a i m₁ selects => none ⟨a, i, m₁, selects⟩) v
    rw [bind_apply, failed] at same
    cases same with
    | failed g => exact ⟨g, m', rfl, copies⟩
  by_cases selected : ∃ a i m₁, Selects ctx s object index m a i m₁
  case pos =>
    obtain ⟨a, i, m₁, selects⟩ := selected
    have done := stored a i m₁ selects
    constructor
    case succeeds => exact ⟨fun _ => ⟨a, i, m₁, selects⟩, fun _ => ⟨v, _, done⟩⟩
    case changes =>
      intro a' i' m₁' selects'
      have copies := selects'.copies object_reads index_reads
      have done' := stored a' i' m₁' selects'
      obtain ⟨-, -, -, inside⟩ := selects'
      exact ⟨done', elementChanged copies inside v⟩
    case fails => exact .inl ⟨v, _, done⟩
    case general => exact same
  case neg =>
    obtain ⟨f, m', failed, copies⟩ := refused selected
    constructor
    case succeeds =>
      constructor
      · rintro ⟨w, m'', done⟩
        rw [failed] at done
        cases done
      · intro selects
        exact absurd selects selected
    case changes =>
      intro a i m₁ selects
      exact absurd ⟨a, i, m₁, selects⟩ selected
    case fails => exact .inr ⟨f, m', failed, copies⟩
    case general => exact same

/-- A variable that stands for an array which has itself as its first element. -/
def holdsItself : Machine :=
  { heap := { scopes := #[{ bindings := [("a", .array 0)] }], arrays := #[#[.array 0, .null]] } }

/-- The array is reached through itself and stored in itself. -/
theorem element_assigned_in_itself :
    let a : Expr := .identifier .unplaced "a"
    let first : Expr := .index .unplaced a (.integer .unplaced 0)
    let ctx := context {} 0
    first.OnlyReads ∧ (Expr.integer .unplaced 1).OnlyReads ∧
      evaluate ctx 0 first holdsItself = .done (.array 0) holdsItself ∧
      Selects ctx 0 first (.integer .unplaced 1) holdsItself 0 1 holdsItself ∧
      AssignsElement ctx 0 first (.integer .unplaced 1) (.array 0) holdsItself
        (evaluate ctx 0 (.assign .unplaced (.index .unplaced first (.integer .unplaced 1)) first)
          holdsItself) := by
  intro a first ctx
  have first_reads : first.OnlyReads := .index _ (.identifier _ _) (.integer _ _)
  have index_reads : (Expr.integer .unplaced 1).OnlyReads := .integer _ _
  have given : evaluate ctx 0 first holdsItself = .done (.array 0) holdsItself := rfl
  exact ⟨first_reads, index_reads, given, .element rfl rfl rfl (by decide),
    element_assigned first_reads index_reads given⟩

end Action

end Pseudocode

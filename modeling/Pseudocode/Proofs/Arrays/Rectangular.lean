import Pseudocode.Proofs.Arrays.Assignment
import Pseudocode.Proofs.Arrays.Grid
import Pseudocode.Proofs.Scopes

/-!
Arrays of several dimensions in a program.

A new array is made when there is room for each of its rows; otherwise the machine crashes
(`Action.makeArray_eq`). A variable that it has been bound to reads as `null` at every tuple
of indices inside the sizes, and at no other tuple. This stays so under assignments inside the
sizes, except that a tuple then reads as what was assigned to it last
(`Action.array_rectangular`): no two tuples share a row that one of them could be changed
through.
-/

namespace Pseudocode

/-- `root[i₁, …, iₖ]`, wherever it is written. -/
inductive Expr.Element (root : Expr) : List Int64 → Expr → Prop where
  | whole : Element root [] root
  | part {is : List Int64} {e : Expr} (span place : Span) (i : Int64) (outer : Element root is e) :
      Element root (is ++ [i]) (.index span e (.integer place i))

/-- A scope is not looked for among the arrays. -/
theorem Heap.lookup_arrays (h : Heap) (arrays : Array (Array Value)) (s : ScopeId) (name : String) :
    ({ h with arrays := arrays } : Heap).lookup s name = h.lookup s name := by
  have walk : ({ h with arrays := arrays } : Heap).lookupFrom name (s + 1) s = h.lookupFrom name (s + 1) s := by
    apply Heap.lookupFrom_congr
    · exact fun _ => rfl
    · exact fun _ => rfl
  simp only [Heap.lookup, Heap.lookup?, walk]

namespace Action

/-- A variable stands for an array of the given sizes with the given values. -/
structure HasGrid (m : Machine) (s : ScopeId) (name : String) (sizes : List Nat) (first : Nat)
    (values : List Int64 → Value) : Prop where
  grid : Grid m.heap sizes first values
  bound : m.heap.lookup s name = .ok (partAt values sizes first [])

/-- The arrays of the first machine are still what they were, and the variable stands for
what it stood for. -/
structure Keeps (s : ScopeId) (name : String) (m m' : Machine) : Prop where
  grown : m.heap.arrays.size ≤ m'.heap.arrays.size
  items : ∀ b < m.heap.arrays.size, m'.heap.items b = m.heap.items b
  bound : m'.heap.lookup s name = m.heap.lookup s name

theorem Keeps.refl (s : ScopeId) (name : String) (m : Machine) : Keeps s name m m :=
  ⟨Nat.le_refl _, fun _ _ => rfl, rfl⟩

/-- The assignment of a value to `name[i₁, …, iₖ]`, inside the sizes. Evaluating the value may
do anything but change arrays and the variable. -/
inductive ElementAssignment (ctx : Context) (s : ScopeId) (name : String) (sizes : List Nat)
    (m : Machine) : List Int64 → Value → Expr → Prop where
  | intro {is : List Int64} {n : Int64} {object value : Expr} {v : Value} {m' : Machine}
      (root span place index : Span) (element : (Expr.identifier root name).Element is object)
      (within : Within sizes (is ++ [n])) (whole : (is ++ [n]).length = sizes.length)
      (given : evaluate ctx s value m = .done v m') (keeps : Keeps s name m m') :
      ElementAssignment ctx s name sizes m (is ++ [n]) v
        (.assign span (.index place object (.integer index n)) value)

/-- A sequence of assignments inside the sizes, with the tuples of indices and the values that
were assigned, the last one first. -/
inductive Assigned (ctx : Context) (s : ScopeId) (name : String) (sizes : List Nat) (m : Machine) :
    List (List Int64 × Value) → Machine → Prop where
  | none : Assigned ctx s name sizes m [] m
  | next {written : List (List Int64 × Value)} {m₁ m₂ : Machine} {is : List Int64} {v w : Value}
      {e : Expr} (earlier : Assigned ctx s name sizes m written m₁)
      (assignment : ElementAssignment ctx s name sizes m₁ is v e)
      (done : evaluate ctx s e m₁ = .done w m₂) :
      Assigned ctx s name sizes m ((is, v) :: written) m₂

/-- What was assigned last to a tuple of indices, or `null`. -/
def lastAssigned (written : List (List Int64 × Value)) (is : List Int64) : Value :=
  (written.lookup is).getD .null

/-- `name[i₁, …, iₖ]` is the value at the tuple of indices if it is inside the sizes, and a
failure otherwise. -/
def Shows (ctx : Context) (s : ScopeId) (name : String) (sizes : List Nat)
    (values : List Int64 → Value) (m : Machine) : Prop :=
  ∀ root is e, (Expr.identifier root name).Element is e → is.length = sizes.length →
    (Within sizes is → evaluate ctx s e m = .done (values is) m) ∧
      (¬Within sizes is → ∃ f, evaluate ctx s e m = .failed f m)

variable {ctx : Context} {s : ScopeId} {name : String} {e : Expr} {sizes : List Nat} {first : Nat}
  {values : List Int64 → Value} {is : List Int64} {v : Value} {m m' : Machine}

theorem lastAssigned_cons (written : List (List Int64 × Value)) :
    lastAssigned ((is, v) :: written) = Function.update (lastAssigned written) is v := by
  funext js
  by_cases same : js = is
  · subst same
    rw [Function.update_self, lastAssigned, List.lookup_cons_self]
    rfl
  · rw [Function.update_of_ne same, lastAssigned, List.lookup_cons, beq_false_of_ne same]
    rfl

/-! ### Reading -/

namespace HasGrid

theorem stands (has : HasGrid m s name sizes first values) (span : Span) :
    evaluate ctx s (.identifier span name) m = .done (partAt values sizes first []) m := by
  rw [evaluate, Action.orAt, lookup, tryOfHeap, has.bound]

theorem evaluate_element {root : Span} (ctx : Context) (has : HasGrid m s name sizes first values)
    (element : (Expr.identifier root name).Element is e) (short : is.length ≤ sizes.length) :
    (Within sizes is → evaluate ctx s e m = .done (partAt values sizes first is) m) ∧
      (¬Within sizes is → ∃ f, evaluate ctx s e m = .failed f m) := by
  induction element with
  | whole => exact ⟨fun _ => has.stands root, fun outside => absurd (within_nil sizes) outside⟩
  | @part is e span place i outer ih =>
      rw [List.length_append] at short
      obtain ⟨inside, outside⟩ := ih (Nat.le_of_succ_le short)
      by_cases within : Within sizes is
      · have row := inside within
        rw [partAt_of_lt short] at row
        constructor
        · intro whole
          have same : i.toInt = i.toInt.toNat := by
            have nonneg := whole.last_nonneg
            omega
          rw [evaluate_index_integer i row, Action.orAt, index_of_getElem? same (has.grid.inside is i whole)]
        · intro out
          rw [evaluate_index_integer i row, Action.orAt,
            index_of_none (has.grid.outside is i within short out)]
          exact ⟨_, rfl⟩
      · obtain ⟨f, failed⟩ := outside within
        exact ⟨fun whole => absurd whole.prefix within, fun _ => ⟨_, evaluate_index_failed failed⟩⟩

theorem shows (has : HasGrid m s name sizes first values) : Shows ctx s name sizes values m := by
  intro root is e element whole
  obtain ⟨inside, outside⟩ := has.evaluate_element ctx element (Nat.le_of_eq whole)
  constructor
  · intro within
    rw [inside within, partAt_of_eq whole]
  · exact outside

/-! ### Writing -/

theorem later (has : HasGrid m s name sizes first values) (keeps : Keeps s name m m') :
    HasGrid m' s name sizes first values where
  grid := has.grid.later keeps.grown keeps.items
  bound := keeps.bound.trans has.bound

/-- An assignment inside the sizes succeeds, and changes what stands at its indices. -/
theorem assign (has : HasGrid m s name sizes first values)
    (assignment : ElementAssignment ctx s name sizes m is v e) :
    ∃ m', evaluate ctx s e m = .done v m' ∧
      HasGrid m' s name sizes first (Function.update values is v) := by
  obtain @⟨is, n, object, value, v, m₁, root, span, place, index, element, within, whole, given, keeps⟩ :=
    assignment
  have there := has.later keeps
  have isRow : is.length < sizes.length := by
    rw [List.length_append] at whole
    exact Nat.lt_of_succ_le (Nat.le_of_eq whole)
  have container := (there.evaluate_element ctx element (Nat.le_of_lt isRow)).1 within.prefix
  rw [partAt_of_lt isRow] at container
  have literal : evaluate ctx s (.integer index n) m₁ = .done (.integer n) m₁ := rfl
  have same : n.toInt = n.toInt.toNat := by
    have nonneg := within.last_nonneg
    omega
  obtain ⟨inside, -⟩ := Array.getElem?_eq_some_iff.mp (there.grid.inside is n within)
  have selects : Selects ctx s object (.integer index n) m₁ (rowAt sizes first is) n.toInt.toNat m₁ :=
    .element literal container same inside
  refine ⟨_, evaluate_assign_of_selects given selects, ?_⟩
  constructor
  case grid => exact there.grid.setElement within whole v
  case bound =>
    have other : [] ≠ is ++ [n] := (List.append_ne_nil_of_right_ne_nil is (List.cons_ne_nil n [])).symm
    rw [Grid.partAt_update_of_ne other, ← there.bound]
    exact Heap.lookup_arrays ..

theorem assigned {written : List (List Int64 × Value)}
    (has : HasGrid m s name sizes first (fun _ => .null))
    (assigned : Assigned ctx s name sizes m written m') :
    HasGrid m' s name sizes first (lastAssigned written) := by
  induction assigned with
  | none => exact has
  | next _ assignment done ih =>
      obtain ⟨m₂, ended, there⟩ := ih.assign assignment
      rw [done] at ended
      cases ended
      rw [lastAssigned_cons]
      exact there

end HasGrid

/-! ### New arrays -/

/-- The first row that there is no room for decides. -/
theorem makeArray_eq (room : Nat) (sizes : List Nat) (m : Machine) :
    makeArray room sizes m = match Heap.oversized? room sizes with
      | some size => .crashed (.capacity size) m
      | none => .done (m.heap.makeArray sizes).1 { m with heap := (m.heap.makeArray sizes).2 } := by
  unfold makeArray
  cases Heap.oversized? room sizes <;> rfl

theorem hasGrid_of_makeArray {h : Heap} (made : m.heap.arrays = (h.makeArray sizes).2.arrays)
    (named : m.heap.lookup s name = .ok (h.makeArray sizes).1) :
    HasGrid m s name sizes h.arrays.size fun _ => .null := by
  have new := makeArray_grid sizes h
  constructor
  case grid =>
    apply new.grid.later (Nat.le_of_eq (congrArg Array.size made.symm))
    intro b _
    simp only [Heap.items, Heap.items?, made]
  case bound => rw [named, new.value]

/-- A declaration binds its name to an array that is made for it. -/
theorem execute_array {span : Span} {es : List Expr} {flow : Flow} (valid : s < m'.heap.scopes.size)
    (done : execute ctx s (.array span name es) m = .done flow m') :
    ∃ sizes m₁, dimensions ctx s es m = .done sizes m₁ ∧
      m'.heap.arrays = (m₁.heap.makeArray sizes).2.arrays ∧
      m'.heap.lookup s name = .ok (m₁.heap.makeArray sizes).1 := by
  rw [execute] at done
  obtain ⟨sizes, m₁, sized, done⟩ := bind_eq_done done
  obtain ⟨v, m₂, made, done⟩ := bind_eq_done done
  rw [makeArray_eq] at made
  split at made
  · cases made
  · cases made
    rw [bind_apply, Action.orAt, declare, tryChangeHeap_apply, Heap.declare] at done
    by_cases bound : (m₁.heap.makeArray sizes).2.hasLocal s name = true
    · rw [if_pos bound] at done
      cases done
    · rw [if_neg bound] at done
      cases done
      have inside : s < (m₁.heap.makeArray sizes).2.scopes.size := by
        simpa [Heap.setLocal, Heap.modifyScope] using valid
      exact ⟨sizes, m₁, sized, rfl, Heap.lookup_of_local? (Heap.local?_setLocal_self name _ inside)⟩

/-- What there is to say of a variable that an array of the given sizes, made from the heap
`h`, has been bound to. -/
structure Rectangular (ctx : Context) (h : Heap) (s : ScopeId) (name : String) (sizes : List Nat)
    (m : Machine) : Prop where
  starts : Shows ctx s name sizes (fun _ => .null) m
  /-- The rows are arrays that `h` does not have, and different from one another. -/
  rows : ∀ root is e, (Expr.identifier root name).Element is e → Within sizes is →
    is.length < sizes.length →
    ∃ a : Nat, evaluate ctx s e m = .done (.array a) m ∧ h.arrays.size ≤ a ∧
      ∀ root js e', (Expr.identifier root name).Element js e' → Within sizes js →
        js.length < sizes.length → evaluate ctx s e' m = .done (.array a) m → js = is
  assigned : ∀ written m', Assigned ctx s name sizes m written m' →
    Shows ctx s name sizes (lastAssigned written) m'
  succeeds : ∀ written m', Assigned ctx s name sizes m written m' →
    ∀ is v e, ElementAssignment ctx s name sizes m' is v e → ∃ m'', evaluate ctx s e m' = .done v m''

theorem HasGrid.rectangular {h : Heap} (has : HasGrid m s name sizes h.arrays.size fun _ => .null) :
    Rectangular ctx h s name sizes m := by
  have row : ∀ root is e, (Expr.identifier root name).Element is e → Within sizes is →
      is.length < sizes.length →
      evaluate ctx s e m = .done (.array (rowAt sizes h.arrays.size is)) m := by
    intro root is e element within isRow
    have there := (has.evaluate_element ctx element (Nat.le_of_lt isRow)).1 within
    rwa [partAt_of_lt isRow] at there
  constructor
  case starts => exact has.shows
  case rows =>
    intro root is e element within isRow
    refine ⟨_, row root is e element within isRow, (rowAt_bounds _ within isRow).1, ?_⟩
    intro root' js e' element' within' isRow' same
    rw [row root' js e' element' within' isRow'] at same
    have equal : rowAt sizes h.arrays.size js = rowAt sizes h.arrays.size is := by
      injection same with same
      injection same
    exact rowAt_injective within' within isRow' isRow equal
  case assigned =>
    intro written m' assigned
    exact (has.assigned assigned).shows
  case succeeds =>
    intro written m' assigned is v e assignment
    obtain ⟨m'', done, -⟩ := (has.assigned assigned).assign assignment
    exact ⟨m'', done⟩

/-- What a declaration declares is rectangular. -/
theorem declared_rectangular {span : Span} {es : List Expr} {flow : Flow}
    (valid : s < m'.heap.scopes.size)
    (done : execute ctx s (.array span name es) m = .done flow m') :
    ∃ sizes m₁, dimensions ctx s es m = .done sizes m₁ ∧ Rectangular ctx m₁.heap s name sizes m' := by
  obtain ⟨sizes, m₁, sized, made, named⟩ := execute_array valid done
  exact ⟨sizes, m₁, sized, (hasGrid_of_makeArray made named).rectangular⟩

end Action

end Pseudocode

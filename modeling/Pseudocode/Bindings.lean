/-!
Values by name, in the order in which the names came.

`put` keeps the place of a name that is there and adds a new one at the end.
`List.lookup` reads: after a `put` the name has the new value and every other
name the old one. That is all there is to say of a table: any other `Table` shows
the same after the same insertions (`Table.filled_agrees`).
-/

namespace Pseudocode

abbrev Bindings (α : Type) := List (String × α)

namespace Bindings

variable {α : Type}

/-- The names, in order. -/
def names (bs : Bindings α) : List String := bs.map Prod.fst

/-- Overwrites the value of a name in place, or adds the name at the end. -/
def put (bs : Bindings α) (name : String) (v : α) : Bindings α :=
  match bs with
  | [] => [(name, v)]
  | (n, w) :: rest => if n == name then (n, v) :: rest else (n, w) :: put rest name v

@[simp] theorem lookup_put_self (bs : Bindings α) (name : String) (v : α) :
    (bs.put name v).lookup name = some v := by
  induction bs with
  | nil => simp [put]
  | cons b rest ih =>
      obtain ⟨n, w⟩ := b
      by_cases h : n = name
      · subst h
        simp [put]
      · have hne : (name == n) = false := beq_eq_false_iff_ne.mpr (Ne.symm h)
        simp [put, h, List.lookup_cons, hne, ih]

theorem lookup_put_of_ne (bs : Bindings α) {name other : String} (v : α) (h : other ≠ name) :
    (bs.put name v).lookup other = bs.lookup other := by
  induction bs with
  | nil =>
      have hne : (other == name) = false := beq_eq_false_iff_ne.mpr h
      simp [put, List.lookup_cons, hne]
  | cons b rest ih =>
      obtain ⟨n, w⟩ := b
      by_cases hn : n = name
      · subst hn
        have hne : (other == n) = false := beq_eq_false_iff_ne.mpr h
        simp [put, List.lookup_cons, hne]
      · simp [put, hn, List.lookup_cons, ih]

/-- A `put` adds the name at the end unless it is there, and moves no other. -/
theorem names_put (bs : Bindings α) (name : String) (v : α) :
    (bs.put name v).names = if name ∈ bs.names then bs.names else bs.names ++ [name] := by
  induction bs with
  | nil => simp [put, names]
  | cons b rest ih =>
      obtain ⟨n, w⟩ := b
      by_cases h : n = name
      · subst h
        simp [put, names]
      · have hne : name ≠ n := Ne.symm h
        by_cases mem : name ∈ names rest
        · have ih : (put rest name v).names = names rest := by rw [ih, if_pos mem]
          simp_all [put, names]
        · have ih : (put rest name v).names = names rest ++ [name] := by rw [ih, if_neg mem]
          simp_all [put, names]

end Bindings

/-! ### Tables -/

/-- What is relied on of a table: what is read after an insertion, and the order of the names. -/
structure Table (α : Type) where
  Carrier : Type
  empty : Carrier
  get : Carrier → String → Option α
  names : Carrier → List String
  insert : Carrier → String → α → Carrier
  get_empty : ∀ name, get empty name = none
  names_empty : names empty = []
  get_insert : ∀ t name v other,
    get (insert t name v) other = if other = name then some v else get t other
  names_insert : ∀ t name v,
    names (insert t name v) = if name ∈ names t then names t else names t ++ [name]

/-- Bindings are a table. -/
def Bindings.table (α : Type) : Table α where
  Carrier := Bindings α
  empty := []
  get bs name := bs.lookup name
  names := names
  insert := put
  get_empty _ := rfl
  names_empty := rfl
  get_insert bs name v other := by
    split
    · rename_i same
      rw [same, lookup_put_self]
    · rename_i apart
      exact lookup_put_of_ne bs v apart
  names_insert := names_put

namespace Table

variable {α : Type}

/-- The table after insertions, from the first to the last. -/
def filled (table : Table α) (entries : List (String × α)) : table.Carrier :=
  entries.foldl (fun t e => table.insert t e.1 e.2) table.empty

/-- After the same insertions no two tables can be told apart. -/
theorem filled_agrees (table other : Table α) (entries : List (String × α)) :
    table.names (table.filled entries) = other.names (other.filled entries) ∧
      ∀ name, table.get (table.filled entries) name = other.get (other.filled entries) name := by
  unfold filled
  have started : table.names table.empty = other.names other.empty ∧
      ∀ name, table.get table.empty name = other.get other.empty name :=
    ⟨table.names_empty.trans other.names_empty.symm,
      fun name => (table.get_empty name).trans (other.get_empty name).symm⟩
  generalize table.empty = t at started
  generalize other.empty = u at started
  induction entries generalizing t u with
  | nil => exact started
  | cons e entries ih =>
      obtain ⟨names, values⟩ := started
      apply ih
      constructor
      · rw [table.names_insert, other.names_insert, names]
      · intro name
        rw [table.get_insert, other.get_insert, values]

end Table

end Pseudocode

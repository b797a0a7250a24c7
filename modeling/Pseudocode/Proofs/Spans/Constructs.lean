import Pseudocode.Proofs.Derivation.Parts

/-!
What programs are put together from, and where the parts lie.

A `Construct` is anything that has parts in a program. Its parts lie in its own span,
with one exception: the span of a `while` loop ends with its condition, and the body is
`behind` it (`Construct.Orderly`). Constructs that were read `InTurn` from a row of
tokens, one after the other, have their spans in this order (`InTurn.pairwise`), and what
was read from such parts is orderly itself (`Construct.Laid.of_inTurn`). Only of an index
are the parts not in turn: the indices of `a[i, j]` share one span.
-/

namespace Pseudocode

inductive Construct where
  | expr (e : Expr)
  | stmt (s : Stmt)
  | arm (c : Case)
  | routine (decl : RoutineDecl)
  | member (m : Member)
  /-- The name of a parent class. -/
  | parent (span : Span)

namespace Construct

/-- The node of the construct itself, if it has one. -/
def node? : Construct → Option Node
  | expr e => some ⟨e.kind, e.span⟩
  | stmt (.declare span ..) => some ⟨.declare, span⟩
  | stmt (.array span ..) => some ⟨.array, span⟩
  | stmt (.classDecl decl) => some ⟨.classDecl, decl.span⟩
  | stmt (.count span ..) => some ⟨.count, span⟩
  | stmt (.whileLoop span ..) => some ⟨.whileLoop, span⟩
  | stmt (.giveBack span _) => some ⟨.giveBack, span⟩
  | stmt _ | arm _ => none
  | routine decl => some ⟨decl.kind.node, decl.span⟩
  | member m => some ⟨.member, m.span⟩
  | parent span => some ⟨.parent, span⟩

def span? (c : Construct) : Option Span := c.node?.map Node.span

/-- The parts that belong in the span of the construct, in the order of the source. -/
def held : Construct → List Construct
  | expr e => e.parts.map expr
  | stmt (.declare _ _ value) => [expr value]
  | stmt (.array _ _ dimensions) => dimensions.map expr
  | stmt (.routine decl) => [routine decl]
  | stmt (.classDecl decl) => decl.parent.toList.map (parent ·.2) ++ decl.members.map member
  | stmt (.conditional condition yes no) =>
      expr condition :: (yes.map stmt ++ (no.getD []).map stmt)
  | stmt (.switch subject cases) => expr subject :: cases.map arm
  | stmt (.count _ _ first last body) => expr first :: expr last :: body.map stmt
  | stmt (.whileLoop _ condition _) => [expr condition]
  | stmt (.untilLoop body condition) => body.map stmt ++ [expr condition]
  | stmt (.giveBack _ value) => value.toList.map expr
  | stmt (.expression e) => [expr e]
  | arm c => c.test.toList.map expr ++ c.body.map stmt
  | routine decl => decl.body.map stmt
  | member (.field ..) | parent _ => []
  | member (.method _ _ decl) => [routine decl]

/-- The parts that follow behind the span of the construct. -/
def behind : Construct → List Construct
  | stmt (.whileLoop _ _ body) => body.map stmt
  | _ => []

def parts (c : Construct) : List Construct := c.held ++ c.behind

def nodes : Construct → List Node
  | expr e => e.nodes
  | stmt s => s.nodes
  | arm c => c.nodes
  | routine decl => decl.nodes
  | member m => m.nodes
  | parent span => [⟨.parent, span⟩]

/-- What a construct is made of: itself, its parts, their parts and so on. -/
inductive Within (c : Construct) : Construct → Prop where
  | self : Within c c
  | part {d e : Construct} (inside : Within c d) (mem : e ∈ d.parts) : Within c e

/-- All of the first construct is written before all of the second one. -/
def Precedes (c d : Construct) : Prop :=
  ∀ n ∈ c.nodes, ∀ m ∈ d.nodes, n.span.stop ≤ m.span.start

/-- The spans of a construct and of its parts lie as they should. -/
structure Orderly (c : Construct) : Prop where
  held : ∀ s ∈ c.span?, ∀ d ∈ c.held, ∀ n ∈ d.nodes, s.start ≤ n.span.start ∧ n.span.stop ≤ s.stop
  behind : ∀ s ∈ c.span?, ∀ d ∈ c.behind, ∀ n ∈ d.nodes, s.stop ≤ n.span.start
  inTurn : (∀ s object i, c ≠ .expr (.index s object i)) → c.parts.Pairwise Precedes

end Construct

/-- A construct of a program: one of its statements, or a part of another construct. -/
def Program.HasConstruct (p : Program) (c : Construct) : Prop :=
  ∃ s ∈ p.body, (Construct.stmt s).Within c

/-! ### Nodes -/

theorem Expr.nodesOf_eq (es : List Expr) : nodesOf es = es.flatMap nodes := by
  induction es with
  | nil => rfl
  | cons e es ih => rw [nodesOf, ih, List.flatMap_cons]

theorem Stmt.nodesOf_eq (ss : List Stmt) : nodesOf ss = ss.flatMap nodes := by
  induction ss with
  | nil => rfl
  | cons s ss ih => rw [nodesOf, ih, List.flatMap_cons]

theorem Case.nodesOf_eq (cases : List Case) : nodesOf cases = cases.flatMap nodes := by
  induction cases with
  | nil => rfl
  | cons c cases ih => rw [nodesOf, ih, List.flatMap_cons]

theorem Member.nodesOf_eq (ms : List Member) : nodesOf ms = ms.flatMap nodes := by
  induction ms with
  | nil => rfl
  | cons m ms ih => rw [nodesOf, ih, List.flatMap_cons]

namespace Construct

theorem nodes_expr (e : Expr) : e.nodes = ⟨e.kind, e.span⟩ :: e.parts.flatMap Expr.nodes := by
  cases e <;> simp [Expr.nodes, Expr.parts, Expr.kind, Expr.span, Expr.nodesOf_eq]

/-- The nodes of a construct are its own one and those of its parts. -/
theorem nodes_eq (c : Construct) : c.nodes = c.node?.toList ++ c.parts.flatMap nodes := by
  cases c with
  | expr e => simp [nodes, node?, parts, held, behind, nodes_expr e, List.flatMap_map]
  | stmt s =>
      cases s with
      | conditional condition yes no =>
          cases no <;> simp [nodes, node?, parts, held, behind, Stmt.nodes, Stmt.nodesOf_eq,
            List.flatMap_map]
      | giveBack span value =>
          cases value <;> simp [nodes, node?, parts, held, behind, Stmt.nodes, optionalNodes]
      | classDecl decl =>
          obtain ⟨name, above, members, span⟩ := decl
          cases above <;> simp [nodes, node?, parts, held, behind, Stmt.nodes, ClassDecl.nodes,
            Member.nodesOf_eq, List.flatMap_map]
      | _ =>
          simp [nodes, node?, parts, held, behind, Stmt.nodes, Stmt.nodesOf_eq, Expr.nodesOf_eq,
            Case.nodesOf_eq, List.flatMap_map]
  | arm c =>
      obtain ⟨test, body⟩ := c
      cases test <;> simp [nodes, node?, parts, held, behind, Case.nodes, optionalNodes,
        Stmt.nodesOf_eq, List.flatMap_map]
  | routine decl =>
      obtain ⟨kind, name, params, body, span⟩ := decl
      simp [nodes, node?, parts, held, behind, RoutineDecl.nodes, Stmt.nodesOf_eq, List.flatMap_map]
  | member m => cases m <;> simp [nodes, node?, parts, held, behind, Member.nodes, Member.span]
  | parent span => rfl

theorem mem_nodes_iff {c : Construct} {n : Node} :
    n ∈ c.nodes ↔ c.node? = some n ∨ ∃ d ∈ c.parts, n ∈ d.nodes := by
  rw [nodes_eq, List.mem_append, Option.mem_toList, List.mem_flatMap]

theorem Within.of_part {c d e : Construct} (inside : d.Within e) (mem : d ∈ c.parts) : c.Within e := by
  induction inside with
  | self => exact .part .self mem
  | part _ mem' ih => exact .part ih mem'

theorem Within.cases_head {c e : Construct} (within : c.Within e) :
    e = c ∨ ∃ d ∈ c.parts, d.Within e := by
  induction within with
  | self => exact .inl rfl
  | @part d e _ mem ih =>
      rcases ih with rfl | ⟨first, mem', inside⟩
      · exact .inr ⟨e, mem, .self⟩
      · exact .inr ⟨first, mem', .part inside mem⟩

end Construct

/-! ### Rows of tokens -/

/-- A span from the start of one token of a row to the end of another one. -/
def Span.EndsIn (s : Span) (us : List Token) : Prop :=
  s.start < s.stop ∧ (∃ t ∈ us, s.start = t.span.start) ∧ ∃ u ∈ us, s.stop = u.span.stop

/-- A construct that was read from a row of tokens. -/
structure Construct.Laid (us : List Token) (c : Construct) : Prop where
  ends : ∀ n ∈ c.nodes, n.span.EndsIn us
  orderly : ∀ d, c.Within d → d.Orderly

/-- Constructs that were read from a row of tokens one after the other. -/
inductive InTurn : List Token → List Construct → Prop where
  | nil (us : List Token) : InTurn us []
  | cons {before us after : List Token} {c : Construct} {cs : List Construct} (first : c.Laid us)
      (rest : InTurn after cs) : InTurn (before ++ (us ++ after)) (c :: cs)

section

variable {us vs : List Token} {s : Span} {c : Construct} {cs ds : List Construct}

theorem Span.EndsIn.mono (ends : s.EndsIn us) (part : us ⊆ vs) : s.EndsIn vs := by
  obtain ⟨nonempty, ⟨t, mem, start⟩, u, mem', stop⟩ := ends
  exact ⟨nonempty, ⟨t, part mem, start⟩, u, part mem', stop⟩

theorem Construct.Laid.mono (laid : c.Laid us) (part : us ⊆ vs) : c.Laid vs :=
  ⟨fun n mem => (laid.ends n mem).mono part, laid.orderly⟩

theorem InOrder.lead (ordered : InOrder (us ++ vs)) : InOrder us :=
  ordered.sublist (List.sublist_append_left us vs)

theorem InOrder.behind (us : List Token) (ordered : InOrder (us ++ vs)) : InOrder vs :=
  ordered.sublist (List.sublist_append_right us vs)

/-- The span of a row goes around all its tokens. -/
theorem Spans.around (spans : Spans us s) (ordered : InOrder us) :
    ∀ t ∈ us, s.start ≤ t.span.start ∧ t.span.stop ≤ s.stop := by
  intro t mem
  obtain ⟨first, last, head, final, rfl⟩ := spans
  constructor
  · obtain ⟨rest, rfl⟩ := List.head?_eq_some_iff.mp head
    rcases List.mem_cons.mp mem with rfl | later
    · exact Nat.le_refl _
    · have nonempty := ordered.each first List.mem_cons_self
      have before := (List.pairwise_cons.mp ordered.apart).1 t later
      exact Nat.le_trans (Nat.le_of_lt nonempty) before
  · obtain ⟨init, rfl⟩ := List.getLast?_eq_some_iff.mp final
    rcases List.mem_append.mp mem with earlier | here
    · have nonempty := ordered.each last (by simp)
      have before := (List.pairwise_append.mp ordered.apart).2.2 t earlier last (by simp)
      exact Nat.le_trans before (Nat.le_of_lt nonempty)
    · rw [List.mem_singleton.mp here]

theorem Spans.of_ends {t u : Token} (ordered : InOrder us) (head : us.head? = some t)
    (final : us.getLast? = some u) : Spans us (t.span.merge u.span) := by
  have spans : Spans us ⟨t.span.start, u.span.stop⟩ := ⟨t, u, head, final, rfl⟩
  have first := spans.around ordered t (List.mem_of_mem_head? head)
  have last := spans.around ordered u (List.mem_of_mem_getLast? final)
  have same : t.span.merge u.span = ⟨t.span.start, u.span.stop⟩ := by
    dsimp only at first last
    simp only [Span.merge, Span.mk.injEq]
    omega
  rwa [same]

theorem Spans.endsIn (spans : Spans us s) (ordered : InOrder us) : s.EndsIn us := by
  have around := spans.around ordered
  obtain ⟨t, u, head, final, rfl⟩ := spans
  have first := List.mem_of_mem_head? head
  refine ⟨?_, ⟨t, first, rfl⟩, u, List.mem_of_mem_getLast? final, rfl⟩
  exact Nat.lt_of_lt_of_le (ordered.each t first) (around t first).2

/-- What ends in a row lies in the span of the row. -/
theorem Span.EndsIn.inside {r : Span} (ends : r.EndsIn us) (spans : Spans us s)
    (ordered : InOrder us) : s.start ≤ r.start ∧ r.stop ≤ s.stop := by
  obtain ⟨-, ⟨t, mem, start⟩, u, mem', stop⟩ := ends
  rw [start, stop]
  exact ⟨(spans.around ordered t mem).1, (spans.around ordered u mem').2⟩

theorem Span.EndsIn.before {r : Span} (ends : s.EndsIn us) (ends' : r.EndsIn vs)
    (ordered : InOrder (us ++ vs)) : s.stop ≤ r.start := by
  obtain ⟨-, -, t, mem, stop⟩ := ends
  obtain ⟨-, ⟨u, mem', start⟩, -⟩ := ends'
  rw [stop, start]
  exact (List.pairwise_append.mp ordered.apart).2.2 t mem u mem'

namespace InTurn

theorem one (laid : c.Laid us) : InTurn us [c] := by
  have turn : InTurn ([] ++ (us ++ [])) [c] := .cons laid (.nil [])
  rwa [List.append_nil, List.nil_append] at turn

theorem follow (before : List Token) (turn : InTurn us cs) : InTurn (before ++ us) cs := by
  cases turn with
  | nil => exact .nil _
  | cons first rest =>
      rw [← List.append_assoc]
      exact .cons first rest

theorem append (turn : InTurn us cs) (turn' : InTurn vs ds) : InTurn (us ++ vs) (cs ++ ds) := by
  induction turn with
  | nil us => exact turn'.follow us
  | cons first _ ih =>
      rw [List.append_assoc, List.append_assoc]
      exact .cons first ih

/-- Tokens behind the last construct do not matter. -/
theorem lead (turn : InTurn us cs) (after : List Token) : InTurn (us ++ after) cs := by
  have longer := turn.append (.nil after)
  rwa [List.append_nil] at longer

theorem laid (turn : InTurn us cs) : ∀ d ∈ cs, d.Laid us := by
  induction turn with
  | nil => exact List.forall_mem_nil _
  | @cons before us after c cs first _ ih =>
      intro d mem
      rcases List.mem_cons.mp mem with rfl | later
      · exact first.mono (by simp)
      · exact (ih d later).mono (by simp)

theorem pairwise (turn : InTurn us cs) (ordered : InOrder us) : cs.Pairwise Construct.Precedes := by
  induction turn with
  | nil => exact .nil
  | @cons before us after c cs first rest ih =>
      have row : InOrder (us ++ after) := ordered.sublist (by simp)
      apply List.pairwise_cons.mpr
      constructor
      · intro d mem n inner m inner'
        exact (first.ends n inner).before ((rest.laid d mem).ends m inner') row
      · exact ih (row.sublist (by simp))

end InTurn

/-! ### Constructs from their parts -/

namespace Construct

theorem Laid.of_parts (own : ∀ s ∈ c.span?, s.EndsIn us) (parts : ∀ d ∈ c.parts, d.Laid us)
    (orderly : c.Orderly) : c.Laid us := by
  constructor
  · intro n mem
    rcases mem_nodes_iff.mp mem with here | ⟨d, part, inside⟩
    · exact own n.span (by rw [span?, here]; rfl)
    · exact (parts d part).ends n inside
  · intro d within
    rcases within.cases_head with rfl | ⟨e, part, inside⟩
    · exact orderly
    · exact (parts e part).orderly d inside

/-- A construct of which the parts were read in turn: in the row of its span, or behind it. -/
theorem Laid.of_inTurn (ordered : InOrder (us ++ vs)) (whole : ∀ s ∈ c.span?, Spans us s)
    (held : InTurn us c.held) (behind : InTurn vs c.behind) : c.Laid (us ++ vs) := by
  have row : InOrder us := ordered.sublist (by simp)
  apply Laid.of_parts
  case own => exact fun s mem => ((whole s mem).endsIn row).mono (by simp)
  case parts => exact (held.append behind).laid
  constructor
  case held => exact fun s mem d part n inside =>
    ((held.laid d part).ends n inside).inside (whole s mem) row
  case behind => exact fun s mem d part n inside =>
    ((whole s mem).endsIn row).before ((behind.laid d part).ends n inside) ordered
  case inTurn => exact fun _ => (held.append behind).pairwise ordered

theorem Laid.of_held (ordered : InOrder us) (whole : ∀ s ∈ c.span?, Spans us s)
    (held : InTurn us c.held) (only : c.behind = []) : c.Laid us := by
  rw [← List.append_nil us] at ordered ⊢
  exact .of_inTurn ordered whole held (only ▸ .nil [])

theorem Laid.part {d : Construct} (laid : c.Laid us) (mem : d ∈ c.parts) : d.Laid us where
  ends n inside := laid.ends n (mem_nodes_iff.mpr (.inr ⟨d, mem, inside⟩))
  orderly e inside := laid.orderly e (inside.of_part mem)

/-- An expression of which the parts were read from the row of its span. -/
theorem Laid.of_expr {e : Expr} (ordered : InOrder us) (whole : Spans us e.span)
    (parts : ∀ d ∈ (expr e).parts, d.Laid us)
    (inTurn : (∀ s object i, expr e ≠ .expr (.index s object i)) → (expr e).parts.Pairwise Precedes) :
    (expr e).Laid us := by
  apply Laid.of_parts
  case own =>
    rintro _ ⟨⟩
    exact whole.endsIn ordered
  case parts => exact parts
  constructor
  case held =>
    rintro _ ⟨⟩ d mem n inside
    have here := parts d (List.mem_append_left _ mem)
    exact (here.ends n inside).inside whole ordered
  case behind => exact fun _ _ d mem => nomatch mem
  case inTurn => exact inTurn

/-- Parentheses around an expression give it a wider span. -/
theorem Laid.withSpan {e : Expr} (laid : (expr e).Laid us) (part : us ⊆ vs) (ordered : InOrder vs)
    (whole : Spans vs s) : (expr (e.withSpan s)).Laid vs := by
  have parts : (expr (e.withSpan s)).parts = (expr e).parts := by
    simp [Construct.parts, held, behind]
  apply Laid.of_expr ordered
  · rwa [Expr.span_withSpan]
  · intro d mem
    rw [parts] at mem
    exact (laid.part mem).mono part
  · intro other
    rw [parts]
    apply (laid.orderly _ .self).inTurn
    rintro r object i same
    cases same
    exact other s object i rfl

/-- An index. Its object may have the same span. -/
theorem Laid.index {object i : Expr} (inner : (expr object).Laid us) (place : (expr i).Laid us)
    (ordered : InOrder us) (whole : Spans us s) : (expr (.index s object i)).Laid us := by
  apply Laid.of_expr (e := .index s object i) ordered whole
  · intro d mem
    rcases List.mem_pair.mp mem with rfl | rfl
    · exact inner
    · exact place
  · exact fun other => absurd rfl (other s object i)

theorem Laid.indexed {object : Expr} (inner : (expr object).Laid us) {is : List Expr}
    (places : ∀ i ∈ is, (expr i).Laid us) (ordered : InOrder us) (whole : Spans us s) :
    (expr (object.indexed s is)).Laid us := by
  induction is generalizing object with
  | nil => exact inner
  | cons i is ih =>
      obtain ⟨place, places⟩ := List.forall_mem_cons.mp places
      exact ih (.index inner place ordered whole) places

end Construct

end

end Pseudocode

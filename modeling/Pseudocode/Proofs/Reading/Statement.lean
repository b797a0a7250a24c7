import Pseudocode.Proofs.Parsed.Statement
import Pseudocode.Proofs.Reading.Expression

/-!
Reading the text of a statement.

Statements have no separators, so how one is read depends on the token after it.
`Stmt.Before` is what this token must be like; a tidy block provides it between
its statements, and the word that closes the block after the last one.
-/

namespace Pseudocode

namespace Parser

open Stmt

variable {strict : Bool} {depth b : Nat}

/-! ### Between statements -/

/-- Tokens that can start a statement: they end no block, and they end an
expression before them unless they could also go on with it. -/
def Opens (k : TokenKind) : Prop := endsBlock k = false ∧ (k.glues = false → Stops 0 k)

/-- Tokens before which a statement is read to its end. -/
def Before (k : TokenKind) : Stmt → Prop
  | .giveBack _ none => endsBlock k = true
  | .declare .. | .giveBack _ (some _) | .untilLoop .. | .expression _ => Stops 0 k
  | _ => True

theorem before_of_leaves {s : Stmt} {k : TokenKind} (leaves : s.Leaves k)
    (stops : k.glues = false → Stops 0 k) : Before k s := by
  unfold Before
  split
  · exact leaves
  all_goals first | exact stops leaves | trivial

theorem stops_of_endsBlock {k : TokenKind} (ends : endsBlock k = true) : Stops 0 k := by
  refine stops_of_none ?_ 0
  unfold TokenKind.follow?
  split <;> first | cases ends | rfl

/-- A word that closes a block can stand after every statement. -/
theorem before_of_endsBlock {s : Stmt} {k : TokenKind} (ends : endsBlock k = true) : Before k s := by
  unfold Before
  split <;> first | exact ends | exact stops_of_endsBlock ends | trivial

theorem opens_of_lead {k : TokenKind} {m : Nat} (lead : k.lead? = some m) : Opens k := by
  unfold TokenKind.lead? at lead
  split at lead <;> first
    | exact ⟨rfl, fun _ => stops_of_none rfl 0⟩
    | exact ⟨rfl, nofun⟩
    | cases lead

/-- A statement that is read from its own text. -/
structure LegibleStmt (strict : Bool) (s : Stmt) : Prop where
  opens : ∀ k, Opens (firstKind (s.pieces strict) k)
  reads : ∀ depth, (s.pieces strict).length + 3 ≤ depth →
    Reads (statement (block depth) depth) (s.pieces strict) (Before · s) pure
      fun s' => s'.bare = s.bare

theorem LegibleStmt.length_pos {s : Stmt} (legible : LegibleStmt strict s) :
    0 < (s.pieces strict).length := by
  rw [List.length_pos_iff]
  intro nil
  have opens := legible.opens .endOfInput
  rw [nil] at opens
  cases opens.1

/-- The start of a statement does not depend on what stands after it. -/
theorem LegibleStmt.firstKind_eq {s : Stmt} (legible : LegibleStmt strict s) (k k' : TokenKind) :
    firstKind (s.pieces strict) k = firstKind (s.pieces strict) k' := by
  cases eq : s.pieces strict with
  | nil =>
      have start := legible.length_pos
      rw [eq] at start
      cases start
  | cons p ps => rfl

/-- What stands after an expression that a block is apart from. -/
theorem stops_of_apart {body : List Stmt} (apart : Apart strict body)
    (each : ∀ s ∈ body, LegibleStmt strict s) {k : TokenKind} (ends : endsBlock k = true) :
    Stops 0 (firstKind (piecesOf strict body) k) := by
  cases body with
  | nil => exact stops_of_endsBlock ends
  | cons s body =>
      have legible := each s List.mem_cons_self
      rw [Stmt.piecesOf, firstKind_append, legible.firstKind_eq _ .endOfInput]
      exact (legible.opens _).2 apart.head

/-! ### Blocks -/

/-- The closing words of a block, as the tokens after it. -/
def Closes (closers : List Keyword) (k : TokenKind) : Prop := ∃ closer ∈ closers, k = .keyword closer

/-- A parser that reads the statements of a block from their text. -/
def ReadsBlock (strict : Bool) (block : BlockParser) (body : List Stmt) : Prop :=
  ∀ closers opener, (∀ k ∈ closers, endsBlock (.keyword k) = true) →
    Reads (block closers opener) (piecesOf strict body) (Closes closers) pure
      fun body' => bareOf body' = bareOf body

theorem before_of_tidy {s : Stmt} {body : List Stmt} (tidy : Tidy strict (s :: body))
    (each : ∀ s ∈ body, LegibleStmt strict s) {k : TokenKind} (ends : endsBlock k = true) :
    Before (firstKind (piecesOf strict body) k) s := by
  cases body with
  | nil => exact before_of_endsBlock ends
  | cons s' body =>
      have legible := each s' List.mem_cons_self
      rw [Stmt.piecesOf, firstKind_append, legible.firstKind_eq _ .endOfInput]
      exact before_of_leaves (List.isChain_cons_cons.mp tidy).1 (legible.opens _).2

theorem block_reads {body : List Stmt} (tidy : Tidy strict body)
    (each : ∀ s ∈ body, LegibleStmt strict s)
    (fits : (piecesOf strict body).length + 4 ≤ depth) : ReadsBlock strict (block depth) body := by
  induction body generalizing depth with
  | nil =>
      intro closers opener ends
      obtain ⟨depth, rfl⟩ : ∃ n, depth = n + 1 := ⟨depth - 1, by omega⟩
      rw [block]
      refine .peekKind ?_
      rintro t k ⟨closer, mem, rfl⟩ kind
      have closes : (closers.any fun k => t.kind == .keyword k) = true :=
        List.any_eq_true.mpr ⟨closer, mem, by rw [kind]; exact beq_self_eq_true _⟩
      rw [if_pos closes]
      exact .gives rfl
  | cons s body ih =>
      intro closers opener ends
      have legible := each s List.mem_cons_self
      have start := legible.length_pos
      rw [Stmt.piecesOf, List.length_append] at fits
      obtain ⟨depth, rfl⟩ : ∃ n, depth = n + 1 := ⟨depth - 1, by omega⟩
      rw [block, Stmt.piecesOf]
      refine .peekKind fun t k _ kind => ?_
      have opens : endsBlock t.kind = false := by
        rw [kind, firstKind_append]
        exact (legible.opens _).1
      have open_ : ¬ (closers.any fun k => t.kind == .keyword k) = true := by
        intro closes
        obtain ⟨closer, mem, eq⟩ := List.any_eq_true.mp closes
        rw [beq_iff_eq.mp eq, ends closer mem] at opens
        cases opens
      rw [if_neg open_, if_neg (by rw [opens]; decide)]
      have rest : ReadsBlock strict (block depth) body :=
        ih tidy.of_cons (fun s mem => each s (List.mem_cons_of_mem _ mem)) (by omega)
      refine (legible.reads depth (by omega)).andThen ?_ fun s' same => ?_
      · rintro k ⟨closer, mem, rfl⟩
        exact before_of_tidy tidy (fun s mem => each s (List.mem_cons_of_mem _ mem)) (ends closer mem)
      · refine ((rest closers opener ends).bind _).finish (fun _ closes => closes) fun body' same' => .gives ?_
        rw [Stmt.bareOf, Stmt.bareOf, same, same']

/-! ### Statements without blocks -/

theorem opens_keyword {k : Keyword} (opens : endsBlock (.keyword k) = false)
    (ends : (TokenKind.keyword k).follow? = none) : Opens (.keyword k) :=
  ⟨opens, fun _ => stops_of_none ends 0⟩

theorem legible_declare (span : Span) (name : String) {value : Expr} (regular : value.Regular) :
    LegibleStmt strict (.declare span name value) := by
  refine ⟨fun _ => opens_keyword rfl rfl, ?_⟩
  intro depth fits
  simp only [Stmt.pieces, List.length_cons] at fits
  have reads : Reads (expression depth) (value.pieces strict) (Stops 0) pure (Same value) :=
    (legible_of_regular regular).reads (by omega)
  rw [statement, Stmt.pieces]
  refine .peek fun t spells => ?_
  rw [spells.kind_eq]
  refine .eat fun keyword _ => .expect rfl ?_
  rintro t ⟨_, rfl⟩
  refine .expect rfl fun _ _ => ?_
  refine (reads.bind _).finish (fun _ stops => stops) fun value' same => .gives ?_
  rw [Stmt.bare, Stmt.bare, same]

theorem legible_array (span : Span) (name : String) {dimensions : List Expr} (some : dimensions ≠ [])
    (each : ∀ d ∈ dimensions, d.Regular) : LegibleStmt strict (.array span name dimensions) := by
  refine ⟨fun _ => opens_keyword rfl rfl, ?_⟩
  intro depth fits
  simp only [Stmt.pieces, List.length_cons, List.length_append, List.length_nil] at fits
  have items (e : Expr) (mem : e ∈ dimensions) :
      Reads (expression depth) (e.pieces strict) (Stops 0) pure (Same e) := by
    have le := length_le_commas (List.mem_map_of_mem (f := Expr.pieces strict) mem)
    exact (legible_of_regular (each e mem)).reads (by omega)
  have count := count_le_commas (dimensions.map (Expr.pieces strict))
  rw [List.length_map] at count
  rw [statement, Stmt.pieces]
  refine .peek fun t spells => ?_
  rw [spells.kind_eq]
  refine .eat fun keyword _ => .expect rfl ?_
  rintro t ⟨_, rfl⟩
  refine .expect rfl fun _ _ => ?_
  refine (commaSeparated_reads some items (by omega)).andThen
    (fun _ _ => endsItems_symbol rfl (by decide)) fun dimensions' same => ?_
  refine .expect rfl fun close _ => .gives ?_
  rw [Stmt.bare, Stmt.bare, same]

theorem legible_giveBack (span : Span) {value : Option Expr} (regular : ∀ e ∈ value, e.Regular) :
    LegibleStmt strict (.giveBack span value) := by
  cases value with
  | none =>
      refine ⟨fun _ => opens_keyword rfl rfl, ?_⟩
      intro depth _
      rw [statement, Stmt.pieces]
      refine .peek fun t spells => ?_
      rw [spells.kind_eq]
      refine .eat fun keyword _ => .peekKind fun t k ends kind => ?_
      have ends' : endsBlock t.kind = true := kind ▸ ends
      rw [if_pos ends']
      exact .gives rfl
  | some value =>
      have legible : Legible strict value := legible_of_regular (regular value rfl)
      refine ⟨fun _ => opens_keyword rfl rfl, ?_⟩
      intro depth fits
      simp only [Stmt.pieces, List.length_cons] at fits
      rw [statement, Stmt.pieces]
      refine .peek fun t spells => ?_
      rw [spells.kind_eq]
      refine .eat fun keyword _ => .peekKind fun t k ends kind => ?_
      have opens : endsBlock t.kind = false := by
        obtain ⟨m, lead, _⟩ := legible.begins k
        rw [kind]
        exact (opens_of_lead lead).1
      rw [if_neg (by rw [opens]; decide)]
      refine ((legible.reads (by omega)).bind _).finish (fun _ stops => stops)
        fun value' same => .gives ?_
      rw [Stmt.bare, Stmt.bare, Option.map_some, Option.map_some, same]

/-- Where a statement may start, pieces of an expression are read as one. -/
theorem ReadsAs.statement {ps : List Piece} {e : Expr} (read : ReadsAs ps 0 e) {block : BlockParser}
    (fits : ps.length + 3 ≤ depth) :
    Reads (statement block depth) ps (Stops 0) pure fun s => ∃ e', s = .expression e' ∧ Same e e' := by
  rw [Parser.statement]
  refine .peekKind fun t k _ kind => ?_
  obtain ⟨m, lead, _⟩ := read.head k
  rw [← kind] at lead
  have reads : Reads (expression depth >>= fun e => pure (Stmt.expression e)) ps (Stops 0) pure
      fun s => ∃ e', s = .expression e' ∧ Same e e' :=
    ((read.nested fits).bind _).finish (fun _ stops => stops) fun e' same => .gives ⟨e', rfl, same⟩
  generalize t.kind = kind at lead
  unfold TokenKind.lead? at lead
  split at lead <;> first | exact reads | cases lead

theorem legible_expression {e : Expr} (regular : e.Regular) : LegibleStmt strict (.expression e) := by
  have legible : Legible strict e := legible_of_regular regular
  constructor
  · intro k
    obtain ⟨m, lead, _⟩ := legible.begins k
    exact opens_of_lead lead
  · intro depth fits
    rw [Stmt.pieces] at fits ⊢
    refine (legible.readsAs_zero.statement fits).imp (fun _ stops => stops) ?_
    rintro _ ⟨e', rfl, same⟩
    rw [Stmt.bare, Stmt.bare, same]

/-! ### Routines -/

theorem parameters_read {routine : String} {params : List String} (some : params ≠ [])
    {earlier : List String} (distinct : (earlier ++ params).Nodup) (fits : params.length ≤ b) :
    Reads (parameters routine b earlier) (commas (params.map fun param => [.name param]))
      (· ≠ .symbol .comma) pure (· = earlier ++ params) := by
  induction params generalizing b earlier with
  | nil => exact absurd rfl some
  | cons param params ih =>
      rw [List.length_cons] at fits
      obtain ⟨b, rfl⟩ : ∃ n, b = n + 1 := ⟨b - 1, by omega⟩
      have new : earlier.contains param = false := by
        rw [List.contains_eq_mem, decide_eq_false_iff_not]
        intro mem
        exact (List.nodup_append.mp distinct).2.2 param mem param List.mem_cons_self rfl
      have again : earlier ++ param :: params = (earlier ++ [param]) ++ params := by simp
      rw [parameters]
      cases params with
      | nil =>
          refine .expect rfl ?_
          rintro t ⟨_, rfl⟩
          rw [if_neg (by rw [new]; decide)]
          exact .nextIs false (fun k other => beq_eq_false_iff_ne.mpr other) (.gives rfl)
      | cons param₁ params =>
          refine .expect rfl ?_
          rintro t ⟨_, rfl⟩
          rw [if_neg (by rw [new]; decide)]
          refine .nextIs true (fun _ _ => rfl) (.eat fun _ _ => ?_)
          rw [again]
          exact ih (by simp) (again ▸ distinct) (Nat.le_of_succ_le_succ fits)

theorem routineName_reads (name : String) :
    Reads routineName [routineNamePiece name] (fun _ => True) pure (· = name) := by
  rw [routineName]
  by_cases new : name = Keyword.new.text
  · rw [routineNamePiece, if_pos new]
    refine .nextIs true (fun _ _ => rfl) (.eat ?_)
    rintro t ⟨_, value⟩
    exact .gives (value.trans new.symm)
  · rw [routineNamePiece, if_neg new]
    refine .nextIs false (fun _ _ => rfl) (.expect rfl ?_)
    rintro t ⟨_, value⟩
    exact .gives value

theorem routineName_then {α β : Type} {name : String} {f : String → Parser β} {ps : List Piece}
    {Q : TokenKind → Prop} {q : α → Parser β} {R : α → Prop} (rest : Reads (f name) ps Q q R) :
    Reads (routineName >>= f) (routineNamePiece name :: ps) Q q R := by
  have both : Reads (routineName >>= f) ([routineNamePiece name] ++ ps) Q q R := by
    refine (routineName_reads name).andThen (fun _ _ => trivial) ?_
    rintro name rfl
    exact rest
  exact both

theorem routineKind_opener (kind : RoutineKind) : routineKind (.keyword kind.opener) = kind := by
  cases kind <;> rfl

theorem endsBlock_closer (kind : RoutineKind) : endsBlock (.keyword kind.closer) = true := by
  cases kind <;> rfl

theorem routineRest_reads {decl : RoutineDecl} {keyword : Token} (kind : keyword.kind = .keyword decl.kind.opener)
    {block : BlockParser} (body : ReadsBlock strict block decl.body) :
    Reads (routineRest block keyword decl.name decl.params)
      (.symbol .closeParen :: (piecesOf strict decl.body ++ [.keyword decl.kind.closer]))
      (fun _ => True) pure fun decl' => decl'.bare = decl.bare := by
  rw [routineRest, kind, routineKind_opener]
  refine .expect rfl fun _ _ => ?_
  have closed : ∀ k ∈ [decl.kind.closer], endsBlock (.keyword k) = true := by
    intro k mem
    rw [List.mem_singleton.mp mem]
    exact endsBlock_closer decl.kind
  refine (body [decl.kind.closer] keyword closed).andThen
    (fun _ _ => ⟨decl.kind.closer, List.mem_singleton_self _, rfl⟩) fun body' same => ?_
  refine .expect rfl fun close _ => .gives ?_
  cases decl
  rw [RoutineDecl.bare, RoutineDecl.bare, same]

/-- What a routine needs in order to be read from its text. -/
structure LegibleRoutine (strict : Bool) (decl : RoutineDecl) : Prop where
  distinct : decl.params.Nodup
  tidy : Tidy strict decl.body
  each : ∀ s ∈ decl.body, LegibleStmt strict s

theorem routine_reads {decl : RoutineDecl} (legible : LegibleRoutine strict decl)
    (fits : (decl.pieces strict).length + 2 ≤ depth) :
    Reads (routine (block depth) depth) (decl.pieces strict) (fun _ => True) pure
      fun decl' => decl'.bare = decl.bare := by
  have eq : decl.pieces strict = .keyword decl.kind.opener :: routineNamePiece decl.name ::
      .symbol .openParen :: (commas (decl.params.map fun param => [.name param]) ++
        .symbol .closeParen :: (piecesOf strict decl.body ++ [.keyword decl.kind.closer])) := by
    cases decl
    rfl
  rw [eq] at fits ⊢
  simp only [List.length_cons, List.length_append, List.length_nil] at fits
  have count := count_le_commas (decl.params.map fun param => [Piece.name param])
  rw [List.length_map] at count
  have body : ReadsBlock strict (block depth) decl.body :=
    block_reads legible.tidy legible.each (by omega)
  rw [routine_eq]
  refine .eat fun keyword spells => ?_
  have rest := routineRest_reads spells.kind_eq body
  refine routineName_then (.expect rfl fun _ _ => ?_)
  by_cases none : decl.params = []
  · rw [none] at rest ⊢
    exact .nextIs true (fun _ _ => rfl) rest
  · refine .nextIs false ?_ ?_
    · intro k _
      cases eq : decl.params with
      | nil => exact absurd eq none
      | cons param params => cases params <;> rfl
    · have params : Reads (parameters decl.name depth []) _ (· ≠ .symbol .comma) pure
          (· = decl.params) := parameters_read none legible.distinct (by omega)
      refine params.andThen (fun _ _ => mt TokenKind.symbol.inj (by decide)) ?_
      rintro params rfl
      exact rest

theorem opens_opener (kind : RoutineKind) : Opens (.keyword kind.opener) := by
  cases kind <;> exact opens_keyword rfl rfl

theorem legible_routine {decl : RoutineDecl} (legible : LegibleRoutine strict decl) :
    LegibleStmt strict (.routine decl) := by
  constructor
  · intro k
    cases decl
    exact opens_opener _
  · intro depth fits
    rw [Stmt.pieces] at fits ⊢
    have reads : Reads (routine (block depth) depth >>= fun decl => pure (Stmt.routine decl))
        (decl.pieces strict) (fun _ => True) pure fun s' => s'.bare = (Stmt.routine decl).bare := by
      refine ((routine_reads legible (by omega)).bind _).finish (fun _ _ => trivial)
        fun decl' same => .gives ?_
      rw [Stmt.bare, Stmt.bare, same]
    rw [statement]
    refine .peekKind fun t k _ kind => ?_
    have eq : t.kind = .keyword decl.kind.opener := by
      rw [kind]
      cases decl
      rfl
    rw [eq]
    cases decl.kind <;> exact reads

/-! ### Classes -/

theorem visibility?_keyword (visibility : Visibility) :
    visibility? (.keyword visibility.keyword) = some visibility := by
  cases visibility <;> rfl

theorem member_reads {m : Member} {modifier : Token} {ps : List Piece}
    (legible : ∀ r ∈ m.routine?, LegibleRoutine strict r)
    (eq : m.pieces strict = .keyword m.visibility.keyword :: ps) (fits : ps.length + 2 ≤ depth) :
    Reads (member (block depth) depth m.visibility modifier) ps (fun _ => True) pure
      fun m' => m'.bare = m.bare := by
  cases m with
  | field visibility span name =>
      obtain rfl : [.name name] = ps := (List.cons.inj eq).2
      rw [member]
      refine .peek fun t spells => ?_
      rw [spells.kind_eq]
      refine .eat ?_
      rintro t ⟨_, rfl⟩
      exact .gives rfl
  | method visibility span decl =>
      obtain rfl : decl.pieces strict = ps := (List.cons.inj eq).2
      have reads : Reads (routine (block depth) depth >>= fun decl =>
          pure (Member.method visibility (modifier.span.merge decl.span) decl))
          (decl.pieces strict) (fun _ => True) pure
          fun m' => m'.bare = (Member.method visibility span decl).bare := by
        refine ((routine_reads (legible decl rfl) (by omega)).bind _).finish (fun _ _ => trivial)
          fun decl' same => .gives ?_
        rw [Member.bare, Member.bare, same]
      rw [member]
      refine .peekKind fun t k _ kind => ?_
      have eq : t.kind = .keyword decl.kind.opener := by
        rw [kind]
        cases decl
        rfl
      rw [eq]
      cases decl.kind <;> exact reads

/-- One member is read by one round of the loop over members. -/
theorem member_round {keyword : Token} {className : String} {m : Member} {earlier : List Member}
    {n : Nat} (legible : ∀ r ∈ m.routine?, LegibleRoutine strict r)
    (new : ∀ e ∈ earlier, e.name ≠ m.name) (fits : (m.pieces strict).length + 1 ≤ depth) :
    Reads (members (block depth) depth keyword className (n + 1) earlier) (m.pieces strict)
      (fun _ => True) (fun m' => members (block depth) depth keyword className n (earlier ++ [m']))
      fun m' => m'.bare = m.bare := by
  obtain ⟨ps, eq⟩ : ∃ ps, m.pieces strict = .keyword m.visibility.keyword :: ps := by
    cases m <;> exact ⟨_, rfl⟩
  rw [eq] at fits ⊢
  rw [List.length_cons] at fits
  rw [members]
  refine .peek fun t spells => ?_
  have kind : visibility? t.kind = some m.visibility := by
    rw [spells.kind_eq]
    exact visibility?_keyword m.visibility
  rw [kind]
  refine .eat fun _ _ => ?_
  refine ((member_reads legible eq (by omega)).bind _).finish (fun _ _ => trivial) fun m' same => ?_
  have name : m'.name = m.name := by rw [← m'.name_bare, same, m.name_bare]
  have fresh : ¬ (earlier.any fun e => e.name == m'.name) = true := by
    simpa [name] using new
  rw [if_neg fresh]
  exact .done (q := fun m' => members (block depth) depth keyword className n (earlier ++ [m'])) same

theorem length_member (m : Member) : 0 < (m.pieces strict).length := by
  cases m <;> simp [Member.pieces]

theorem members_read {keyword : Token} {className : String} {ms : List Member}
    (legible : ∀ m ∈ ms, ∀ r ∈ m.routine?, LegibleRoutine strict r) {earlier : List Member}
    (distinct : ((earlier ++ ms).map Member.name).Nodup)
    (deep : (Member.piecesOf strict ms).length + 1 ≤ depth)
    (fits : (Member.piecesOf strict ms).length < b) :
    Reads (members (block depth) depth keyword className b earlier) (Member.piecesOf strict ms)
      (· = .keyword .endClass) pure
      fun ms' => ∃ read, ms' = earlier ++ read ∧ Member.bareOf read = Member.bareOf ms := by
  induction ms generalizing b earlier with
  | nil =>
      obtain ⟨b, rfl⟩ : ∃ n, b = n + 1 := ⟨b - 1, by omega⟩
      rw [members]
      refine .peekKind ?_
      rintro t _ rfl kind
      rw [kind]
      exact .gives ⟨[], (List.append_nil _).symm, rfl⟩
  | cons m ms ih =>
      have some : 0 < (m.pieces strict).length := length_member m
      rw [Member.piecesOf, List.length_append] at deep fits
      obtain ⟨b, rfl⟩ : ∃ n, b = n + 1 := ⟨b - 1, by omega⟩
      have new : ∀ e ∈ earlier, e.name ≠ m.name := by
        rw [List.map_append, List.map_cons] at distinct
        intro e mem
        exact (List.nodup_append.mp distinct).2.2 e.name (List.mem_map_of_mem mem) m.name
          List.mem_cons_self
      rw [Member.piecesOf]
      refine (member_round (legible m List.mem_cons_self) new (by omega)).trans (fun _ _ => trivial)
        fun m' same => ?_
      have name : m'.name = m.name := by rw [← m'.name_bare, same, m.name_bare]
      have rest : Reads (members (block depth) depth keyword className b (earlier ++ [m'])) _ _ pure _ :=
        ih (fun m mem => legible m (List.mem_cons_of_mem _ mem)) (by simpa [name] using distinct)
          (by omega) (by omega)
      refine rest.imp (fun _ ends => ends) ?_
      rintro ms' ⟨read, rfl, same'⟩
      refine ⟨m' :: read, by simp, ?_⟩
      rw [Member.bareOf, Member.bareOf, same, same']

theorem classRest_reads {decl : ClassDecl} {parent : Option (String × Span)} {keyword name : Token}
    (title : name.value = decl.name)
    (same : (parent.map fun p => (p.1, Span.unplaced)) = decl.parent.map fun p => (p.1, .unplaced))
    (legible : ∀ m ∈ decl.members, ∀ r ∈ m.routine?, LegibleRoutine strict r)
    (distinct : (decl.members.map Member.name).Nodup)
    (fits : (Member.piecesOf strict decl.members).length < depth) :
    Reads (classRest (block depth) depth keyword name parent)
      (Member.piecesOf strict decl.members ++ [.keyword .endClass]) (fun _ => True) pure
      fun s' => s'.bare = (Stmt.classDecl decl).bare := by
  have members : Reads (members (block depth) depth keyword name.value depth []) _ _ pure _ :=
    members_read legible distinct fits fits
  refine members.andThen (fun _ _ => rfl) ?_
  rintro _ ⟨read, rfl, same'⟩
  refine .expect rfl fun close _ => .gives ?_
  cases decl
  rw [Stmt.bare, Stmt.bare, ClassDecl.bare, ClassDecl.bare, same', same, title]

theorem firstKind_members (ms : List Member) :
    (firstKind (Member.piecesOf strict ms) (.keyword .endClass) == .keyword .inherits) = false := by
  cases ms with
  | nil => rfl
  | cons m ms => cases m with
      | field visibility span name => cases visibility <;> rfl
      | method visibility span decl => cases visibility <;> rfl

theorem legible_classDecl {decl : ClassDecl}
    (legible : ∀ m ∈ decl.members, ∀ r ∈ m.routine?, LegibleRoutine strict r)
    (distinct : (decl.members.map Member.name).Nodup) : LegibleStmt strict (.classDecl decl) := by
  obtain ⟨name, parent, members, span⟩ := decl
  refine ⟨fun k => by cases parent <;> exact opens_keyword rfl rfl, ?_⟩
  intro depth fits
  rw [statement]
  cases parent with
  | none =>
      rw [Stmt.pieces, ClassDecl.pieces] at fits ⊢
      simp only [List.length_cons, List.length_append, List.length_nil] at fits
      have small : (Member.piecesOf strict members).length < depth := by omega
      refine .peek fun t spells => ?_
      rw [spells.kind_eq]
      change Reads (classDeclaration (block depth) depth) _ _ _ _
      rw [classDeclaration_eq]
      refine .eat fun keyword _ => .expect rfl fun title spells => ?_
      refine .nextIs false ?_ ?_
      · intro k _
        rw [firstKind_append]
        exact firstKind_members members
      · exact classRest_reads spells.2 rfl legible distinct small
  | some parent =>
      rw [Stmt.pieces, ClassDecl.pieces] at fits ⊢
      simp only [List.length_cons, List.length_append, List.length_nil] at fits
      have small : (Member.piecesOf strict members).length < depth := by omega
      refine .peek fun t spells => ?_
      rw [spells.kind_eq]
      change Reads (classDeclaration (block depth) depth) _ _ _ _
      rw [classDeclaration_eq]
      refine .eat fun keyword _ => .expect rfl fun title spells => ?_
      refine .nextIs true (fun _ _ => rfl) (.eat fun _ _ => .expect rfl fun t spells' => ?_)
      refine classRest_reads spells.2 ?_ legible distinct small
      rw [Option.map_some, Option.map_some, spells'.2]

/-! ### Conditionals and switches -/

/-- The other branch of a conditional and its end. -/
def otherwise (strict : Bool) : Option (List Stmt) → List Piece
  | none => [.keyword .endIf]
  | some no => .keyword .else_ :: (piecesOf strict no ++ [.keyword .endIf])

theorem legible_conditional {condition : Expr} {yes : List Stmt} {no : Option (List Stmt)}
    (regular : condition.Regular) (tidy : Tidy strict yes) (each : ∀ s ∈ yes, LegibleStmt strict s)
    (tidyNo : ∀ block ∈ no, Tidy strict block)
    (eachNo : ∀ block ∈ no, ∀ s ∈ block, LegibleStmt strict s) :
    LegibleStmt strict (.conditional condition yes no) := by
  have eq : (Stmt.conditional condition yes no).pieces strict = .keyword .if_ ::
      (condition.pieces strict ++ .keyword .then_ :: (piecesOf strict yes ++ otherwise strict no)) := by
    cases no <;> rfl
  have closers : ∀ k ∈ [Keyword.elseIf, .else_, .endIf], endsBlock (.keyword k) = true := by decide
  refine ⟨fun k => by rw [eq]; exact opens_keyword rfl rfl, ?_⟩
  intro depth fits
  rw [eq] at fits ⊢
  simp only [List.length_cons, List.length_append] at fits
  have body : ReadsBlock strict (block depth) yes := block_reads tidy each (by omega)
  rw [statement]
  refine .peek fun t spells => ?_
  rw [spells.kind_eq]
  refine .eat fun keyword _ => ?_
  generalize rounds : depth = b
  obtain ⟨b, rfl⟩ : ∃ n, b = n + 1 := ⟨b - 1, by omega⟩
  rw [conditional, ← rounds]
  refine ((legible_of_regular regular).reads (by omega)).andThen (fun _ _ => stops_of_none rfl 0)
    fun condition' same => ?_
  refine .expect rfl fun _ _ => ?_
  refine (body _ keyword closers).andThen ?_ fun yes' sameYes => ?_
  · intro k _
    cases no with
    | none => exact ⟨.endIf, by decide, rfl⟩
    | some no => exact ⟨.else_, by decide, rfl⟩
  cases no with
  | none =>
      refine .peek fun t spells => ?_
      rw [spells.kind_eq]
      refine .expect rfl fun _ _ => .gives ?_
      rw [Stmt.bare, Stmt.bare, same, sameYes]
  | some no =>
      simp only [otherwise, List.length_cons, List.length_append, List.length_nil] at fits
      have body' : ReadsBlock strict (block depth) no :=
        block_reads (tidyNo no rfl) (eachNo no rfl) (by omega)
      refine .peek fun t spells => ?_
      rw [spells.kind_eq]
      refine .eat fun otherwise _ => ?_
      refine (body' [.endIf] otherwise (by decide)).andThen
        (fun _ _ => ⟨.endIf, List.mem_singleton_self _, rfl⟩) fun no' sameNo => ?_
      refine .expect rfl fun _ _ => .gives ?_
      rw [Stmt.bare, Stmt.bare, same, sameYes, sameNo]

/-- One arm is read by one round of the loop over arms. -/
theorem arm_reads {keyword : Token} {earlier : List Case} {arm : Case} {n : Nat}
    (test : ∀ e ∈ arm.test, e.Regular) (tidy : Tidy strict arm.body)
    (each : ∀ s ∈ arm.body, LegibleStmt strict s) (fits : (arm.pieces strict).length + 2 ≤ depth) :
    Reads (arms (block depth) depth keyword (n + 1) earlier) (arm.pieces strict)
      (Closes [.case, .default, .endSwitch])
      (fun arm' => arms (block depth) depth keyword n (earlier ++ [arm']))
      fun arm' => arm'.bare = arm.bare := by
  obtain ⟨test', body⟩ := arm
  have closers : ∀ k ∈ [Keyword.case, .default, .endSwitch], endsBlock (.keyword k) = true := by
    decide
  rw [arms]
  cases test' with
  | none =>
      rw [Case.pieces] at fits ⊢
      simp only [List.length_cons] at fits
      have reads : ReadsBlock strict (block depth) body := block_reads tidy each (by omega)
      refine .peek fun t spells => ?_
      rw [spells.kind_eq]
      refine .eat fun opener _ => .expect rfl fun _ _ => ?_
      refine ((reads _ opener closers).bind _).finish (fun _ closes => closes) fun body' same => ?_
      refine .done (q := fun arm' => arms (block depth) depth keyword n (earlier ++ [arm'])) ?_
      rw [Case.bare, Case.bare, same]
  | some e =>
      rw [Case.pieces] at fits ⊢
      simp only [List.length_cons, List.length_append] at fits
      have reads : ReadsBlock strict (block depth) body := block_reads tidy each (by omega)
      refine .peek fun t spells => ?_
      rw [spells.kind_eq]
      refine .eat fun opener _ => ?_
      refine ((legible_of_regular (test e rfl)).reads (by omega)).andThen
        (fun _ _ => stops_of_none rfl 0) fun e' sameTest => ?_
      refine .expect rfl fun _ _ => ?_
      refine ((reads _ opener closers).bind _).finish (fun _ closes => closes) fun body' same => ?_
      refine .done (q := fun arm' => arms (block depth) depth keyword n (earlier ++ [arm'])) ?_
      rw [Case.bare, Case.bare, same, Option.map_some, Option.map_some, sameTest]

theorem closes_arm (cases : List Case) (k : TokenKind) : Closes [.case, .default, .endSwitch]
    (firstKind (Case.piecesOf strict cases ++ [.keyword .endSwitch]) k) := by
  match cases with
  | [] => exact ⟨.endSwitch, by decide, rfl⟩
  | ⟨none, _⟩ :: _ => exact ⟨.default, by decide, rfl⟩
  | ⟨some _, _⟩ :: _ => exact ⟨.case, by decide, rfl⟩

theorem length_arm (arm : Case) : 2 ≤ (arm.pieces strict).length := by
  match arm with
  | ⟨none, _⟩ => simp [Case.pieces]
  | ⟨some _, _⟩ =>
      simp only [Case.pieces, List.length_cons, List.length_append]
      omega

theorem arms_read {keyword : Token} {cases : List Case}
    (tests : ∀ arm ∈ cases, ∀ e ∈ arm.test, e.Regular)
    (tidy : ∀ arm ∈ cases, Tidy strict arm.body)
    (each : ∀ arm ∈ cases, ∀ s ∈ arm.body, LegibleStmt strict s) {earlier : List Case}
    (deep : (Case.piecesOf strict cases).length + 2 ≤ depth)
    (fits : (Case.piecesOf strict cases).length < b) :
    Reads (arms (block depth) depth keyword b earlier)
      (Case.piecesOf strict cases ++ [.keyword .endSwitch]) (fun _ => True) pure
      fun cases' => ∃ read, cases' = earlier ++ read ∧ Case.bareOf read = Case.bareOf cases := by
  induction cases generalizing b earlier with
  | nil =>
      obtain ⟨b, rfl⟩ : ∃ n, b = n + 1 := ⟨b - 1, by omega⟩
      rw [arms]
      refine .peek fun t spells => ?_
      rw [spells.kind_eq]
      exact .eat fun _ _ => .gives ⟨[], (List.append_nil _).symm, rfl⟩
  | cons arm cases ih =>
      have some : 2 ≤ (arm.pieces strict).length := length_arm arm
      rw [Case.piecesOf, List.length_append] at deep fits
      obtain ⟨b, rfl⟩ : ∃ n, b = n + 1 := ⟨b - 1, by omega⟩
      have first : Reads (arms (block depth) depth keyword (b + 1) earlier) (arm.pieces strict) _ _ _ :=
        arm_reads (tests arm List.mem_cons_self) (tidy arm List.mem_cons_self)
          (each arm List.mem_cons_self) (by omega)
      rw [Case.piecesOf, List.append_assoc]
      refine first.trans (fun k _ => closes_arm cases k) fun arm' same => ?_
      have rest : Reads (arms (block depth) depth keyword b (earlier ++ [arm'])) _ _ pure _ :=
        ih (fun arm mem => tests arm (List.mem_cons_of_mem _ mem))
          (fun arm mem => tidy arm (List.mem_cons_of_mem _ mem))
          (fun arm mem => each arm (List.mem_cons_of_mem _ mem)) (by omega) (by omega)
      refine rest.imp (fun _ _ => trivial) ?_
      rintro cases' ⟨read, rfl, same'⟩
      refine ⟨arm' :: read, by simp, ?_⟩
      rw [Case.bareOf, Case.bareOf, same, same']

theorem legible_switch {subject : Expr} {cases : List Case} (regular : subject.Regular)
    (tests : ∀ arm ∈ cases, ∀ e ∈ arm.test, e.Regular)
    (tidy : ∀ arm ∈ cases, Tidy strict arm.body)
    (each : ∀ arm ∈ cases, ∀ s ∈ arm.body, LegibleStmt strict s) :
    LegibleStmt strict (.switch subject cases) := by
  refine ⟨fun _ => opens_keyword rfl rfl, ?_⟩
  intro depth fits
  rw [Stmt.pieces] at fits ⊢
  simp only [List.length_cons, List.length_append, List.length_nil] at fits
  rw [statement]
  refine .peek fun t spells => ?_
  rw [spells.kind_eq]
  refine .eat fun keyword _ => ?_
  refine ((legible_of_regular regular).reads (by omega)).andThen (fun _ _ => stops_of_none rfl 0)
    fun subject' same => ?_
  refine .expect rfl fun _ _ => ?_
  refine ((arms_read tests tidy each (by omega) (by omega)).bind _).finish (fun _ _ => trivial) ?_
  rintro _ ⟨read, rfl, same'⟩
  refine .gives ?_
  rw [Stmt.bare, Stmt.bare, same, same']

/-! ### Loops -/

theorem bound_reads {e : Expr} (regular : e.Regular)
    (fits : (e.piecesAt strict 2).length + 2 ≤ depth) :
    Reads (bound depth) (e.piecesAt strict 2) (Stops 2) pure (Same e) := by
  have readable : Readable depth depth e (e.piecesAt strict 2) 2 :=
    legible_of_regular regular depth depth 2 (by decide) (by omega) fits
  exact readable.operators .ladder fits

theorem legible_count (span : Span) (name : String) {first last : Expr} {body : List Stmt}
    (start : first.Regular) (stop : last.Regular) (apart : Apart strict body)
    (tidy : Tidy strict body) (each : ∀ s ∈ body, LegibleStmt strict s) :
    LegibleStmt strict (.count span name first last body) := by
  refine ⟨fun _ => opens_keyword rfl rfl, ?_⟩
  intro depth fits
  rw [Stmt.pieces] at fits ⊢
  simp only [List.length_cons, List.length_append, List.length_nil] at fits
  have reads : ReadsBlock strict (block depth) body := block_reads tidy each (by omega)
  rw [statement]
  refine .peek fun t spells => ?_
  rw [spells.kind_eq]
  refine .eat fun keyword _ => .expect rfl ?_
  rintro t ⟨_, rfl⟩
  refine .expect rfl fun _ _ => ?_
  refine (bound_reads start (by omega)).andThen ?_ fun first' sameFirst => ?_
  · intro _ _ k follow
    cases follow
    decide
  refine .expect rfl fun _ _ => ?_
  refine (bound_reads stop (by omega)).andThen ?_ fun last' sameLast => ?_
  · intro k _
    rw [firstKind_append]
    exact (stops_of_apart apart each rfl).mono (Nat.zero_le 2)
  refine (reads [.next] keyword (by decide)).andThen
    (fun _ _ => ⟨.next, List.mem_singleton_self _, rfl⟩) fun body' same => ?_
  refine .expect rfl fun _ _ => .expect rfl ?_
  rintro again ⟨_, value⟩
  rw [if_pos (beq_iff_eq.mpr value)]
  refine .gives ?_
  rw [Stmt.bare, Stmt.bare, sameFirst, sameLast, same]

theorem legible_whileLoop (span : Span) {condition : Expr} {body : List Stmt}
    (regular : condition.Regular) (apart : Apart strict body) (tidy : Tidy strict body)
    (each : ∀ s ∈ body, LegibleStmt strict s) :
    LegibleStmt strict (.whileLoop span condition body) := by
  refine ⟨fun _ => opens_keyword rfl rfl, ?_⟩
  intro depth fits
  rw [Stmt.pieces] at fits ⊢
  simp only [List.length_cons, List.length_append, List.length_nil] at fits
  have reads : ReadsBlock strict (block depth) body := block_reads tidy each (by omega)
  rw [statement]
  refine .peek fun t spells => ?_
  rw [spells.kind_eq]
  refine .eat fun keyword _ => ?_
  refine ((legible_of_regular regular).reads (by omega)).andThen ?_ fun condition' same => ?_
  · intro k _
    rw [firstKind_append]
    exact stops_of_apart apart each rfl
  refine (reads [.endWhile] keyword (by decide)).andThen
    (fun _ _ => ⟨.endWhile, List.mem_singleton_self _, rfl⟩) fun body' same' => ?_
  refine .expect rfl fun _ _ => .gives ?_
  rw [Stmt.bare, Stmt.bare, same, same']

theorem legible_untilLoop {body : List Stmt} {condition : Expr} (tidy : Tidy strict body)
    (each : ∀ s ∈ body, LegibleStmt strict s) (regular : condition.Regular) :
    LegibleStmt strict (.untilLoop body condition) := by
  refine ⟨fun _ => opens_keyword rfl rfl, ?_⟩
  intro depth fits
  rw [Stmt.pieces] at fits ⊢
  simp only [List.length_cons, List.length_append] at fits
  have reads : ReadsBlock strict (block depth) body := block_reads tidy each (by omega)
  have legible : Legible strict condition := legible_of_regular regular
  rw [statement]
  refine .peek fun t spells => ?_
  rw [spells.kind_eq]
  refine .eat fun keyword _ => ?_
  refine (reads [.until_] keyword (by decide)).andThen
    (fun _ _ => ⟨.until_, List.mem_singleton_self _, rfl⟩) fun body' same => ?_
  refine .expect rfl fun _ _ => ?_
  refine ((legible.reads (by omega)).bind _).finish (fun _ stops => stops)
    fun condition' same' => .gives ?_
  rw [Stmt.bare, Stmt.bare, same, same']

/-! ### All statements -/

theorem legibleStmt_of_regular {s : Stmt} (regular : s.Regular strict) : LegibleStmt strict s := by
  induction regular with
  | declare span name regular => exact legible_declare span name regular
  | array span name some each => exact legible_array span name some each
  | routine distinct tidy _ each => exact legible_routine ⟨distinct, tidy, each⟩
  | classDecl distinct params tidy _ each =>
      refine legible_classDecl ?_ distinct
      intro m mem r some
      exact ⟨params m mem r some, tidy m mem r some, each m mem r some⟩
  | conditional regular tidy _ tidyNo _ each eachNo =>
      exact legible_conditional regular tidy each tidyNo eachNo
  | switch regular tests tidy _ each => exact legible_switch regular tests tidy each
  | count span name start stop apart tidy _ each =>
      exact legible_count span name start stop apart tidy each
  | whileLoop span regular apart tidy _ each => exact legible_whileLoop span regular apart tidy each
  | untilLoop tidy _ regular each => exact legible_untilLoop tidy each regular
  | giveBack span regular => exact legible_giveBack span regular
  | expression regular => exact legible_expression regular

theorem statements_read {body : List Stmt} (regular : RegularBlock strict body)
    (deep : (piecesOf strict body).length + 3 ≤ depth) (fits : (piecesOf strict body).length < b) :
    Reads (statements depth b) (piecesOf strict body) (· = .endOfInput) pure
      fun body' => bareOf body' = bareOf body := by
  have each (s : Stmt) (mem : s ∈ body) : LegibleStmt strict s :=
    legibleStmt_of_regular (regular.each s mem)
  have tidy := regular.tidy
  clear regular
  induction body generalizing b with
  | nil =>
      obtain ⟨b, rfl⟩ : ∃ n, b = n + 1 := ⟨b - 1, by omega⟩
      rw [statements]
      refine .nextIs true ?_ (.gives rfl)
      rintro k rfl
      rfl
  | cons s body ih =>
      have legible := each s List.mem_cons_self
      have start := legible.length_pos
      rw [Stmt.piecesOf, List.length_append] at deep fits
      obtain ⟨b, rfl⟩ : ∃ n, b = n + 1 := ⟨b - 1, by omega⟩
      rw [statements, Stmt.piecesOf]
      refine .nextIs false ?_ ?_
      · intro k _
        rw [firstKind_append, beq_eq_false_iff_ne]
        intro eq
        have opens := (legible.opens (firstKind (piecesOf strict body) k)).1
        rw [eq] at opens
        cases opens
      · refine (legible.reads depth (by omega)).andThen ?_ fun s' same => ?_
        · rintro k rfl
          exact before_of_tidy tidy (fun s mem => each s (List.mem_cons_of_mem _ mem)) rfl
        · have rest : Reads (statements depth b) _ _ pure _ :=
            ih (by omega) (by omega) (fun s mem => each s (List.mem_cons_of_mem _ mem)) tidy.of_cons
          refine (rest.bind _).finish (fun _ ends => ends) fun body' same' => .gives ?_
          rw [Stmt.bareOf, Stmt.bareOf, same, same']

end Parser

end Pseudocode

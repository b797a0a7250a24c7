import Pseudocode.Program.Nodes
import Pseudocode.Proofs.Lexing.Token
import Pseudocode.Proofs.Derivation.Statement

/-!
The expressions of a program and their tokens.

`Program.exprs` are the expressions in the statements of a program, and `Expr.HasNode`
goes down from each of them to all its nodes. A node is `Traced` when it was read from
tokens of its own. All nodes are (`Traced.node`), with one exception: `a[i, j]` is an
index into `a[i]`, and no tokens are those of `a[i]` alone (`Expr.BeforeComma`).
-/

namespace Pseudocode

/-! ### Expressions and their nodes -/

namespace Expr

/-- The expressions that an expression is put together from. -/
def parts : Expr → List Expr
  | identifier .. | integer .. | float .. | text .. | null .. => []
  | assign _ target value => [target, value]
  | binary _ _ left right => [left, right]
  | unary _ _ operand => [operand]
  | range _ start stop => [start, stop]
  | member _ object _ => [object]
  | index _ object i => [object, i]
  | call _ callee args => callee :: args
  | create _ classExpr args => classExpr :: args

@[simp] theorem parts_withSpan (e : Expr) (s : Span) : (e.withSpan s).parts = e.parts := by
  cases e <;> rfl

/-- A node of an expression, and the node of which it is a part. -/
inductive HasNode (e : Expr) : Option Expr → Expr → Prop where
  | root : HasNode e none e
  | part {outer : Option Expr} {m n : Expr} (node : HasNode e outer m) (mem : n ∈ m.parts) :
      HasNode e (some m) n

/-- An index that is the object of another one, with the place of the other one inside
its own span: the places stand in the same brackets, with a comma between them. -/
def BeforeComma (outer : Option Expr) (n : Expr) : Prop :=
  n.kind = .index ∧ ∃ s j, outer = some (.index s n j) ∧
    n.span.start < j.span.start ∧ j.span.stop < n.span.stop

/-- Parentheses around the outer index change nothing. -/
theorem beforeComma_withSpan (outer n : Expr) (s : Span) :
    BeforeComma (some (outer.withSpan s)) n ↔ BeforeComma (some outer) n := by
  cases outer with
  | index _ object j => exact and_congr_right fun _ =>
      ⟨fun ⟨_, _, eq, within⟩ => by cases eq; exact ⟨_, _, rfl, within⟩,
        fun ⟨_, _, eq, within⟩ => by cases eq; exact ⟨_, _, rfl, within⟩⟩
  | _ => simp [BeforeComma, Expr.withSpan]

theorem not_beforeComma_of_kind {outer n : Expr} (other : outer.kind ≠ .index) :
    ¬ BeforeComma (some outer) n := by
  rintro ⟨_, _, _, eq, _⟩
  cases eq
  exact other rfl

end Expr

mutual

/-- The expressions in a statement and in the statements inside it. -/
def Stmt.exprs : Stmt → List Expr
  | .declare _ _ value => [value]
  | .array _ _ dimensions => dimensions
  | .routine decl => decl.exprs
  | .classDecl decl => decl.exprs
  | .conditional condition yes none => condition :: Stmt.exprsOf yes
  | .conditional condition yes (some no) => condition :: (Stmt.exprsOf yes ++ Stmt.exprsOf no)
  | .switch subject cases => subject :: Case.exprsOf cases
  | .count _ _ first last body => first :: last :: Stmt.exprsOf body
  | .whileLoop _ condition body => condition :: Stmt.exprsOf body
  | .untilLoop body condition => Stmt.exprsOf body ++ [condition]
  | .giveBack _ value => value.toList
  | .expression e => [e]

def Stmt.exprsOf : List Stmt → List Expr
  | [] => []
  | s :: ss => s.exprs ++ Stmt.exprsOf ss

def Case.exprs : Case → List Expr
  | ⟨test, body⟩ => test.toList ++ Stmt.exprsOf body

def Case.exprsOf : List Case → List Expr
  | [] => []
  | c :: cs => c.exprs ++ Case.exprsOf cs

def RoutineDecl.exprs : RoutineDecl → List Expr
  | ⟨_, _, _, body, _⟩ => Stmt.exprsOf body

def Member.exprs : Member → List Expr
  | .field .. => []
  | .method _ _ decl => decl.exprs

def Member.exprsOf : List Member → List Expr
  | [] => []
  | m :: ms => m.exprs ++ Member.exprsOf ms

def ClassDecl.exprs : ClassDecl → List Expr
  | ⟨_, _, members, _⟩ => Member.exprsOf members

end

/-- The expressions in the statements of a program. -/
def Program.exprs (p : Program) : List Expr := Stmt.exprsOf p.body

/-! ### Parts of a row -/

/-- Tokens in a row that do not follow a dot there. -/
def Part (us ts : List Token) : Prop :=
  ∃ before after, ts = before ++ (us ++ after) ∧ endsInDot false before = false

namespace Part

variable {us vs ts : List Token}

theorem refl (us : List Token) : Part us us := ⟨[], [], by simp, rfl⟩

theorem trans (inner : Part us vs) (outer : Part vs ts) : Part us ts := by
  obtain ⟨before, after, rfl, noDot⟩ := inner
  obtain ⟨before', after', rfl, noDot'⟩ := outer
  refine ⟨before' ++ before, after ++ after', by simp, ?_⟩
  rw [endsInDot_append, noDot', noDot]

theorem first (us after : List Token) : Part us (us ++ after) := ⟨[], after, rfl, rfl⟩

/-- What stands behind another token than a dot. -/
theorem behind (before : List Token) {t : Token} (other : t.kind ≠ .symbol .dot)
    (us after : List Token) : Part us (before ++ t :: (us ++ after)) := by
  refine ⟨before ++ [t], after, by simp, ?_⟩
  rw [endsInDot_append]
  exact beq_eq_false_iff_ne.mpr other

theorem last (before : List Token) {t : Token} (other : t.kind ≠ .symbol .dot) (us : List Token) :
    Part us (before ++ t :: us) := by
  have part := behind before other us []
  rwa [List.append_nil] at part

/-- What stands behind a row that does not end in a dot. -/
theorem follows {before : List Token} (noDot : endsInDot false before = false) (us : List Token) :
    Part us (before ++ us) :=
  ⟨before, [], by simp, noDot⟩

theorem sublist (part : Part us ts) : us.Sublist ts := by
  obtain ⟨before, after, rfl, _⟩ := part
  exact List.Sublist.trans (List.sublist_append_left ..) (List.sublist_append_right ..)

end Part

/-- An expression that was read from tokens in a row. -/
def Traced (ts : List Token) (e : Expr) : Prop :=
  ∃ L us, Part us ts ∧ (Phrase.expr L e).Written us

namespace Traced

variable {us ts : List Token} {e : Expr}

theorem within (traced : Traced us e) (part : Part us ts) : Traced ts e := by
  obtain ⟨L, vs, inner, written⟩ := traced
  exact ⟨L, vs, inner.trans part, written⟩

theorem of_written {L : Nat} (written : (Phrase.expr L e).Written us) (part : Part us ts) :
    Traced ts e :=
  ⟨L, us, part, written⟩

/-- The span of the expression goes from a token of the row to another one. -/
theorem ends (traced : Traced ts e) (ordered : InOrder ts) :
    ∃ t ∈ ts, ∃ u ∈ ts, e.span = ⟨t.span.start, u.span.stop⟩ := by
  obtain ⟨L, us, part, written⟩ := traced
  have sub := part.sublist
  obtain ⟨t, u, head, last, span⟩ := written.spanned (ordered.sublist sub)
  exact ⟨t, sub.subset (List.mem_of_mem_head? head), u, sub.subset (List.mem_of_mem_getLast? last), span⟩

end Traced

/-- A place that was read from tokens in a row, inside a span. -/
structure PlacedIn (ts : List Token) (s : Span) (i : Expr) : Prop where
  traced : Traced ts i
  start : s.start < i.span.start
  stop : i.span.stop < s.stop

/-- An index with several places, or with the first few of them. Its object and places
were read from tokens in a row; its span is that of the index with all places. -/
inductive Chained (ts : List Token) (s : Span) : Expr → Prop where
  | one {object i : Expr} (inner : Traced ts object) (place : PlacedIn ts s i)
      (behind : object.span.stop < i.span.stop) : Chained ts s (.index s object i)
  | next {chain i : Expr} (inner : Chained ts s chain) (place : PlacedIn ts s i) :
      Chained ts s (.index s chain i)

/-- A node has tokens of its own, or it is an index before a comma and shares them with
the index that has all the places. -/
inductive Sourced (ts : List Token) (outer : Option Expr) (n : Expr) : Prop where
  | own (traced : Traced ts n) (apart : ¬ Expr.BeforeComma outer n)
  | shared {s : Span} {more : List Expr} (chained : Chained ts s n)
      (before : Expr.BeforeComma outer n) (some : more ≠ []) (whole : Traced ts (n.indexed s more))

theorem PlacedIn.within {us ts : List Token} {s : Span} {i : Expr} (place : PlacedIn us s i)
    (part : Part us ts) : PlacedIn ts s i :=
  { place with traced := place.traced.within part }

namespace Chained

variable {us ts : List Token} {s : Span} {e : Expr}

theorem within (chained : Chained us s e) (part : Part us ts) : Chained ts s e := by
  induction chained with
  | one inner place behind => exact .one (inner.within part) (place.within part) behind
  | next _ place ih => exact .next ih (place.within part)

theorem indexed (chained : Chained ts s e) {is : List Expr} (places : ∀ i ∈ is, PlacedIn ts s i) :
    Chained ts s (e.indexed s is) := by
  induction is generalizing e with
  | nil => exact chained
  | cons i is ih =>
      obtain ⟨place, places⟩ := List.forall_mem_cons.mp places
      exact ih (.next chained place) places

theorem kind_eq (chained : Chained ts s e) : e.kind = .index := by
  cases chained <;> rfl

theorem span_eq (chained : Chained ts s e) : e.span = s := by
  cases chained <;> rfl

/-- The parts of an index with several places: the last place, and the object or the
index with the other places. -/
theorem parts (chained : Chained ts s e) (more : List Expr) (whole : Traced ts (e.indexed s more)) :
    ∀ x ∈ e.parts, Sourced ts (some e) x := by
  have last {object i : Expr} (place : PlacedIn ts s i) :
      Sourced ts (some (.index s object i)) i := by
    refine .own place.traced ?_
    rintro ⟨_, _, _, eq, start, _⟩
    cases eq
    exact Nat.lt_irrefl _ start
  cases chained with
  | @one object i inner place behind =>
      refine List.forall_mem_cons.mpr ⟨.own inner ?_, List.forall_mem_singleton.mpr (last place)⟩
      rintro ⟨_, _, _, eq, _, stop⟩
      cases eq
      exact Nat.lt_asymm behind stop
  | @next chain i inner place =>
      refine List.forall_mem_cons.mpr ⟨?_, List.forall_mem_singleton.mpr (last place)⟩
      refine .shared inner ⟨inner.kind_eq, s, i, rfl, ?_⟩ (List.cons_ne_nil i more) whole
      rw [inner.span_eq]
      exact ⟨place.start, place.stop⟩

end Chained

namespace Sourced

variable {us ts : List Token} {n : Expr}

theorem within {outer : Option Expr} (sourced : Sourced us outer n) (part : Part us ts) :
    Sourced ts outer n := by
  cases sourced with
  | own traced apart => exact .own (traced.within part) apart
  | shared chained before some whole =>
      exact .shared (chained.within part) before some (whole.within part)

theorem withSpan {outer : Expr} (sourced : Sourced ts (some outer) n) (s : Span) :
    Sourced ts (some (outer.withSpan s)) n := by
  have same := outer.beforeComma_withSpan n s
  cases sourced with
  | own traced apart => exact .own traced (mt same.mp apart)
  | shared chained before some whole => exact .shared chained (same.mpr before) some whole

/-- A part of anything but an index. -/
theorem of_written {L : Nat} {outer : Expr} (written : (Phrase.expr L n).Written us)
    (part : Part us ts) (other : outer.kind ≠ .index) : Sourced ts (some outer) n :=
  .own (.of_written written part) (Expr.not_beforeComma_of_kind other)

/-- Two operands, one at the start of the row and the other at its end. -/
theorem pair {vs ws : List Token} {L M : Nat} {left right outer : Expr}
    (first : (Phrase.expr L left).Written us) (second : (Phrase.expr M right).Written vs)
    (part : Part vs (us ++ ws)) (other : outer.kind ≠ .index) :
    ∀ x ∈ [left, right], Sourced (us ++ ws) (some outer) x := by
  refine List.forall_mem_cons.mpr ⟨.of_written first (.first us ws) other, ?_⟩
  exact List.forall_mem_singleton.mpr (.of_written second part other)

end Sourced

/-! ### Parts of a phrase -/

theorem Phrase.Written.of_name {e : Expr} {us : List Token} (written : (Phrase.name e).Written us) :
    (Phrase.expr 11 e).Written us := by
  generalize eq : Phrase.name e = p at written
  induction written generalizing e with
  | @name t named =>
      cases eq
      refine .loosen (by decide) (.atom ?_)
      rw [Parser.atom?, named]
  | dotted _ dotted named ih =>
      cases eq
      exact .member (ih rfl) dotted named
  | _ => cases eq

theorem Parser.parts_of_atom? {t : Token} {e : Expr} (found : atom? t = some (.ok e)) :
    e.parts = [] := by
  rcases form_of_atom? found with ⟨_, rfl⟩ | ⟨_, rfl⟩ | ⟨_, rfl⟩ | ⟨_, rfl⟩ | rfl <;> rfl

theorem Phrase.Written.items_traced {es : List Expr} {us : List Token}
    (written : (Phrase.items es).Written us) : ∀ e ∈ es, Traced us e := by
  generalize eq : Phrase.items es = p at written
  induction written generalizing es with
  | @item us e only _ =>
      cases eq
      exact List.forall_mem_singleton.mpr (.of_written only (.refl us))
  | @cons us vs comma e es first parts _ _ ih =>
      cases eq
      refine List.forall_mem_cons.mpr ⟨.of_written first (.first us _), ?_⟩
      exact fun x mem => (ih rfl x mem).within (.last us (by simp [parts]) vs)
  | _ => cases eq

theorem Phrase.Written.arguments_traced {es : List Expr} {close : Span} {us : List Token}
    (written : (Phrase.arguments es close).Written us) (before : List Token) :
    ∀ e ∈ es, Traced (before ++ us) e := by
  cases written with
  | noArguments _ _ => exact List.forall_mem_nil _
  | @arguments opening close us es opens given _ =>
      intro e mem
      exact (given.items_traced e mem).within (.behind before (by simp [opens]) us [close])

/-- What is known of the parts of an expression that was read from a row of tokens. -/
def Phrase.Parted : Phrase → List Token → Prop
  | .expr _ e, us => ∀ x ∈ e.parts, Sourced us (some e) x
  | _, _ => True

/-- A place between brackets is inside the span of the whole index, behind the object. -/
theorem placedIn_brackets {us vs : List Token} {opening close : Token} {object i : Expr}
    (ordered : InOrder (us ++ opening :: (vs ++ [close]))) (spans : Spans us object.span)
    (traced : Traced vs i) :
    PlacedIn vs (object.span.merge close.span) i ∧ object.span.stop < i.span.stop := by
  have row : InOrder (vs ++ [close]) :=
    ordered.sublist ((List.sublist_cons_self ..).trans (List.sublist_append_right ..))
  obtain ⟨t, mem, u, mem', span⟩ := traced.ends (row.sublist (List.sublist_append_left ..))
  obtain ⟨a, b, head, final, span'⟩ := spans
  have inside {t : Token} (mem : t ∈ vs) : t ∈ opening :: (vs ++ [close]) :=
    List.mem_cons_of_mem opening (List.mem_append_left [close] mem)
  have first := Spans.before ordered (List.mem_of_mem_head? head) (inside mem)
  have behind := Spans.before ordered (List.mem_of_mem_getLast? final) (inside mem')
  have last := Spans.before row mem' (List.mem_singleton_self close)
  refine ⟨⟨traced, ?_, ?_⟩, ?_⟩ <;> simp only [span, span', Span.merge] <;> omega

theorem Parser.not_dot_of_sign? {t : Token} {op : UnaryOp} (sign : sign? t.kind = some op) :
    t.kind ≠ .symbol .dot := by
  intro kind
  rw [kind] at sign
  cases sign

theorem BinaryOp.not_dot (op : BinaryOp) : op.piece.kind ≠ .symbol .dot := by
  cases op <;> decide

theorem Phrase.Written.parted {p : Phrase} {us : List Token} (written : p.Written us)
    (ordered : InOrder us) : p.Parted us := by
  induction written with
  | @atom t e found =>
      intro x mem
      rw [Parser.parts_of_atom? found] at mem
      cases mem
  | @parens opening close us e opens _ _ ih =>
      intro x mem
      rw [Expr.parts_withSpan] at mem
      have inner := ih (ordered.sublist (by simp)) x mem
      exact (inner.withSpan _).within (.behind [] (by simp [opens]) us [close])
  | @create keyword us vs classExpr args close new named given _ _ =>
      refine List.forall_mem_cons.mpr ⟨?_, ?_⟩
      · exact .of_written named.of_name (.behind [] (by simp [new]) us vs) nofun
      · exact fun x mem => .own (given.arguments_traced (keyword :: us) x mem)
          (Expr.not_beforeComma_of_kind nofun)
  | @member us object dot field inner _ _ _ =>
      exact List.forall_mem_singleton.mpr (.of_written inner (.first us _) nofun)
  | @index us vs object is opening close inner opens places closes _ _ =>
      have spans := inner.spanned (ordered.sublist (List.sublist_append_left ..))
      have part : Part vs (us ++ opening :: (vs ++ [close])) := .behind us (by simp [opens]) vs [close]
      have placed {i : Expr} (mem : i ∈ is) :=
        placedIn_brackets ordered spans (places.items_traced i mem)
      have whole := Traced.of_written (.index inner opens places closes) (.refl _)
      have object := Traced.of_written inner (.first us (opening :: (vs ++ [close])))
      cases is with
      | nil => exact absurd rfl places.items_ne_nil
      | cons i is =>
          obtain ⟨first, behind⟩ := placed List.mem_cons_self
          have chained := Chained.one object (first.within part) behind
          have all := chained.indexed fun j mem => (placed (List.mem_cons_of_mem i mem)).1.within part
          exact all.parts [] whole
  | @call us vs callee args close inner given _ _ =>
      refine List.forall_mem_cons.mpr ⟨.of_written inner (.first us vs) nofun, ?_⟩
      exact fun x mem => .own (given.arguments_traced us x mem) (Expr.not_beforeComma_of_kind nofun)
  | @sign operator us op operand sign inner _ =>
      have part : Part us (operator :: us) := .last [] (Parser.not_dot_of_sign? sign) us
      exact List.forall_mem_singleton.mpr (.of_written inner part nofun)
  | @not operator us operand negates inner _ =>
      have other : operator.kind ≠ .symbol .dot := by
        rcases negates with kind | kind <;> simp [kind]
      exact List.forall_mem_singleton.mpr (.of_written inner (.last [] other us) nofun)
  | @binary us vs operator op left right first operates second _ _ =>
      have other : operator.kind ≠ .symbol .dot := by
        rw [operates]
        exact op.not_dot
      exact .pair first second (.last us other vs) nofun
  | @range us vs keyword start stop first leads second _ _ =>
      exact .pair first second (.last us (by simp [leads]) vs) nofun
  | @assign us vs equals target value left assigns _ right _ _ =>
      exact .pair left right (.last us (by simp [assigns]) vs) nofun
  | loosen _ _ ih => exact ih ordered
  | _ => trivial

theorem Traced.parts {ts : List Token} {e : Expr} (traced : Traced ts e) (ordered : InOrder ts) :
    ∀ x ∈ e.parts, Sourced ts (some e) x := by
  obtain ⟨L, us, part, written⟩ := traced
  exact fun x mem => (written.parted (ordered.sublist part.sublist) x mem).within part

/-- Every node of an expression that was read comes from tokens of the row. -/
theorem Traced.node {ts : List Token} {e : Expr} (traced : Traced ts e) (ordered : InOrder ts)
    {outer : Option Expr} {n : Expr} (node : e.HasNode outer n) : Sourced ts outer n := by
  induction node with
  | root => exact .own traced nofun
  | part _ mem ih =>
      cases ih with
      | own traced _ => exact traced.parts ordered _ mem
      | @shared _ more chained _ _ whole => exact chained.parts more whole _ mem

/-! ### Rows that end in no dot -/

theorem Phrase.Written.noDot {p : Phrase} {us : List Token} (written : p.Written us) (b : Bool) :
    endsInDot b us = false := by
  induction written generalizing b with
  | atom found =>
      refine beq_eq_false_iff_ne.mpr fun kind => ?_
      rw [Parser.atom?, kind] at found
      cases found
  | parens _ _ closes _ => simp [closes]
  | create _ _ _ _ ih => simp [ih]
  | member _ _ named _ => simp [named]
  | index _ _ _ closes _ _ => simp [closes]
  | call _ _ _ ih => simp [ih]
  | sign _ _ ih => simp [ih]
  | not _ _ ih => simp [ih]
  | binary _ _ _ _ ih => simp [ih]
  | range _ _ _ _ ih => simp [ih]
  | assign _ _ _ _ _ ih => simp [ih]
  | loosen _ _ ih => exact ih b
  | item _ ih => exact ih b
  | cons _ _ _ _ ih => simp [ih]
  | noArguments _ closes => simp [closes]
  | arguments _ _ closes _ => simp [closes]
  | name named => simp [named]
  | dotted _ _ named _ => simp [named]

theorem Parser.not_dot_of_visibility? {t : Token} {v : Visibility}
    (shown : visibility? t.kind = some v) : t.kind ≠ .symbol .dot := by
  intro kind
  rw [kind] at shown
  cases shown

theorem Sentence.Written.noDot {s : Sentence} {us : List Token} (written : s.Written us) :
    endsInDot false us = false := by
  induction written with
  | declare _ _ _ given => simp [given.noDot]
  | array _ _ _ _ closes => simp [closes]
  | routineStmt _ ih => exact ih
  | classAlone _ _ _ closes _ => simp [closes]
  | classUnder _ _ _ _ _ closes _ => simp [closes]
  | giveNothing opens => simp [opens]
  | giveBack _ given => simp [given.noDot]
  | conditional opens _ ih => simp [opens, ih]
  | switch _ _ leads _ ih => simp [leads, ih]
  | count _ _ _ _ _ _ _ _ renamed _ => simp [renamed]
  | whileLoop _ _ _ closes _ => simp [closes]
  | untilLoop _ _ _ given _ => simp [given.noDot]
  | expression given => exact given.noDot false
  | done => rfl
  | next _ _ ih ih' => simp [ih, ih']
  | ifOnly _ _ _ closes _ => simp [closes]
  | ifElse _ _ _ _ _ closes _ _ => simp [closes]
  | elseIf _ _ _ turns _ _ ih => simp [turns, ih]
  | endSwitch closes => simp [closes]
  | caseArm _ _ leads _ _ ih ih' => simp [leads, ih, ih']
  | defaultArm _ leads _ _ ih ih' => simp [leads, ih, ih']
  | @routine _ _ _ _ _ _ _ kind _ _ encloses _ _ _ _ _ _ _ =>
      cases kind <;> simp [encloses.2]
  | field _ named => simp [named]
  | @method modifier _ _ _ shown _ ih =>
      simp [Parser.not_dot_of_visibility? shown, ih]
  | noMembers => rfl
  | nextMember _ _ ih ih' => simp [ih, ih']

/-! ### Expressions of a sentence -/

def Sentence.exprs : Sentence → List Expr
  | .stmt s | .conditional s => s.exprs
  | .block ss => Stmt.exprsOf ss
  | .arms cases => Case.exprsOf cases
  | .routine decl => decl.exprs
  | .member m => m.exprs
  | .members ms => Member.exprsOf ms

/-- The expressions in what was read are read from its tokens. -/
theorem Sentence.Written.traced {s : Sentence} {us : List Token} (written : s.Written us) :
    ∀ e ∈ s.exprs, Traced us e := by
  induction written with
  | @declare keyword name equals us _ _ _ assigns given =>
      simp only [Sentence.exprs, Stmt.exprs, List.forall_mem_singleton]
      exact .of_written given (.last [keyword, name] (by simp [assigns]) us)
  | @array keyword name opening close us dimensions _ _ starts given _ =>
      intro e mem
      simp only [Sentence.exprs, Stmt.exprs] at mem
      exact (given.items_traced e mem).within (.behind [keyword, name] (by simp [starts]) us [close])
  | routineStmt _ ih => simpa only [Sentence.exprs, Stmt.exprs] using ih
  | @classAlone keyword name close us ms _ named _ _ ih =>
      intro e mem
      simp only [Sentence.exprs, Stmt.exprs, ClassDecl.exprs] at mem
      exact (ih e mem).within (.behind [keyword] (by simp [named]) us [close])
  | @classUnder keyword name inherits parent close us ms _ _ _ above _ _ ih =>
      intro e mem
      simp only [Sentence.exprs, Stmt.exprs, ClassDecl.exprs] at mem
      exact (ih e mem).within (.behind [keyword, name, inherits] (by simp [above]) us [close])
  | giveNothing _ => simp [Sentence.exprs, Stmt.exprs]
  | @giveBack keyword us value opens given =>
      simp only [Sentence.exprs, Stmt.exprs, Option.toList_some, List.forall_mem_singleton]
      exact .of_written given (.last [] (by simp [opens]) us)
  | @conditional keyword us s opens _ ih =>
      exact fun e mem => (ih e mem).within (.last [] (by simp [opens]) us)
  | @switch keyword colon us vs subject cases opens given leads _ ih =>
      simp only [Sentence.exprs, Stmt.exprs, List.forall_mem_cons]
      refine ⟨.of_written given (.behind [] (by simp [opens]) us _), fun e mem => ?_⟩
      exact (ih e mem).within (.last (keyword :: us) (by simp [leads]) vs)
  | @count keyword name equals leads next again us vs ws first last body _ _ assigns start leadsTo stop
      _ _ _ ih =>
      simp only [Sentence.exprs, Stmt.exprs, List.forall_mem_cons]
      refine ⟨.of_written start (.behind [keyword, name] (by simp [assigns]) us _),
        .of_written stop (.behind (keyword :: name :: equals :: us) (by simp [leadsTo]) vs _),
        fun e mem => (ih e mem).within ?_⟩
      refine ⟨keyword :: name :: equals :: (us ++ leads :: vs), [next, again], by simp, ?_⟩
      simp [stop.noDot]
  | @whileLoop keyword close us vs condition body opens given _ _ ih =>
      simp only [Sentence.exprs, Stmt.exprs, List.forall_mem_cons]
      refine ⟨.of_written given (.behind [] (by simp [opens]) us _), fun e mem => (ih e mem).within ?_⟩
      exact ⟨keyword :: us, [close], by simp, by simp [given.noDot]⟩
  | @untilLoop keyword leads us vs condition body opens _ leadsTo given ih =>
      simp only [Sentence.exprs, Stmt.exprs, List.forall_mem_append, List.forall_mem_singleton]
      refine ⟨fun e mem => (ih e mem).within (.behind [] (by simp [opens]) us _), ?_⟩
      exact .of_written given (.last (keyword :: us) (by simp [leadsTo]) vs)
  | @expression us e given =>
      simp only [Sentence.exprs, Stmt.exprs, List.forall_mem_singleton]
      exact .of_written given (.refl us)
  | done => simp [Sentence.exprs, Stmt.exprsOf]
  | @next us vs s ss first _ ih ih' =>
      simp only [Sentence.exprs, Stmt.exprsOf, List.forall_mem_append]
      exact ⟨fun e mem => (ih e mem).within (.first us vs),
        fun e mem => (ih' e mem).within (.follows first.noDot vs)⟩
  | @ifOnly then_ close us vs condition yes given leads _ _ ih =>
      simp only [Sentence.exprs, Stmt.exprs, List.forall_mem_cons]
      exact ⟨.of_written given (.first us _),
        fun e mem => (ih e mem).within (.behind us (by simp [leads]) vs [close])⟩
  | @ifElse then_ else_ close us vs ws condition yes no given leads _ turns _ _ ih ih' =>
      simp only [Sentence.exprs, Stmt.exprs, List.forall_mem_cons, List.forall_mem_append]
      refine ⟨.of_written given (.first us _),
        fun e mem => (ih e mem).within (.behind us (by simp [leads]) vs _),
        fun e mem => (ih' e mem).within ?_⟩
      exact ⟨us ++ then_ :: (vs ++ [else_]), [close], by simp, by simp [turns]⟩
  | @elseIf then_ again us vs ws condition yes inner given leads _ turns _ ih ih' =>
      simp only [Sentence.exprs, Stmt.exprs, Stmt.exprsOf, List.forall_mem_cons, List.forall_mem_append]
      refine ⟨.of_written given (.first us _),
        fun e mem => (ih e mem).within (.behind us (by simp [leads]) vs _),
        fun e mem => (ih' e mem).within ?_, List.forall_mem_nil _⟩
      exact ⟨us ++ then_ :: (vs ++ [again]), [], by simp, by simp [turns]⟩
  | endSwitch _ => simp [Sentence.exprs, Case.exprsOf]
  | @caseArm opening colon us vs ws test body cases opens given leads inner _ ih ih' =>
      simp only [Sentence.exprs, Case.exprsOf, Case.exprs, Option.toList_some, List.forall_mem_append,
        List.forall_mem_singleton]
      refine ⟨⟨.of_written given (.behind [] (by simp [opens]) us _),
        fun e mem => (ih e mem).within (.behind (opening :: us) (by simp [leads]) vs ws)⟩,
        fun e mem => (ih' e mem).within ?_⟩
      exact ⟨opening :: (us ++ colon :: vs), [], by simp, by simp [leads, inner.noDot]⟩
  | @defaultArm opening colon vs ws body cases _ leads inner _ ih ih' =>
      simp only [Sentence.exprs, Case.exprsOf, Case.exprs, Option.toList_none, List.nil_append,
        List.forall_mem_append]
      refine ⟨fun e mem => (ih e mem).within (.behind [opening] (by simp [leads]) vs ws),
        fun e mem => (ih' e mem).within ?_⟩
      exact ⟨opening :: colon :: vs, [], by simp, by simp [leads, inner.noDot]⟩
  | @routine keyword name opening closing close us vs kind params body _ _ _ _ _ closes _ ih =>
      intro e mem
      simp only [Sentence.exprs, RoutineDecl.exprs] at mem
      refine (ih e mem).within ?_
      exact .behind (keyword :: name :: opening :: us) (by simp [closes]) vs [close]
  | field _ _ => simp [Sentence.exprs, Member.exprs]
  | @method modifier us visibility decl shown _ ih =>
      intro e mem
      simp only [Sentence.exprs, Member.exprs] at mem
      exact (ih e mem).within (.last [] (Parser.not_dot_of_visibility? shown) us)
  | noMembers => simp [Sentence.exprs, Member.exprsOf]
  | @nextMember us vs m ms first _ ih ih' =>
      simp only [Sentence.exprs, Member.exprsOf, List.forall_mem_append]
      exact ⟨fun e mem => (ih e mem).within (.first us vs),
        fun e mem => (ih' e mem).within (.follows first.noDot vs)⟩

end Pseudocode

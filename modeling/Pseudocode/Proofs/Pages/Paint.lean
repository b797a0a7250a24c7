import Pseudocode.Diagnostic

/-!
Paint and what is left without it.

Paint puts control sequences around a text; nothing but that, and the length of those around
a line number, is relied on (`PaintLaws`). `deleteEscapes` takes them out again, and `Fades`
says that a painted text shows as a plain one wherever it stands, so that what is put together
from such texts does so as well.
-/

namespace Pseudocode

/-! ### Deleting control sequences -/

/-- The characters that end a control sequence: from `@` to `~`, but not the bracket that
stands behind the escape character. -/
def endsControl (c : Char) : Bool := 0x40 ≤ c.toNat && c.toNat ≤ 0x7e && c != '['

/-- A text without its control sequences; each goes from the escape character to the
character that ends it. -/
def withoutControls : Bool → List Char → List Char
  | _, [] => []
  | true, c :: cs => withoutControls (!endsControl c) cs
  | false, c :: cs =>
      if c = '\x1b' then withoutControls true cs else c :: withoutControls false cs

def deleteEscapes (s : String) : String := String.ofList (withoutControls false s.toList)

/-- The character does not occur in the text. -/
def Lacks (c : Char) (s : String) : Prop := c ∉ s.toList

instance (c : Char) (s : String) : Decidable (Lacks c s) :=
  inferInstanceAs (Decidable (c ∉ s.toList))

theorem Lacks.append {c : Char} {s t : String} (first : Lacks c s) (second : Lacks c t) :
    Lacks c (s ++ t) := by
  intro mem
  rw [String.toList_append] at mem
  exact (List.mem_append.mp mem).elim first second

theorem lacks_replicate {c d : Char} (other : c ≠ d) (n : Nat) :
    Lacks c (String.ofList (List.replicate n d)) := by
  intro mem
  rw [String.toList_ofList] at mem
  exact other (List.eq_of_mem_replicate mem)

/-- A text without control sequences. -/
abbrev Clean (s : String) : Prop := Lacks '\x1b' s

theorem withoutControls_clean {cs : List Char} (clean : '\x1b' ∉ cs) (rest : List Char) :
    withoutControls false (cs ++ rest) = cs ++ withoutControls false rest := by
  induction cs with
  | nil => rfl
  | cons c cs ih =>
      simp only [List.mem_cons, not_or] at clean
      rw [List.cons_append, withoutControls, if_neg (Ne.symm clean.1), ih clean.2, List.cons_append]

theorem withoutControls_escape (code : String) (rest : List Char)
    (parameters : code.toList.all (!endsControl ·)) :
    withoutControls false ((escape code).toList ++ rest) = withoutControls false rest := by
  have inside : ∀ cs : List Char, cs.all (!endsControl ·) →
      withoutControls true (cs ++ 'm' :: rest) = withoutControls false rest := by
    intro cs each
    induction cs with
    | nil => rfl
    | cons c cs ih =>
        obtain ⟨here, more⟩ : (!endsControl c) = true ∧ cs.all (!endsControl ·) = true :=
          Bool.and_eq_true_iff.mp each
        rw [List.cons_append, withoutControls, here]
        exact ih more
  have whole : (escape code).toList ++ rest = '\x1b' :: '[' :: (code.toList ++ 'm' :: rest) := by
    simp [escape]
  rw [whole]
  exact inside code.toList parameters

/-- Nothing but control sequences. -/
inductive Controls : String → Prop
  | none : Controls ""
  | more {code s : String} (parameters : code.toList.all (!endsControl ·)) (others : Controls s) :
      Controls (escape code ++ s)

theorem Controls.withoutControls_eq {s : String} (controls : Controls s) (rest : List Char) :
    withoutControls false (s.toList ++ rest) = withoutControls false rest := by
  induction controls with
  | none => rfl
  | more parameters _ ih =>
      rw [String.toList_append, List.append_assoc, withoutControls_escape _ _ parameters, ih]

/-- What is relied on of paint. -/
structure PaintLaws (paint : Paint → String → String) : Prop where
  /-- A painted text is the text with control sequences before and behind it. -/
  around : ∀ p, ∃ before behind, Controls before ∧ Controls behind ∧
    ∀ s, paint p s = before ++ s ++ behind
  /-- Those around a line number have ten characters. -/
  gutter : ∀ s, (paint .gutter s).length = s.length + 10

theorem paint_laws : PaintLaws fun p s => p.apply true s := by
  constructor
  case around =>
    have one (code : String) (parameters : code.toList.all (!endsControl ·)) : Controls (escape code) := by
      rw [← String.append_empty (s := escape code)]
      exact .more parameters .none
    have opened := one "1" (by decide)
    have closed := one "0" (by decide)
    intro p
    cases p with
    | error =>
        refine ⟨escape "1" ++ escape "31", escape "39" ++ escape "0", ?_, ?_, fun s => ?_⟩
        · exact .more (by decide) (one "31" (by decide))
        · exact .more (by decide) closed
        · simp only [Paint.apply, if_true, String.append_assoc]
    | gutter => exact ⟨escape "34", escape "39", one _ (by decide), one _ (by decide), fun _ => rfl⟩
    | strong => exact ⟨escape "1", escape "0", opened, closed, fun _ => rfl⟩
  case gutter =>
    intro s
    have before : (escape "34").length = 5 := by decide
    have behind : (escape "39").length = 5 := by decide
    change (escape "34" ++ s ++ escape "39").length = s.length + 10
    rw [String.length_append, String.length_append, before, behind]
    omega

/-! ### Fading -/

/-- A text as it is without its colours, if it has any. -/
def faded (color : Bool) (cs : List Char) : List Char :=
  if color then withoutControls false cs else cs

/-- The painted text shows as the plain one, whatever follows. -/
def Fades (color : Bool) (painted plain : String) : Prop :=
  ∀ rest, faded color (painted.toList ++ rest) = plain.toList ++ faded color rest

variable {color : Bool} {s t s' t' : String}

theorem fades_self (clean : color = true → Clean s) : Fades color s s := by
  intro rest
  cases color with
  | false => rfl
  | true => exact withoutControls_clean (clean rfl) rest

theorem Fades.append (first : Fades color s t) (second : Fades color s' t') :
    Fades color (s ++ s') (t ++ t') := by
  intro rest
  rw [String.toList_append, List.append_assoc, first, second, String.toList_append,
    List.append_assoc]

/-- A text that is the same in all colours. -/
theorem fades_clean (color : Bool) (clean : Clean s) : Fades color s s :=
  fades_self fun _ => clean

/-- With a text behind that has no paint. -/
theorem Fades.bare (first : Fades color s t) (clean : Clean s') : Fades color (s ++ s') (t ++ s') :=
  first.append (fades_clean color clean)

theorem Fades.join {α : Type} {xs : List α} {f g : α → String}
    (each : ∀ x ∈ xs, Fades color (f x) (g x)) :
    Fades color (String.join (xs.map f)) (String.join (xs.map g)) := by
  induction xs with
  | nil => exact fades_self fun _ => List.not_mem_nil
  | cons x xs ih =>
      obtain ⟨first, more⟩ := List.forall_mem_cons.mp each
      rw [List.map_cons, List.map_cons, String.join_cons, String.join_cons]
      exact first.append (ih more)

/-- Paint shows as nothing. -/
theorem fades_paint (p : Paint) (clean : color = true → Clean s) :
    Fades color (p.apply color s) s := by
  cases color with
  | false => exact fades_self clean
  | true =>
      intro rest
      obtain ⟨before, behind, opening, closing, around⟩ := paint_laws.around p
      change withoutControls false ((p.apply true s).toList ++ rest) = _
      rw [around, String.toList_append, String.toList_append, List.append_assoc, List.append_assoc,
        opening.withoutControls_eq, withoutControls_clean (clean rfl), closing.withoutControls_eq]
      rfl

theorem Fades.eq (fades : Fades false s t) : s = t := by
  have same := fades []
  rw [List.append_nil] at same
  exact String.toList_inj.mp (same.trans (List.append_nil _))

theorem Fades.deleteEscapes_eq (fades : Fades true s t) : deleteEscapes s = t := by
  have same := fades []
  rw [List.append_nil] at same
  rw [deleteEscapes, ← String.toList_inj, String.toList_ofList]
  exact same.trans (List.append_nil _)

end Pseudocode

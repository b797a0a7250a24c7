import Mathlib.Data.List.Basic
import Pseudocode.Proofs.ScopeTree.Steps
import Pseudocode.Proofs.Marks

/-!
Names in trees of scopes.

`Reaches h name s t` says that a name looked for from scope `s` outward is looked for in
scope `t`: no scope before `t` binds it. Reading a name and finding its owner both give
the scope that is reached and binds the name (`Resolves`). A step writes at most one
binding (`Binds`), and afterwards a name stands for something else only where the
binding that was written is reached (`ScopeStep.lookup_apply`).
-/

namespace Pseudocode

namespace Heap

/-- Scope `t` is `s`, or a scope around it, and the scopes before `t` do not bind the name. -/
inductive Reaches (h : Heap) (name : String) : ScopeId → ScopeId → Prop where
  | here {t : ScopeId} : Reaches h name t t
  | outward {s p t : ScopeId} {boundary : Bool} (place : h.place? s = some (some p, boundary))
      (free : h.hasLocal s name = false) (around : Reaches h name p t) : Reaches h name s t

/-- Reading a name and finding its owner agree. -/
structure Resolves (h : Heap) (s : ScopeId) (name : String) : Prop where
  owner : ∀ t, h.resolve? s name = some t ↔ h.Reaches name s t ∧ h.hasLocal t name = true
  succeeds : (∃ v, h.lookup s name = .ok v) ↔ ∃ t, h.resolve? s name = some t
  found : ∀ t, h.resolve? s name = some t → ∃ v, h.local? t name = some v ∧ h.lookup s name = .ok v
  missing : h.resolve? s name = none → h.lookup s name = .error (.undefinedVariable name)

/-- The second heap is the first one with a value bound to a name in scope `t`: in place,
or as its last name. -/
structure Binds (h : Heap) (t : ScopeId) (name : String) (v : Value) (h' : Heap) : Prop where
  bound : h'.local? t name = some v
  others : ∀ u other, u ≠ t ∨ other ≠ name → h'.local? u other = h.local? u other
  names : ∀ u, h'.localNames u =
    if u = t ∧ h.hasLocal t name = false then h.localNames u ++ [name] else h.localNames u
  marks : ∀ u, h'.marks? u = h.marks? u
  rest : h' = h.withScopes h'.scopes

variable {h h' : Heap} {s t p : ScopeId} {ss : List ScopeId} {name other : String} {v : Value}

/-! ### Owners -/

theorem reaches_outermost_iff {boundary : Bool} (place : h.place? s = some (none, boundary)) :
    h.Reaches name s t ↔ s = t := by
  constructor
  · intro reaches
    cases reaches with
    | here => rfl
    | outward inside _ _ =>
        rw [place] at inside
        cases inside
  · rintro rfl
    exact .here

theorem reaches_inside_iff {boundary : Bool} (place : h.place? s = some (some p, boundary)) :
    h.Reaches name s t ↔ s = t ∨ h.hasLocal s name = false ∧ h.Reaches name p t := by
  constructor
  · intro reaches
    cases reaches with
    | here => exact .inl rfl
    | outward inside free around =>
        rw [place] at inside
        cases inside
        exact .inr ⟨free, around⟩
  · rintro (rfl | ⟨free, around⟩)
    · exact .here
    · exact .outward place free around

theorem Chain.resolve?_eq_some_iff (chain : h.Chain s ss) (ordered : h.Ordered) :
    h.resolve? s name = some t ↔ h.Reaches name s t ∧ h.hasLocal t name = true := by
  rw [chain.resolve?_eq ordered]
  induction chain with
  | @outermost s _ place =>
      rw [reaches_outermost_iff place, List.find?_singleton]
      by_cases same : s = t
      · subst same
        simp
      · simp [same]
  | @inside s p _ ss place _ ih =>
      rw [reaches_inside_iff place, List.find?_cons]
      by_cases same : s = t
      · subst same
        cases bound : h.hasLocal s name with
        | true => simp
        | false => simp [ih, bound]
      · cases bound : h.hasLocal s name with
        | true => simp [same]
        | false => simp [same, ih]

/-- What a name stands for is what its owner binds it to. -/
theorem Chain.lookup?_eq_bind (chain : h.Chain s ss) (ordered : h.Ordered) :
    h.lookup? s name = (h.resolve? s name).bind (h.local? · name) := by
  rw [chain.lookup?_eq ordered, chain.resolve?_eq ordered]
  clear chain
  induction ss with
  | nil => rfl
  | cons t ss ih =>
      rw [List.findSome?_cons, List.find?_cons, hasLocal]
      cases bound : h.local? t name with
      | none => exact ih
      | some v => exact bound.symm

theorem lookup_eq_ok_iff : h.lookup s name = .ok v ↔ h.lookup? s name = some v := by
  unfold lookup
  cases h.lookup? s name <;> simp

theorem lookup_congr (same : h'.lookup? s name = h.lookup? s name) :
    h'.lookup s name = h.lookup s name := by
  rw [lookup, lookup, same]

theorem Ordered.resolves (ordered : h.Ordered) (valid : s < h.scopes.size) (name : String) :
    h.Resolves s name := by
  obtain ⟨ss, chain⟩ := ordered.exists_chain valid
  have read : h.lookup? s name = (h.resolve? s name).bind (h.local? · name) :=
    chain.lookup?_eq_bind ordered
  have found : ∀ t, h.resolve? s name = some t →
      ∃ v, h.local? t name = some v ∧ h.lookup s name = .ok v := by
    intro t owner
    have binds := ((chain.resolve?_eq_some_iff ordered).mp owner).2
    obtain ⟨v, bound⟩ := Option.isSome_iff_exists.mp binds
    rw [owner, Option.bind_some, bound] at read
    exact ⟨v, bound, lookup_eq_ok_iff.mpr read⟩
  constructor
  case owner => exact fun t => chain.resolve?_eq_some_iff ordered
  case found => exact found
  case succeeds =>
    constructor
    · rintro ⟨v, ok⟩
      rw [lookup_eq_ok_iff.mp ok] at read
      obtain ⟨t, owner, -⟩ := Option.bind_eq_some_iff.mp read.symm
      exact ⟨t, owner⟩
    · rintro ⟨t, owner⟩
      obtain ⟨v, -, ok⟩ := found t owner
      exact ⟨v, ok⟩
  case missing =>
    intro none
    rw [none, Option.bind_none] at read
    rw [lookup, read]

/-! ### Writing a binding -/

theorem binds_setLocal (valid : t < h.scopes.size) (name : String) (v : Value) :
    h.Binds t name v (h.setLocal t name v) where
  bound := local?_setLocal_self name v valid
  others u other differs := local?_setLocal_of_ne v (differs.imp_left Ne.symm)
  names u := by
    by_cases same : u = t
    · subst same
      rw [localNames_setLocal_self name v valid]
      cases bound : h.hasLocal u name with
      | true => simp [(hasLocal_iff name).mp bound]
      | false =>
          have new : name ∉ h.localNames u := by
            rw [← hasLocal_iff, bound]
            exact Bool.false_ne_true
          simp [new]
    · rw [localNames_setLocal_of_ne name v (Ne.symm same), if_neg fun here => same here.1]
  marks u := by
    unfold marks?
    rw [scope?_setLocal]
    split
    · cases h.scope? u <;> rfl
    · rfl
  rest := rfl

/-- A search along a chain after a value was written in scope `t`. -/
theorem Chain.findSome?_setLocal (chain : h.Chain s ss) (valid : t < h.scopes.size) (v : Value) :
    (h.Reaches name s t → ss.findSome? ((h.setLocal t name v).local? · name) = some v) ∧
      (¬h.Reaches name s t →
        ss.findSome? ((h.setLocal t name v).local? · name) = ss.findSome? (h.local? · name)) := by
  have written := local?_setLocal_self name v valid
  induction chain with
  | @outermost s _ place =>
      rw [reaches_outermost_iff place]
      constructor
      · rintro rfl
        rw [List.findSome?_cons, written]
      · intro ne
        simp only [List.findSome?_cons, local?_setLocal_of_ne v (.inl (Ne.symm ne)), List.findSome?_nil]
  | @inside s p _ ss place _ ih =>
      rw [reaches_inside_iff place, List.findSome?_cons, List.findSome?_cons]
      by_cases same : s = t
      · subst same
        simp [written]
      · have kept : (h.setLocal t name v).local? s name = h.local? s name :=
          local?_setLocal_of_ne v (.inl (Ne.symm same))
        rw [kept]
        cases bound : h.local? s name with
        | some w => simp [same, hasLocal, bound]
        | none => simpa [same, hasLocal, bound] using ih

theorem Chain.lookup?_congr (chain : h.Chain s ss) (ordered : h.Ordered) (ordered' : h'.Ordered)
    (places : ∀ u ∈ ss, h'.place? u = h.place? u)
    (locals : ∀ u ∈ ss, h'.local? u name = h.local? u name) :
    h'.lookup? s name = h.lookup? s name := by
  rw [(chain.congr places).lookup?_eq ordered', chain.lookup?_eq ordered,
    ← List.head?_filterMap, ← List.head?_filterMap, List.filterMap_congr locals]

theorem Chain.lookup?_setLocal (chain : h.Chain s ss) (ordered : h.Ordered)
    (valid : t < h.scopes.size) (v : Value) :
    (h.Reaches name s t → (h.setLocal t name v).lookup? s name = some v) ∧
      (¬h.Reaches name s t → (h.setLocal t name v).lookup? s name = h.lookup? s name) := by
  have places := place?_setLocal (h := h) t name v
  have ordered' : (h.setLocal t name v).Ordered := fun u p boundary place =>
    ordered (by rwa [places] at place)
  rw [(chain.congr fun u _ => places u).lookup?_eq ordered', chain.lookup?_eq ordered]
  exact chain.findSome?_setLocal valid v

end Heap

open Heap

variable {h : Heap} {s t : ScopeId} {name : String} {v : Value}

namespace ScopeStep

variable {step : ScopeStep}

theorem lt_of_writes (fits : step.Fits h) (binding : step.writes h = some (t, name, v)) :
    t < h.scopes.size := by
  cases step with
  | declare s new _ =>
      simp only [writes] at binding
      split at binding
      · cases binding
      · obtain ⟨rfl, -⟩ := Prod.mk.inj (Option.some.inj binding)
        exact fits s rfl
  | setLocal s _ _ =>
      obtain ⟨rfl, -⟩ := Prod.mk.inj (Option.some.inj binding)
      exact fits s rfl
  | assign s assigned _ =>
      obtain ⟨rfl, -⟩ := Prod.mk.inj (Option.some.inj binding)
      rcases h.assign_owner s assigned with bound | here
      · exact lt_of_hasLocal bound
      · rw [here]
        exact fits s rfl
  | _ => cases binding

/-- A name stands for something else after a step only where it reaches the binding that
the step wrote, and there it stands for the value that was written. -/
theorem lookup_apply (fits : step.Fits h) (ordered : h.Ordered) (valid : s < h.scopes.size)
    (name : String) :
    (∀ t v, step.writes h = some (t, name, v) → h.Reaches name s t →
        (step.apply h).lookup s name = .ok v) ∧
      ((∀ t v, step.writes h = some (t, name, v) → ¬h.Reaches name s t) →
        (step.apply h).lookup s name = h.lookup s name) := by
  obtain ⟨ss, chain⟩ := ordered.exists_chain valid
  have ordered' := ordered_apply fits ordered
  have does := step.does h
  generalize step.apply h = h' at does ordered'
  cases does with
  | @adds scope _ _ idle =>
      rw [idle]
      constructor
      · nofun
      · intro _
        apply lookup_congr
        apply chain.lookup?_congr ordered ordered'
        · intro u mem
          exact place?_newScope_of_lt scope (chain.valid u mem)
        · intro u mem
          simp only [local?, scope?_newScope, if_neg (Nat.ne_of_lt (chain.valid u mem))]
  | @writes t written v binding =>
      rw [binding]
      have exists_scope := lt_of_writes fits binding
      by_cases same : written = name
      · subst same
        constructor
        · rintro _ _ ⟨⟩ reaches
          exact lookup_eq_ok_iff.mpr ((chain.lookup?_setLocal ordered exists_scope v).1 reaches)
        · intro apart
          exact lookup_congr ((chain.lookup?_setLocal ordered exists_scope v).2 (apart t v rfl))
      · constructor
        · rintro _ _ ⟨⟩
          exact absurd rfl same
        · intro _
          apply lookup_congr
          apply chain.lookup?_congr ordered ordered'
          · exact fun u _ => place?_setLocal t written v u
          · exact fun u _ => local?_setLocal_of_ne v (.inr (Ne.symm same))
  | keeps undisturbed idle =>
      rw [idle]
      constructor
      · nofun
      · intro _
        apply lookup_congr
        exact chain.lookup?_congr ordered ordered' (fun u _ => undisturbed.places u)
          fun u _ => undisturbed.locals u name

end ScopeStep

namespace ScopeTree

theorem lookup_assign (tree : ScopeTree h) (valid : s < h.scopes.size) (name : String) (v : Value) :
    (h.assign s name v).lookup s name = .ok v := by
  have fits : (ScopeStep.assign s name v).Fits h := by rintro _ ⟨⟩; exact valid
  have reads := (ScopeStep.lookup_apply fits tree.ordered valid name).1
  apply reads _ v rfl
  cases found : h.resolve? s name with
  | none => exact .here
  | some t => exact (((tree.ordered.resolves valid name).owner t).mp found).1

/-- The operations on names agree with each other, in every scope of every tree. -/
theorem names_agree (tree : ScopeTree h) (valid : s < h.scopes.size) (name : String) (v : Value) :
    h.Resolves s name ∧
      (h.Binds ((h.resolve? s name).getD s) name v (h.assign s name v) ∧
        (h.assign s name v).lookup s name = .ok v) ∧
      (h.hasLocal s name = true → h.declare s name v = (.error (.redeclaration name), h)) ∧
      (h.hasLocal s name = false →
        (h.declare s name v).1 = .ok () ∧ h.Binds s name v (h.declare s name v).2) ∧
      ∀ step : ScopeStep, step.Fits h →
        (∀ t w, step.writes h = some (t, name, w) → h.Reaches name s t →
            (step.apply h).lookup s name = .ok w) ∧
          ((∀ t w, step.writes h = some (t, name, w) → ¬h.Reaches name s t) →
            (step.apply h).lookup s name = h.lookup s name) := by
  have fits : (ScopeStep.assign s name v).Fits h := by rintro _ ⟨⟩; exact valid
  have owner : (h.resolve? s name).getD s < h.scopes.size := ScopeStep.lt_of_writes fits rfl
  constructor
  · exact tree.ordered.resolves valid name
  constructor
  · exact ⟨binds_setLocal owner name v, tree.lookup_assign valid name v⟩
  constructor
  · intro bound
    exact if_pos bound
  constructor
  · intro free
    have stored : h.declare s name v = (.ok (), h.setLocal s name v) := by simp [declare, free]
    rw [stored]
    exact ⟨rfl, binds_setLocal valid name v⟩
  · intro step fits
    exact ScopeStep.lookup_apply fits tree.ordered valid name

/-- A name of the outermost scope, seen from a block. -/
theorem names_agree_in_block :
    ∃ h : Heap, ScopeTree h ∧ h.resolve? 1 "x" = some 0 ∧ h.Resolves 1 "x" ∧
      (h.assign 1 "x" (.integer 2)).lookup 1 "x" = .ok (.integer 2) := by
  have root := ScopeTree.empty.step .newRoot (by nofun)
  have bound := root.step (.declare 0 "x" (.integer 1)) (by rintro _ ⟨⟩; exact Nat.zero_lt_one)
  have block := bound.step (.newBlock 0) (by rintro _ ⟨⟩; exact Nat.zero_lt_one)
  obtain ⟨resolves, ⟨-, assigned⟩, -⟩ := block.names_agree (s := 1) Nat.one_lt_two "x" (.integer 2)
  exact ⟨_, block, by decide, resolves, assigned⟩

end ScopeTree

end Pseudocode

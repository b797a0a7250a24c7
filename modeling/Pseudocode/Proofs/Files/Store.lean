import Mathlib.Data.List.Basic
import Pseudocode.World.Basic

/-!
The two kinds of file systems are lawful.

In a flat file system a path is the name of its file, and what a write does is plain
(`FileSystem.flat_lawful`). In a tree the name is what is left of a path once it has been
followed. No path leads elsewhere after a write, because the only directories that a new
file shows are those that it was reached through (`FileSystem.tree_lawful`).
-/

namespace Pseudocode

theorem Bindings.any_put {α : Type} (bs : Bindings α) (name : String) (v : α) (p : String → Bool) :
    (bs.put name v).any (fun b => p b.1) = (bs.any (fun b => p b.1) || p name) := by
  induction bs with
  | nil => simp [put]
  | cons b rest ih =>
      obtain ⟨n, w⟩ := b
      by_cases same : n = name
      · subst same
        simp only [put, beq_self_eq_true, if_true, List.any_cons]
        cases p n <;> simp
      · simp [put, same, ih, Bool.or_assoc]

namespace Path

/-! ### Names and texts -/

/-- Names that hold no slash, as all names of a path are. -/
def Slashless (path : List String) : Prop := ∀ name ∈ path, '/' ∉ name.toList

theorem slashless_names (path : String) : Slashless (names path) := by
  intro name mem
  obtain ⟨part, inside, rfl⟩ := List.mem_map.mp mem
  rw [String.toList_ofList]
  exact Text.notMem_of_mem_split inside

theorem Slashless.append {path : List String} {name : String} (slashless : Slashless path)
    (plain : '/' ∉ name.toList) : Slashless (path ++ [name]) := by
  intro other mem
  rcases List.mem_append.mp mem with old | new
  · exact slashless other old
  · rw [List.mem_singleton.mp new]
    exact plain

/-- The names are found again between the slashes. -/
theorem split_text {path : List String} (slashless : Slashless path) (some : path ≠ []) :
    Text.split '/' (text path).toList = path.map String.toList := by
  rw [text, String.toList_intercalate]
  refine Text.split_intercalate (by simpa using some) ?_
  intro part mem
  obtain ⟨name, inside, rfl⟩ := List.mem_map.mp mem
  exact slashless name inside

/-- A text that goes on after a directory and a slash is that of a path through the
directory. -/
theorem prefix_of_text_prefix {directory path : List String} (slashless : Slashless directory)
    (slashless' : Slashless path) (some : directory ≠ []) (some' : path ≠ [])
    (below : (text directory ++ "/").toList <+: (text path).toList) : directory <+: path := by
  obtain ⟨rest, eq⟩ := below
  have parts : directory.map String.toList ++ Text.split '/' rest = path.map String.toList := by
    rw [← split_text slashless some, ← split_text slashless' some', ← eq, String.toList_append]
    exact (Text.split_append_cons _ rest).symm.trans (by simp)
  have front : directory.map String.toList = (path.take directory.length).map String.toList := by
    rw [List.map_take, ← parts, List.take_left' (by simp)]
  rw [List.map_injective_iff.mpr (fun _ _ => String.toList_inj.mp) front]
  exact List.take_prefix _ path

/-! ### Directories -/

/-- The directory and all those on the way to it are known. -/
def Known (files : Bindings String) (directory : List String) : Prop :=
  ∀ d, d <+: directory → isDirectory files d = true

variable {files : Bindings String} {purpose : Purpose} {directory ns path : List String}

theorem known_nil : Known files [] := by
  intro d before
  rw [List.prefix_nil.mp before]
  simp [isDirectory]

theorem Known.append (known : Known files directory) {name : String}
    (here : isDirectory files (directory ++ [name]) = true) : Known files (directory ++ [name]) := by
  intro d before
  rcases List.prefix_concat_iff.mp before with rfl | before
  · exact here
  · exact known d before

theorem known_top : Known files top := known_nil.append (by simp [isDirectory, top])

theorem Known.parent (known : Known files directory) : Known files (parent directory) := by
  unfold Path.parent
  split
  · exact known_top
  · split
    · rename_i upward
      have above : (directory ++ [".."]).all (· == "..") = true := by simpa using upward
      exact known.append (by simp only [isDirectory, above, Bool.or_true, Bool.true_or])
    · exact fun d before => known d (before.trans (List.dropLast_prefix directory))

theorem Slashless.parent (slashless : Slashless directory) : Slashless (parent directory) := by
  unfold Path.parent
  split
  · simp [Slashless, top]
  · split
    · exact slashless.append (by decide)
    · exact fun name mem => slashless name ((List.dropLast_subset directory) mem)

/-! ### Following a path -/

/-- A file is found in a known directory. -/
theorem known_of_follow (known : Known files directory) (slashless : Slashless directory)
    (plain : Slashless ns) (found : follow files purpose directory ns = .ok (.file path)) :
    ∃ above name, path = above ++ [name] ∧ Known files above ∧ Slashless path := by
  induction ns generalizing directory with
  | nil => cases found
  | cons name rest ih =>
      have first : '/' ∉ name.toList := plain name List.mem_cons_self
      have others : Slashless rest := fun n mem => plain n (List.mem_cons_of_mem _ mem)
      rw [follow] at found
      split at found
      · exact ih known slashless others found
      · split at found
        · exact ih known.parent slashless.parent others found
        · split at found
          · cases found
          · split at found
            · cases found
            · dsimp only at found
              split at found
              · rename_i here
                exact ih (known.append here) (slashless.append first) others found
              · split at found
                · cases found
                  exact ⟨directory, name, rfl, known, slashless.append first⟩
                · split at found <;> cases found

/-- A file that can be written is the one that would be read. -/
theorem follow_reading (found : follow files .writing directory ns = .ok (.file path)) :
    follow files .reading directory ns = .ok (.file path) := by
  induction ns generalizing directory with
  | nil => cases found
  | cons name rest ih =>
      rw [follow] at found ⊢
      split at found
      · rename_i stays
        rw [if_pos stays]
        exact ih found
      · rename_i moves
        rw [if_neg moves]
        split at found
        · rename_i up
          rw [if_pos up]
          exact ih found
        · rename_i down
          rw [if_neg down, if_neg (by simp)]
          split at found
          · cases found
          · split at found
            · cases found
            · rename_i short
              rw [if_neg short]
              dsimp only at found ⊢
              split at found
              · rename_i here
                rw [if_pos here]
                exact ih found
              · rename_i new
                rw [if_neg new]
                exact found

/-- Files that show the same directories are reached in the same way. -/
theorem fileOf_follow_congr {files' : Bindings String}
    (same : ∀ d, Slashless d → isDirectory files' d = isDirectory files d)
    (slashless : Slashless directory) (plain : Slashless ns) :
    fileOf (follow files' .reading directory ns) = fileOf (follow files .reading directory ns) := by
  induction ns generalizing directory with
  | nil => rfl
  | cons name rest ih =>
      have first : '/' ∉ name.toList := plain name List.mem_cons_self
      have others : Slashless rest := fun n mem => plain n (List.mem_cons_of_mem _ mem)
      have next : Slashless (directory ++ [name]) := slashless.append first
      simp only [follow, same _ next]
      split
      · exact ih slashless others
      · split
        · exact ih slashless.parent others
        · split
          · rfl
          · split
            · rfl
            · split
              · exact ih next others
              · split
                · rfl
                -- Only the reason why there is no file may differ.
                · split <;> split <;> rfl

/-- A new file shows no directory but those it was reached through. -/
theorem isDirectory_put (known : Known files directory) {name : String}
    (slashless : Slashless (directory ++ [name])) (contents : String) {d : List String}
    (plain : Slashless d) :
    isDirectory (files.put (text (directory ++ [name])) contents) d = isDirectory files d := by
  have grown := files.any_put (text (directory ++ [name])) contents
    fun key => (text d ++ "/").toList.isPrefixOf key.toList
  unfold isDirectory
  rw [grown, ← Bool.or_assoc]
  change (isDirectory files d || (text d ++ "/").toList.isPrefixOf _) = isDirectory files d
  cases below : (text d ++ "/").toList.isPrefixOf (text (directory ++ [name])).toList with
  | false => exact Bool.or_false _
  | true =>
      rw [Bool.or_true, eq_comm]
      by_cases none : d = []
      · subst none
        exact known_nil [] List.prefix_rfl
      · have through := prefix_of_text_prefix plain slashless none (by simp)
          (List.isPrefixOf_iff_prefix.mp below)
        rcases List.prefix_concat_iff.mp through with rfl | before
        · -- A directory with the name of the file itself would have to be longer than the file.
          have longer := (List.isPrefixOf_iff_prefix.mp below).length_le
          rw [String.toList_append, List.length_append] at longer
          exact absurd longer (by simp)
        · exact known d before

/-- Where a path starts. -/
def origin (path : String) : List String := if path.startsWith "/" then top else []

theorem known_origin (files : Bindings String) (path : String) :
    Known files (origin path) ∧ Slashless (origin path) := by
  unfold origin
  split
  · exact ⟨known_top, by simp [Slashless, top]⟩
  · exact ⟨known_nil, by simp [Slashless]⟩

/-- A path is unfit for all purposes, or it is followed. -/
theorem locate_cases (path : String) :
    (∃ problem, ∀ files purpose, locate files purpose path = .error problem) ∨
      ∀ files purpose, locate files purpose path = follow files purpose (origin path) (names path) := by
  unfold locate
  split
  · exact .inl ⟨_, fun _ _ => rfl⟩
  · split
    · exact .inl ⟨_, fun _ _ => rfl⟩
    · split
      · exact .inl ⟨_, fun _ _ => rfl⟩
      · exact .inr fun _ _ => rfl

/-- What is known when a path leads to a file that can be written: reading it leads to
the same file, and no path leads elsewhere once it is written. -/
theorem locate_writing {p : String} (found : locate files .writing p = .ok (.file path)) :
    locate files .reading p = .ok (.file path) ∧
      ∀ contents q, fileOf (locate (files.put (text path) contents) .reading q) =
        fileOf (locate files .reading q) := by
  rcases locate_cases p with ⟨problem, unfit⟩ | followed
  · rw [unfit] at found
    cases found
  · rw [followed] at found
    have start := known_origin files p
    obtain ⟨above, name, rfl, known, slashless⟩ :=
      known_of_follow start.1 start.2 (slashless_names p) found
    refine ⟨(followed files .reading).trans (follow_reading found), ?_⟩
    intro contents q
    rcases locate_cases q with ⟨problem, unfit⟩ | followed'
    · rw [unfit, unfit]
    · rw [followed', followed']
      refine fileOf_follow_congr ?_ (known_origin files q).2 (slashless_names q)
      exact fun d plain => isDirectory_put known slashless contents plain

end Path

namespace FileSystem

open Pseudocode.Path

/-- Whatever is denied at what moment. -/
theorem flat_lawful (denied : Nat → String → Option String) : (flat denied).Lawful := by
  have cases (moment : Nat) (files : Bindings String) (path contents : String) :
      (∃ reason, (flat denied).write moment files path contents = (.error reason, files)) ∨
        (flat denied).write moment files path contents = (.ok (), files.put path contents) := by
    simp only [flat]
    cases denied moment path with
    | some reason => exact .inl ⟨_, rfl⟩
    | none => exact .inr rfl
  constructor
  case refused =>
    intro moment files path contents reason failed
    rcases cases moment files path contents with ⟨_, same⟩ | accepted
    · rw [same]
    · rw [accepted] at failed
      cases failed
  case leads => exact fun _ _ => rfl
  case stores =>
    intro moment files path contents done q
    rcases cases moment files path contents with ⟨_, same⟩ | accepted
    · rw [same] at done
      cases done
    · rw [accepted]
      change (files.put path contents).lookup q = if some q = some path then _ else files.lookup q
      by_cases here : q = path
      · subst here
        rw [if_pos rfl, Bindings.lookup_put_self]
      · rw [if_neg (by simpa using here), Bindings.lookup_put_of_ne _ _ here]

/-- Reading a path is looking up its file. -/
theorem tree_read? (root : String) (files : Bindings String) (path : String) :
    (tree root).read? files path = ((tree root).file? files path).bind fun key => files.lookup key := by
  simp only [tree, Path.read]
  cases locate files .reading (join root path) with
  | error problem => rfl
  | ok place =>
      cases place with
      | directory d => rfl
      | file names =>
          simp only [fileOf, Option.bind_some]
          cases files.lookup (text names) <;> rfl

/-- A write to a tree is refused, or sets the file that its path leads to. -/
theorem tree_write_cases (root : String) (moment : Nat) (files : Bindings String) (path contents : String) :
    (∃ reason, (tree root).write moment files path contents = (.error reason, files)) ∨
      ∃ key, (tree root).file? files path = some key ∧
        (tree root).write moment files path contents = (.ok (), files.put key contents) ∧
        ∀ q, (tree root).file? (files.put key contents) q = (tree root).file? files q := by
  simp only [tree]
  cases found : locate files .writing (join root path) with
  | error problem => exact .inl ⟨_, rfl⟩
  | ok place =>
      cases place with
      | directory d => exact .inl ⟨_, rfl⟩
      | file names =>
          obtain ⟨led, keeps⟩ := locate_writing found
          exact .inr ⟨text names, by rw [led, fileOf], rfl, fun q => keeps contents _⟩

theorem tree_lawful (root : String) : (tree root).Lawful := by
  constructor
  case refused =>
    intro moment files path contents reason failed
    rcases tree_write_cases root moment files path contents with ⟨_, same⟩ | ⟨key, -, accepted, -⟩
    · rw [same]
    · rw [accepted] at failed
      cases failed
  case leads =>
    intro moment files path contents done q
    rcases tree_write_cases root moment files path contents with ⟨_, same⟩ | ⟨key, -, accepted, keeps⟩
    · rw [same]
    · rw [accepted]
      exact keeps q
  case stores =>
    intro moment files path contents done q
    rcases tree_write_cases root moment files path contents with ⟨_, same⟩ | ⟨key, led, accepted, keeps⟩
    · rw [same] at done
      cases done
    · rw [accepted, tree_read?, tree_read?, keeps, led]
      dsimp only
      split
      · rename_i same
        rw [same, Option.bind_some, Bindings.lookup_put_self]
      · rename_i other
        cases toward : (tree root).file? files q with
        | none => rfl
        | some key' =>
            rw [toward] at other
            exact Bindings.lookup_put_of_ne _ _ fun same => other (congrArg some same)

end FileSystem

namespace FileStore

variable {s : FileStore} {moment : Nat} {path contents : String}

/-- A refused write changes nothing. -/
theorem write_of_error (lawful : s.system.Lawful) {reason : String}
    (refused : (s.write moment path contents).1 = .error reason) :
    (s.write moment path contents).2 = s := by
  have same := lawful.refused refused
  change { s with files := (s.system.write moment s.files path contents).2 } = s
  rw [same]

/-- After an accepted write every path leads where it led. -/
theorem file?_write (lawful : s.system.Lawful) (accepted : (s.write moment path contents).1 = .ok ())
    (q : String) : (s.write moment path contents).2.file? q = s.file? q :=
  lawful.leads accepted q

/-- An accepted write sets the contents of its file, whatever path leads to it, and
of no other. -/
theorem read?_write (lawful : s.system.Lawful) (accepted : (s.write moment path contents).1 = .ok ())
    (q : String) : (s.write moment path contents).2.read? q =
      if s.file? q = s.file? path then some contents else s.read? q :=
  lawful.stores accepted q

end FileStore

end Pseudocode

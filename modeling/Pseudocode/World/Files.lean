import Pseudocode.World.Path

/-!
Stores of files.

A `FileSystem` says how files are read and written by their paths; what programs rely on
is that it is `Lawful`. A `FileStore` is a file system with the files it holds. There are
two kinds of it: one where paths are plain names, and one where they lead from a root
directory into a tree.
-/

namespace Pseudocode

/-- How files are read and written. The files of a store have names of their own; several
paths may lead to one file. Whether a write succeeds may depend on the moment, which is
given as the number of writes before it. -/
structure FileSystem where
  /-- The name of the file that a path leads to. -/
  file? : Bindings String → String → Option String
  /-- The contents of the file at a path. -/
  read? : Bindings String → String → Option String
  write : Nat → Bindings String → String → String → Except String Unit × Bindings String

/-- What programs rely on. -/
structure FileSystem.Lawful (system : FileSystem) : Prop where
  /-- A failed write changes nothing. -/
  refused : ∀ {moment files path contents reason},
    (system.write moment files path contents).1 = .error reason →
      (system.write moment files path contents).2 = files
  /-- After a write every path leads where it led. -/
  leads : ∀ {moment files path contents},
    (system.write moment files path contents).1 = .ok () →
      ∀ q, system.file? (system.write moment files path contents).2 q = system.file? files q
  /-- A write sets the contents of the file of its path, and of no other. -/
  stores : ∀ {moment files path contents},
    (system.write moment files path contents).1 = .ok () →
      ∀ q, system.read? (system.write moment files path contents).2 q =
        if system.file? files q = system.file? files path then some contents
        else system.read? files q

namespace FileSystem

def writeFailure (path reason : String) : String := "cannot write " ++ path ++ ": " ++ reason

/-- Paths are plain names. At some moments, writing to some of them is denied for a
reason. -/
def flat (denied : Nat → String → Option String) : FileSystem where
  file? _ path := some path
  read? files path := files.lookup path
  write moment files path contents :=
    match denied moment path with
    | some reason => (.error (writeFailure path reason), files)
    | none => (.ok (), files.put path contents)

/-- Paths lead from a root directory into a tree. -/
def tree (root : String) : FileSystem where
  file? files path := Path.fileOf (Path.locate files .reading (Path.join root path))
  read? files path := (Path.read files (Path.join root path)).toOption
  write _ files path contents :=
    match Path.locate files .writing (Path.join root path) with
    | .ok (.file names) => (.ok (), files.put (Path.text names) contents)
    | .ok (.directory _) => (.error (writeFailure path PathProblem.isDirectory.message), files)
    | .error problem => (.error (writeFailure path problem.message), files)

end FileSystem

/-- Files by name, and how they are reached. -/
structure FileStore where
  system : FileSystem := .flat fun _ _ => none
  files : Bindings String := []

namespace FileStore

/-- The name under which the store keeps the file that a path leads to. -/
def file? (s : FileStore) (path : String) : Option String := s.system.file? s.files path

/-- The contents of a file. -/
def read? (s : FileStore) (path : String) : Option String := s.system.read? s.files path

/-- Writes a file. -/
def write (s : FileStore) (moment : Nat) (path contents : String) : Except String Unit × FileStore :=
  let (verdict, files) := s.system.write moment s.files path contents
  (verdict, { s with files := files })

end FileStore

end Pseudocode

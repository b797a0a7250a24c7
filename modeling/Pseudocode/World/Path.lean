import Pseudocode.Bindings
import Pseudocode.Text.Lines

/-!
Paths in a tree of files.

A tree is given by its files: a directory exists when a file lies below it. A
path is followed name by name from a starting directory; `.` stays, `..` goes
up, and every name but the last must be a directory. Of what is outside the
tree only the directories above it and the top of all paths are known, and the
files that were written there.
-/

namespace Pseudocode

/-- Why a path cannot be used. -/
inductive PathProblem where
  | missing
  | notDirectory
  | isDirectory
  | tooLong
  /-- The path has a character that no path can have. -/
  | unfit
  deriving DecidableEq, Repr

/-- The wording of the operating system. -/
def PathProblem.message : PathProblem → String
  | missing => "No such file or directory (os error 2)"
  | notDirectory => "Not a directory (os error 20)"
  | isDirectory => "Is a directory (os error 21)"
  | tooLong => "File name too long (os error 36)"
  | unfit => "file name contained an unexpected NUL byte"

namespace Path

/-- The names of a path. -/
def names (path : String) : List String := (Text.split '/' path.toList).map String.ofList

/-- The text of a path given by its names. -/
def text (path : List String) : String := "/".intercalate path

/-- A directory and a path relative to it; an absolute path stands for itself. -/
def join (directory path : String) : String :=
  if path.startsWith "/" then path
  else if directory.isEmpty || directory.endsWith "/" then directory ++ path
  else directory ++ "/" ++ path

/-- The top of all paths. The directory where paths start has no names, and the
ones above it have the name `..` only. -/
def top : List String := [""]

/-- The directory that holds another one; the top holds itself. -/
def parent (path : List String) : List String :=
  if path == top then top
  else if path.all (· == "..") then path ++ [".."]
  else path.dropLast

/-- The directory is known, or some file lies below it. -/
def isDirectory (files : Bindings String) (path : List String) : Bool :=
  path == top || path.all (· == "..")
    || files.any fun f => (text path ++ "/").toList.isPrefixOf f.1.toList

/-- A file in the tree, not outside it. -/
def isInside (path : String) : Bool := !path.startsWith "/" && !path.startsWith "../"

/-- What a path is used for. -/
inductive Purpose where
  | reading
  | writing
  deriving DecidableEq, Repr

/-- What a path leads to. -/
inductive Place where
  | directory (path : List String)
  | file (path : List String)
  deriving DecidableEq, Repr

/-- The greatest length of a name, in bytes. -/
def longestName : Nat := 255

/-- The greatest length of a path, in bytes. -/
def longestPath : Nat := 4095

/-- Follows the names of a path from the directory `at_`. A name with a slash
after it is meant as a directory, and none is ever written. -/
def follow (files : Bindings String) (purpose : Purpose) (at_ : List String) :
    List String → Except PathProblem Place
  | [] => .ok (.directory at_)
  | name :: rest =>
      if name = "" || name = "." then follow files purpose at_ rest
      else if name = ".." then follow files purpose (parent at_) rest
      else if purpose = .writing && !rest.isEmpty && rest.all (· == "") then .error .isDirectory
      else if longestName < name.utf8ByteSize then .error .tooLong
      else
        let next := at_ ++ [name]
        if isDirectory files next then follow files purpose next rest
        else if rest.isEmpty then .ok (.file next)
        else if (files.lookup (text next)).isSome then .error .notDirectory
        else .error .missing

/-- What a path leads to in a tree of files. -/
def locate (files : Bindings String) (purpose : Purpose) (path : String) :
    Except PathProblem Place :=
  if path.toList.contains '\x00' then .error .unfit
  else if path.isEmpty then .error .missing
  else if longestPath < path.utf8ByteSize then .error .tooLong
  else follow files purpose (if path.startsWith "/" then top else []) (names path)

/-- The file that a path leads to, when it leads to one. -/
def fileOf : Except PathProblem Place → Option String
  | .ok (.file path) => some (text path)
  | _ => none

/-- The contents of the file at a path. -/
def read (files : Bindings String) (path : String) : Except PathProblem String :=
  match locate files .reading path with
  | .ok (.file names) =>
      match files.lookup (text names) with
      | some contents => .ok contents
      | none => .error .missing
  | .ok (.directory _) => .error .isDirectory
  | .error problem => .error problem

end Path

end Pseudocode

import ErrorHints.Files.Path
import ErrorHints.Slots

/-!
# Trees of files

A tree of directories and files without links, seen from a working directory.
A walk along a path takes one step at a time from directory to directory; `..`
goes back up and stays at the root.

Results:
* `walk_append`: a walk may be broken off at any directory and go on from there.
-/
namespace ErrorHints

/-- A file, or a directory with its entries in the order in which the system lists them. -/
inductive Node where
  | file
  | directory (entries : List (String × Node))
  deriving Inhabited

/-- Why nothing is found at a path. -/
inductive PathFault where
  | missing | notDirectory | nameTooLong
  deriving DecidableEq, Repr

/-- How the system words the fault. -/
def PathFault.message : PathFault → String
  | missing => "No such file or directory (os error 2)"
  | notDirectory => "Not a directory (os error 20)"
  | nameTooLong => "File name too long (os error 36)"

/-- Bytes in one name of a path, at most. -/
def maxNameBytes : Nat := 255

/-- A path has fewer bytes than this. -/
def pathByteLimit : Nat := 4096

namespace Node

def empty : Node := directory []

/-- The entries of a directory; a file has none. -/
def entries : Node → Slots String Node
  | file => []
  | directory es => es

def isFile : Node → Bool
  | file => true
  | directory _ => false

/-- The tree with a directory at the end of a list of names, made if it is missing. -/
def withDirectory : List String → Node → Node
  | [], n => n
  | name :: names, n =>
    directory (n.entries.put name (withDirectory names ((Slots.get? name n.entries).getD empty)))

/-- The tree with a file at the end of a list of names, and the directories on the way. -/
def withFile : List String → Node → Node
  | [], _ => file
  | name :: names, n =>
    directory (n.entries.put name (withFile names ((Slots.get? name n.entries).getD empty)))

/-- Take the steps of a path from the directory at the end of `names`, and make every
directory that is missing on the way. The result is the tree and the place reached. -/
def makeAlong (n : Node) (names : List String) : List (List Char) → Node × List String
  | [] => (n, names)
  | part :: parts =>
    if part = ['.'] then n.makeAlong names parts
    else if part = ['.', '.'] then n.makeAlong names.dropLast parts
    else
      let names := names ++ [String.ofList part]
      (n.withDirectory names).makeAlong names parts

/-- The tree with a directory at a path, and the directories on the way. -/
def withDirectoryAt (n : Node) (path : String) : Node :=
  (n.makeAlong [] (Path.steps path.toList)).1

/-- The tree with a file at a path, and the directories on the way. -/
def withFileAt (n : Node) (path : String) : Node :=
  let steps := Path.steps path.toList
  let (tree, names) := n.makeAlong [] steps.dropLast
  match steps.getLast? with
  | some last => tree.withFile (names ++ [String.ofList last])
  | none => tree

end Node

/-- A node and the directories above it, nearest first. -/
structure Place where
  node : Node
  above : List Node := []

namespace Place

/-- One step of a walk. -/
def step (p : Place) (part : List Char) : Except PathFault Place :=
  match p.node with
  | .file => .error .notDirectory
  | .directory entries =>
    if part = ['.'] then .ok p
    else if part = ['.', '.'] then
      match p.above with
      | [] => .ok p
      | up :: above => .ok ⟨up, above⟩
    else
      let name := String.ofList part
      if maxNameBytes < name.utf8ByteSize then .error .nameTooLong
      else
        match Slots.get? name entries with
        | none => .error .missing
        | some n => .ok ⟨n, p.node :: p.above⟩

/-- Step along the parts of a path. -/
def walk (p : Place) : List (List Char) → Except PathFault Place
  | [] => .ok p
  | part :: parts => do walk (← p.step part) parts

theorem walk_append (p : Place) (first second : List (List Char)) :
    p.walk (first ++ second) = (p.walk first).bind (·.walk second) := by
  induction first generalizing p with
  | nil => rfl
  | cons part parts ih =>
    simp only [List.cons_append, walk]
    cases p.step part with
    | error e => rfl
    | ok q => exact ih q

end Place

/-- The files that can be seen: the place of the working directory. -/
structure Files where
  working : Place

namespace Files

/-- The root: the last of the directories above the working directory. -/
def root (f : Files) : Place := ⟨f.working.above.getLast?.getD f.working.node, []⟩

/-- What is found at a path. -/
def find (f : Files) (path : String) : Except PathFault Node :=
  let chars := path.toList
  if path = "" then .error .missing
  else if pathByteLimit ≤ path.utf8ByteSize then .error .nameTooLong
  else
    let first := if Path.isAbsolute chars then f.root else f.working
    (first.walk (Path.steps chars)).map Place.node

def contains (f : Files) (path : String) : Bool := (f.find path).isOk

/-- Whether there is a file at a path. -/
def isFile (f : Files) (path : String) : Bool :=
  match f.find path with
  | .ok n => n.isFile
  | .error _ => false

/-- Whether there is a directory at a path. -/
def isDirectory (f : Files) (path : String) : Bool :=
  match f.find path with
  | .ok n => !n.isFile
  | .error _ => false

end Files

end ErrorHints

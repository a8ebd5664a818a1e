import ErrorHints.Strategy.Basic

/-!
# Suggestions from the file tree

A path that fails may need expanding, may be a directory with something in it,
or may go through a file. These strategies look at the host and at nothing else
but the path.
-/
namespace ErrorHints.Strategy

/-- Entries that are shown of a directory, at most. -/
def maxShown : Nat := 5

/-- Entries that are read of a directory, at most. -/
def maxEntries : Nat := 4096

/-- A path and the call that leads to it, if something is there. -/
def reachable (host : Host) (path call : String) : Option Suggestion :=
  if host.files.contains path then some (.plain (quoted path ++ " (calling " ++ call ++ ")"))
  else none

/-- A path that exists once the home directory or variables are put in. -/
def expandedPath : Strategy :=
  .of "expanded-path" [.fileNotFound] fun cx => do
    let path ← cx.field .path
    let user := cx.host.expandUser path
    let vars := cx.host.expandVariables path
    let both := cx.host.expandVariables user
    return [
      if user = path then none else reachable cx.host user "os.path.expanduser",
      if vars = path then none else reachable cx.host vars "os.path.expandvars",
      if both = user ∨ both = vars then none
      else reachable cx.host both "os.path.expanduser and os.path.expandvars"].reduceOption

/-- What a directory holds, by the names of its entries. -/
def listing (path : String) (names : List String) : String :=
  match (names.take maxEntries).mergeSort (fun a b => decide (a ≤ b)) with
  | [] => "to add content to " ++ path ++ " first"
  | names =>
    "any of the " ++ toString names.length ++ " files in directory (" ++
      ", ".intercalate ((names.take maxShown).map quoted) ++
      (if maxShown < names.length then ", ..." else "") ++ ")"

/-- A directory that was opened as a file. -/
def directoryListing : Strategy :=
  .of "directory-listing" [.isADirectory] fun cx => do
    let path ← cx.field .path
    match cx.host.files.find path with
    | .error fault => throw (.inaccessible path fault)
    | .ok .file => return []
    | .ok (.directory entries) => return [.plain (listing path (Slots.keys entries))]

/-- A file that was used as a directory. -/
def parentDirectory : Strategy :=
  .of "parent-directory" [.notADirectory] fun cx => do
    let path ← cx.field .path
    match Path.parent? path.toList with
    | none => return []
    | some parent =>
      let parent := String.ofList parent
      if cx.host.files.isFile path || cx.host.files.isFile parent then
        return [.plain (quoted parent ++ " (calling os.path.dirname)")]
      else return []

end ErrorHints.Strategy

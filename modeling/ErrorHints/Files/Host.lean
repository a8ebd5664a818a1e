import ErrorHints.Files.Tree
import ErrorHints.Pattern.Finds

/-!
# The host of a failure

What a runtime's host contributes to a failure: its files, the home directory of
its user, and its environment variables. A path may be written with `~` for the home directory and with
references `$NAME` and `${NAME}` to variables; expanding puts the values in.

References are searched for from left to right in the path as it is written, so
a value that is put in is not looked at again.
-/
namespace ErrorHints

structure Host where
  files : Files
  /-- The home directory of the user, if it is known. -/
  home? : Option String
  /-- The values of the variables that are set. -/
  valueOf : String → Option String

namespace Host

/-- The value of a variable among entries `NAME=VALUE`: the first entry that begins
with the name and an equals sign decides. So a name may reach into a value. -/
def valueIn (entries : List String) (name : String) : Option String :=
  entries.findSome? fun entry =>
    let lead := (name ++ "=").toList
    if lead.isPrefixOf entry.toList then some (String.ofList (entry.toList.drop lead.length))
    else none

/-- The host with some files and variables, on which no more is known of the user: the home
directory is the variable `HOME`, unless it is empty. -/
def ofVariables (files : Files) (assigned : Slots String String) : Host :=
  let valueOf := valueIn (assigned.map fun (name, value) => name ++ "=" ++ value)
  { files, home? := (valueOf "HOME").filter (!·.isEmpty), valueOf }

/-- A path with a leading `~` replaced by the home directory. Only a `~` that is a
whole part counts. -/
def expandUser (h : Host) (path : String) : String :=
  match path.toList with
  | '~' :: rest =>
    if rest.isEmpty || rest.head? = some '/' || rest.head? = some '\\' then
      match h.home? with
      | some home => home ++ String.ofList rest
      | none => path
    else path
  | _ => path

/-! ## References to variables -/

/-- `\$(?:(\w+)|\{([^}]*)\})`: a reference to a variable. Part 1 or part 2 is the name. -/
def reference : Pattern Nat :=
  .all [.text ['$'], .any [.group 1 (.plus (.one .word)),
    .all [.text ['\x7b'], .group 2 (.star (.one (.except ['\x7d']))), .text ['\x7d']]]]

/-- What a reference stands for: the value of a variable that is set, else what is written. -/
def valueFor (h : Host) (f : Find) : List Char :=
  let name := ((f.part? 1).or (f.part? 2)).getD []
  ((h.valueOf (String.ofList name)).map String.toList).getD ((f.part? 0).getD [])

/-- A path with the values of the variables that are set put in. -/
def expandVariables (h : Host) (path : String) : String :=
  String.ofList (reference.replaceAll h.valueFor path.toList)

end Host

end ErrorHints

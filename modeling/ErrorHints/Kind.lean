/-!
# Kinds of failure

Every report is about exactly one kind of failure. Phrasings and strategies
are filed under kinds, and the match is exact: no kind contains another.
-/
namespace ErrorHints

/-- What went wrong at run time. -/
inductive Kind where
  /-- A free name could not be resolved. -/
  | nameNotDefined
  /-- A local name was read before it was assigned. -/
  | unboundLocal
  /-- An attribute lookup on a value, class or module failed. -/
  | attributeMissing
  /-- A module could not be found. -/
  | importMissing
  /-- A module was found but does not hold the requested name. -/
  | cannotImportName
  /-- A call used a keyword argument that the callee does not declare. -/
  | unexpectedKeyword
  | keyLookupFailed
  | indexOutOfRange
  | unsubscriptable
  | notCallable
  | unhashable
  | syntaxProblem
  | outOfMemory
  | overflow
  | fileNotFound
  | isADirectory
  | notADirectory
  deriving DecidableEq, Repr, Inhabited, Hashable

namespace Kind

/-- Every kind, in order of declaration. -/
def all : List Kind :=
  [nameNotDefined, unboundLocal, attributeMissing, importMissing, cannotImportName,
   unexpectedKeyword, keyLookupFailed, indexOutOfRange, unsubscriptable, notCallable,
   unhashable, syntaxProblem, outOfMemory, overflow, fileNotFound, isADirectory, notADirectory]

theorem mem_all (k : Kind) : k ∈ all := by cases k <;> decide

theorem nodup_all : all.Nodup := by decide

/-- The stable tag of a kind, in kebab case. -/
def tag : Kind → String
  | nameNotDefined => "name-not-defined"
  | unboundLocal => "unbound-local"
  | attributeMissing => "attribute-missing"
  | importMissing => "import-missing"
  | cannotImportName => "cannot-import-name"
  | unexpectedKeyword => "unexpected-keyword"
  | keyLookupFailed => "key-lookup-failed"
  | indexOutOfRange => "index-out-of-range"
  | unsubscriptable => "unsubscriptable"
  | notCallable => "not-callable"
  | unhashable => "unhashable"
  | syntaxProblem => "syntax-problem"
  | outOfMemory => "out-of-memory"
  | overflow => "overflow"
  | fileNotFound => "file-not-found"
  | isADirectory => "is-a-directory"
  | notADirectory => "not-a-directory"

/-- The title of a kind, as summaries of a registry list it. -/
def title : Kind → String
  | nameNotDefined => "NameNotDefined"
  | unboundLocal => "UnboundLocal"
  | attributeMissing => "AttributeMissing"
  | importMissing => "ImportMissing"
  | cannotImportName => "CannotImportName"
  | unexpectedKeyword => "UnexpectedKeyword"
  | keyLookupFailed => "KeyLookupFailed"
  | indexOutOfRange => "IndexOutOfRange"
  | unsubscriptable => "Unsubscriptable"
  | notCallable => "NotCallable"
  | unhashable => "Unhashable"
  | syntaxProblem => "SyntaxProblem"
  | outOfMemory => "OutOfMemory"
  | overflow => "Overflow"
  | fileNotFound => "FileNotFound"
  | isADirectory => "IsADirectory"
  | notADirectory => "NotADirectory"

/-- The kind with a given tag. -/
def ofTag? (t : String) : Option Kind := all.find? (·.tag == t)

theorem ofTag?_tag (k : Kind) : ofTag? k.tag = some k := by cases k <;> decide

end Kind

end ErrorHints

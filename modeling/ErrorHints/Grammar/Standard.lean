import ErrorHints.Grammar.Phrasing

/-!
# The standard phrasings

How the runtime words its failures, old wordings and new ones, kind by kind.
A hint that newer versions put into the message itself is a field too.
-/
namespace ErrorHints.Grammar

open Pattern

/-! ## Parts of messages -/

/-- The characters themselves. -/
def say (s : String) : Pattern FieldName := .ofString s

/-- An identifier. -/
def identifier : Pattern FieldName := .plus (.one .word)

/-- An identifier, possibly qualified by dots. -/
def dotted : Pattern FieldName := .plus (.one (.wordOr ['.']))

/-- A callee: dotted, with parts such as `<lambda>`. -/
def callee : Pattern FieldName := .plus (.one (.wordOr ['.', '<', '>']))

/-- An identifier captured under a field. -/
def name (f : FieldName) : Pattern FieldName := .group f identifier

/-- A dotted name captured under a field. -/
def path (f : FieldName) : Pattern FieldName := .group f dotted

/-- A hint of the runtime: `lead`, then a quoted text, then a question mark. -/
def hint (lead quoted : Pattern FieldName) : Pattern FieldName :=
  .opt (.all [lead, .group .hint (.all [say "'", quoted, say "'"]), say "?"])

/-- `. Did you mean: 'x'?` or nothing. -/
def meanHint : Pattern FieldName := hint (say ". Did you mean: ") identifier

/-- Any text in a line, captured as the path. -/
def freePath : Pattern FieldName := .group .path (.star (.one .anyInLine))

/-- A place in parentheses, captured without them. -/
def location : Pattern FieldName :=
  .all [say "(", .group .location (.star (.one (.except [')']))), say ")"]

/-! ## The table -/

/-- A phrasing by its parts. -/
def phrasing (id : String) (kind : Kind) (parts : List (Pattern FieldName)) : Phrasing :=
  { id, kind, pattern := .whole (.all parts) }

def nameNotDefined : List Phrasing :=
  [phrasing "name.not_defined" .nameNotDefined
    [say "name '", name .name, say "' is not defined",
     hint (.all [say ". Did you ", .any [say "mean:", say "forget to import"], say " "]) dotted],
   phrasing "name.global_not_defined" .nameNotDefined
    [say "global name '", name .name, say "' is not defined"],
   phrasing "name.free_before_assignment" .nameNotDefined
    [say "free variable '", name .name, say "' referenced before assignment in enclosing scope"],
   phrasing "name.free_not_associated" .nameNotDefined
    [say "cannot access free variable '", name .name,
     say "' where it is not associated with a value in enclosing scope"]]

def unboundLocal : List Phrasing :=
  [phrasing "local.before_assignment" .unboundLocal
    [say "local variable '", name .name, say "' referenced before assignment"],
   phrasing "local.not_associated" .unboundLocal
    [say "cannot access local variable '", name .name,
     say "' where it is not associated with a value"]]

/-- An attribute of an instance of a class of the old style. -/
def oldInstance : Phrasing :=
  phrasing "attr.old_instance" .attributeMissing
    [name .typeName, say " instance has no attribute '", name .attr, say "'"]

/-- An attribute of a class of the old style. -/
def oldClass : Phrasing :=
  phrasing "attr.old_class" .attributeMissing
    [say "class ", name .className, say " has no attribute '", name .attr, say "'"]

def attributeMissing : List Phrasing :=
  [phrasing "attr.object" .attributeMissing
    [say "'", path .typeName, say "' object has no attribute '", name .attr, say "'", meanHint],
   phrasing "attr.type_object" .attributeMissing
    [say "type object '", path .className, say "' has no attribute '", name .attr, say "'",
     meanHint],
   phrasing "attr.module" .attributeMissing
    [say "module '", path .moduleName, say "' has no attribute '", name .attr, say "'", meanHint],
   phrasing "attr.partial_module" .attributeMissing
    [say "partially initialized module '", path .moduleName, say "' has no attribute '",
     name .attr, say "' (most likely due to a circular import)"],
   oldInstance, oldClass]

def importMissing : List Phrasing :=
  [phrasing "import.no_module" .importMissing
    [say "No module named '", path .moduleName, say "'"],
   phrasing "import.no_module_unquoted" .importMissing
    [say "No module named ", path .moduleName],
   phrasing "import.not_a_package" .importMissing
    [say "No module named '", path .moduleName, say "'; '", path .parent,
     say "' is not a package"]]

def cannotImportName : List Phrasing :=
  [phrasing "import_name.bare" .cannotImportName
    [say "cannot import name '", name .name, say "'"],
   phrasing "import_name.unquoted" .cannotImportName
    [say "cannot import name ", name .name],
   phrasing "import_name.from_module" .cannotImportName
    [say "cannot import name '", name .name, say "' from '", path .moduleName, say "' ", location,
     meanHint],
   phrasing "import_name.partial_module" .cannotImportName
    [say "cannot import name '", name .name, say "' from partially initialized module '",
     path .moduleName, say "' (most likely due to a circular import) ", location]]

/-- A keyword that the callee does not know. The hint is worded like the suffix of a report. -/
def keywordOfCall : Phrasing :=
  phrasing "keyword.unexpected" .unexpectedKeyword
    [.group .func callee, say "() got an unexpected keyword argument '", name .arg, say "'",
     hint (say ". Did you mean ") identifier]

def unexpectedKeyword : List Phrasing :=
  [keywordOfCall,
   phrasing "keyword.invalid_for" .unexpectedKeyword
    [say "'", name .arg, say "' is an invalid keyword argument for ", path .func, say "()"],
   phrasing "keyword.invalid_for_this_function" .unexpectedKeyword
    [say "'", name .arg, say "' is an invalid keyword argument for this function"]]

def keyLookupFailed : List Phrasing :=
  [phrasing "key.quoted" .keyLookupFailed
    [say "'", .group .key (.star (.one (.except ['\'']))), say "'"],
   phrasing "key.integer" .keyLookupFailed
    [.group .key (.all [.opt (say "-"), .plus (.one .digit)])]]

def indexOutOfRange : List Phrasing :=
  [phrasing "index.out_of_range" .indexOutOfRange [name .typeName, say " index out of range"],
   phrasing "index.assignment" .indexOutOfRange
    [name .typeName, say " assignment index out of range"],
   phrasing "index.object" .indexOutOfRange [name .typeName, say " object index out of range"]]

def unsubscriptable : List Phrasing :=
  [phrasing "subscript.not_subscriptable" .unsubscriptable
    [say "'", path .typeName, say "' object is not subscriptable"],
   phrasing "subscript.unsubscriptable" .unsubscriptable
    [say "'", path .typeName, say "' object is unsubscriptable"],
   phrasing "subscript.no_indexing" .unsubscriptable
    [say "'", path .typeName, say "' object does not support indexing"],
   phrasing "subscript.type" .unsubscriptable
    [say "type '", path .typeName, say "' is not subscriptable"]]

def notCallable : List Phrasing :=
  [phrasing "call.not_callable" .notCallable
    [say "'", path .typeName, say "' object is not callable"]]

def unhashable : List Phrasing :=
  [phrasing "hash.unhashable" .unhashable [say "unhashable type: '", path .typeName, say "'"],
   phrasing "hash.cannot_use" .unhashable
    [say "cannot use '", path .typeName, say "' as a", .opt (say "n"), say " ",
     .any [say "set element", say "dict key"], say " (unhashable type: '", dotted, say "')"]]

/-- A statement that became a function. The hint is worded like the suffix of a report. -/
def missingParentheses : Phrasing :=
  phrasing "syntax.missing_parentheses" .syntaxProblem
    [say "Missing parentheses in call to '", name .func, say "'",
     .opt (.all [say ". Did you mean ", .group .hint (.plus (.one .anyInLine)), say "?"])]

def syntaxProblem : List Phrasing :=
  [missingParentheses,
   phrasing "syntax.invalid" .syntaxProblem
    [say "invalid syntax", .opt (say ". Perhaps you forgot a comma?")],
   phrasing "syntax.invalid_token" .syntaxProblem [say "invalid token"],
   phrasing "syntax.leading_zeros" .syntaxProblem
    [say ("leading zeros in decimal integer literals are not permitted; " ++
      "use an 0o prefix for octal integers")]]

def outOfMemory : List Phrasing :=
  [phrasing "memory.empty" .outOfMemory []]

def overflow : List Phrasing :=
  [phrasing "overflow.c_int" .overflow
    [say "Python int too large to convert to C ",
     .group .machineType (.any [say "long", say "ssize_t", say "int"])],
   phrasing "overflow.float" .overflow [say "int too large to convert to float"],
   phrasing "overflow.math_range" .overflow [say "math range error"],
   phrasing "overflow.errno" .overflow [say "(34, 'Numerical result out of range')"],
   phrasing "overflow.index_sized" .overflow
    [say "cannot fit '", name .typeName, say "' into an index-sized integer"]]

def fileNotFound : List Phrasing :=
  [phrasing "path.not_found" .fileNotFound
    [say "[Errno 2] No such file or directory: '", freePath, say "'"],
   phrasing "path.not_found_windows" .fileNotFound
    [say "[WinError 2] The system cannot find the file specified: '", freePath, say "'"]]

def isADirectory : List Phrasing :=
  [phrasing "path.is_directory" .isADirectory [say "[Errno 21] Is a directory: '", freePath, say "'"]]

def notADirectory : List Phrasing :=
  [phrasing "path.not_directory" .notADirectory
    [say "[Errno 20] Not a directory: '", freePath, say "'"],
   phrasing "path.not_directory_windows" .notADirectory
    [say "[WinError 267] The directory name is invalid: '", freePath, say "'"]]

/-- Every standard phrasing, kind by kind. -/
def standardPhrasings : List Phrasing :=
  nameNotDefined ++ unboundLocal ++ attributeMissing ++ importMissing ++ cannotImportName ++
  unexpectedKeyword ++ keyLookupFailed ++ indexOutOfRange ++ unsubscriptable ++ notCallable ++
  unhashable ++ syntaxProblem ++ outOfMemory ++ overflow ++ fileNotFound ++ isADirectory ++
  notADirectory

end ErrorHints.Grammar

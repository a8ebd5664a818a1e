/-!
# The vocabulary of fields

A phrasing captures parts of a message under these names and no others.
-/
namespace ErrorHints

/-- What a captured part of a message stands for. -/
inductive FieldName where
  /-- The undefined or imported name. -/
  | name
  /-- The missing attribute. -/
  | attr
  /-- Type of the instance that failed. -/
  | typeName
  /-- Class that failed. -/
  | className
  | moduleName
  /-- Parent of a dotted module that is not a package. -/
  | parent
  | location
  /-- The called function, possibly qualified. -/
  | func
  /-- The offending keyword argument. -/
  | arg
  | key
  | path
  /-- Machine type that an integer did not fit into. -/
  | machineType
  /-- The hint that the runtime already put into its message. -/
  | hint
  deriving DecidableEq, Repr, Inhabited

namespace FieldName

/-- The whole vocabulary. -/
def all : List FieldName :=
  [name, attr, typeName, className, moduleName, parent, location, func, arg, key, path,
   machineType, hint]

theorem mem_all (f : FieldName) : f ∈ all := by cases f <;> decide

/-- How a field is written in patterns and messages. -/
def tag : FieldName → String
  | name => "name"
  | attr => "attr"
  | typeName => "type"
  | className => "class"
  | moduleName => "module"
  | parent => "parent"
  | location => "location"
  | func => "func"
  | arg => "arg"
  | key => "key"
  | path => "path"
  | machineType => "ctype"
  | hint => "hint"

/-- The field written as `t`, if the vocabulary has it. -/
def ofTag? (t : String) : Option FieldName := all.find? (·.tag == t)

theorem ofTag?_tag (f : FieldName) : ofTag? f.tag = some f := by cases f <;> decide

theorem tag_of_ofTag? {t : String} {f : FieldName} (h : ofTag? t = some f) : f.tag = t :=
  eq_of_beq (List.find?_some (p := fun f => FieldName.tag f == t) h)

theorem tag_inj {f g : FieldName} : f.tag = g.tag ↔ f = g := by
  constructor
  · intro h
    exact Option.some.inj (by rw [← ofTag?_tag f, h, ofTag?_tag])
  · rintro rfl
    rfl

end FieldName

end ErrorHints

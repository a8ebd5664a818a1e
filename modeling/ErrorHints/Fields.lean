import ErrorHints.FieldName
import ErrorHints.Slots

/-!
# Fields of a message

What reading a message gives: which phrasing it has, if any, and the parts
captured from it. A phrasing may capture nothing (`invalid syntax`), so "no
phrasing" and "no field" are told apart (`isMatch`, `isEmpty`).
-/
namespace ErrorHints

structure Fields where
  /-- Id of the phrasing that matched. -/
  entry : Option String := none
  /-- Captured parts, in the order of capture. -/
  values : Slots FieldName String := []
  deriving DecidableEq, Repr, Inhabited

namespace Fields

/-- The fields of a message that no phrasing matches. -/
def empty : Fields := {}

/-- The fields of a message with the phrasing `entry`, before any capture. -/
def matched (entry : String) : Fields := { entry := some entry }

/-- Set a field, in place when it is set already. -/
def insert (f : Fields) (field : FieldName) (value : String) : Fields :=
  { f with values := f.values.put field value }

def get? (f : Fields) (field : FieldName) : Option String := Slots.get? field f.values

def isMatch (f : Fields) : Bool := f.entry.isSome

def isEmpty (f : Fields) : Bool := f.values.isEmpty

def size (f : Fields) : Nat := f.values.length

@[simp]
theorem get?_empty (n : FieldName) : empty.get? n = none := rfl

theorem get?_insert (f : Fields) (n n' : FieldName) (v : String) :
    (f.insert n v).get? n' = if n = n' then some v else f.get? n' :=
  Slots.get?_put n n' v f.values

@[simp]
theorem entry_insert (f : Fields) (n : FieldName) (v : String) : (f.insert n v).entry = f.entry :=
  rfl

end Fields

end ErrorHints

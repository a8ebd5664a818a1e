import ErrorHints.DottedName
import ErrorHints.Strategy.Basic

/-!
# The value that failed

The receiver is the value on which an attribute look-up failed, the callee the
function that was called. Each is captured with the failure or found through
what the message says: a module by its exports, an instance by its type, a
class and a function by their names.
-/
namespace ErrorHints

/-- What strategies need of the value on which an attribute was looked up. -/
structure Receiver where
  typeName : String
  /-- The attributes it lists. -/
  attributes : List String
  deriving DecidableEq, Repr

namespace Receiver

def ofValue (v : Value) : Receiver := ⟨v.typeName, v.attributes⟩

/-- A module with the given exports. -/
def ofExports (exports : List String) : Receiver := ⟨"module", exports⟩

/-- Whether an attribute is listed. -/
def has (r : Receiver) (attr : String) : Bool := r.attributes.contains attr

end Receiver

namespace Context

/-- The receiver that is a module: its exports if they are known, else what its name is bound to. -/
def moduleReceiver? (cx : Context) : Option Receiver := do
  let name ← cx.fields.get? .moduleName
  match cx.symbols.exports? name with
  | some exports => return .ofExports exports
  | none => return .ofValue (← cx.symbols.nearest? name).value

/-- A receiver of the type in the message. -/
def instanceReceiver? (cx : Context) : Option Receiver := do
  return .ofValue (← cx.symbols.findByType (← cx.fields.get? .typeName))

/-- The receiver that is the class in the message. -/
def classReceiver? (cx : Context) : Option Receiver := do
  return .ofValue (← cx.symbols.nearest? (← cx.fields.get? .className)).value

/-- The captured value, else a module, else an instance, else a class. -/
def receiver? (cx : Context) : Option Receiver :=
  (cx.symbols.receiver.map .ofValue).or
    (cx.moduleReceiver?.or (cx.instanceReceiver?.or cx.classReceiver?))

/-- The receiver, without which a strategy does not apply. -/
def receiver (cx : Context) : Except Inapplicable Receiver :=
  match cx.receiver? with
  | some r => .ok r
  | none => .error .noReceiver

/-- The parameters of the nearest binding of a name that declares any. -/
def parametersOf? (cx : Context) (name : String) : Option (List String) :=
  (cx.symbols.lookup name).findSome? (·.value.parameters)

/-- The parameters of the callee: the captured value if it declares any, else
what the full name of the function is bound to, else its last segment. -/
def calleeParameters? (cx : Context) : Option (List String) :=
  (cx.symbols.receiver.bind Value.parameters).or do
    let func ← cx.fields.get? .func
    (cx.parametersOf? func).or (cx.parametersOf? (DottedName.leaf func))

/-- A value of the type in the message, without which a strategy does not apply. -/
def valueOfType (cx : Context) : Except Inapplicable Value := do
  match cx.symbols.findByType (← cx.field .typeName) with
  | some v => return v
  | none => throw .noReceiver

end Context

end ErrorHints

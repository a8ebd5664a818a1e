import ErrorHints.Candidate
import ErrorHints.Fields
import ErrorHints.Files.Host
import ErrorHints.Kind
import ErrorHints.Knowledge.Standard
import ErrorHints.Symbols.Environment

/-!
# Strategies

A strategy proposes candidates for some kinds of failure. It sees one failure in
its context and changes nothing. It may find that it does not apply, and it may
break down; only what it produces when it finishes counts.

Results:
* `candidates_of`: a strategy made from a finder proposes what the finder finds
  under the strategy's name, and nothing when the finder does not apply.
* `generate_of_field`, `candidates_of_field`: the same for a finder that asks for a field first.
-/
namespace ErrorHints

/-- Everything a strategy may look at. -/
structure Context where
  kind : Kind
  fields : Fields
  symbols : Environment
  knowledge : Knowledge
  host : Host

/-- Why a strategy does not apply. -/
inductive Inapplicable where
  /-- The phrasing captured no such field. -/
  | missingField (field : FieldName)
  /-- The failing value is not known. -/
  | noReceiver
  /-- A path could not be looked at. -/
  | inaccessible (path : String) (fault : PathFault)
  deriving DecidableEq, Repr

def Inapplicable.message : Inapplicable → String
  | missingField field => "field `" ++ field.tag ++ "` was not extracted from the message"
  | noReceiver => "the failing value is not in the environment"
  | inaccessible path fault => "could not inspect `" ++ path ++ "`: " ++ fault.message

/-- How a strategy ends. -/
inductive Outcome where
  | finished (candidates : List Candidate)
  | inapplicable (why : Inapplicable)
  /-- Broken down after some candidates. -/
  | crashed (yielded : List Candidate)

/-- The candidates that count. -/
def Outcome.candidates : Outcome → List Candidate
  | finished cs => cs
  | inapplicable _ => []
  | crashed _ => []

structure Strategy where
  name : String
  /-- The kinds it is meant for. -/
  kinds : List Kind
  generate : Context → Outcome

/-- What a finder finds: a text, with a score if it was found by likeness. -/
structure Suggestion where
  text : String
  score : Option Score := none
  deriving DecidableEq, Repr

/-- A search that may find that it does not apply. -/
abbrev Finder := Context → Except Inapplicable (List Suggestion)

namespace Suggestion

/-- A suggestion without a score. -/
def plain (text : String) : Suggestion := { text }

/-- The suggestion as a candidate of a strategy. -/
def toCandidate (s : Suggestion) (source : String) : Candidate := ⟨s.text, source, s.score⟩

end Suggestion

namespace Strategy

/-- The strategy that proposes what a finder finds. -/
def of (name : String) (kinds : List Kind) (find : Finder) : Strategy where
  name := name
  kinds := kinds
  generate cx :=
    match find cx with
    | .ok found => .finished (found.map (·.toCandidate name))
    | .error why => .inapplicable why

theorem candidates_of (name : String) (kinds : List Kind) (find : Finder) (cx : Context) :
    ((of name kinds find).generate cx).candidates =
      match find cx with
      | .ok found => found.map (·.toCandidate name)
      | .error _ => [] := by
  simp only [of]
  cases find cx <;> rfl

end Strategy

namespace Context

/-- A field without which a strategy does not apply. -/
def field (cx : Context) (f : FieldName) : Except Inapplicable String :=
  match cx.fields.get? f with
  | some value => .ok value
  | none => .error (.missingField f)

end Context

/-- How a strategy ends that asks for a field first, if the field is there. -/
theorem Strategy.generate_of_field {cx : Context} {name : String} {kinds : List Kind}
    {f : FieldName} {value : String} {rest : String → Finder}
    (h : cx.fields.get? f = some value) :
    (of name kinds fun cx => cx.field f >>= (rest · cx)).generate cx =
      match rest value cx with
      | .ok found => .finished (found.map (·.toCandidate name))
      | .error why => .inapplicable why := by
  have hfield : cx.field f = .ok value := by rw [Context.field, h]
  simp only [of, hfield]
  rfl

/-- What a strategy proposes that asks for a field first, if the field is there. -/
theorem Strategy.candidates_of_field {cx : Context} {name : String} {kinds : List Kind}
    {f : FieldName} {value : String} {rest : String → Finder}
    (h : cx.fields.get? f = some value) :
    ((of name kinds fun cx => cx.field f >>= (rest · cx)).generate cx).candidates =
      match rest value cx with
      | .ok found => found.map (·.toCandidate name)
      | .error _ => [] := by
  rw [generate_of_field h]
  cases rest value cx <;> rfl

/-- It proposes nothing if the field is not there. -/
theorem Strategy.candidates_of_missing_field {cx : Context} {name : String} {kinds : List Kind}
    {f : FieldName} {rest : String → Finder} (h : cx.fields.get? f = none) :
    ((of name kinds fun cx => cx.field f >>= (rest · cx)).generate cx).candidates = [] := by
  have hfield : cx.field f = .error (.missingField f) := by rw [Context.field, h]
  rw [candidates_of, hfield]
  rfl

end ErrorHints

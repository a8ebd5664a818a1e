import ErrorHints.Fields
import ErrorHints.Kind
import ErrorHints.Pattern.Matcher

/-!
# Phrasings

A phrasing is one form in which a runtime words one kind of failure: a pattern
for whole messages whose groups are fields. A table keeps it as an entry, which
has the matcher of the pattern. A row is an entry in written form; it becomes
one if a compiler takes its pattern and all groups with a name are in the
vocabulary.

Results:
* `Entry.accepts_eq_isSome_captures?`: a message is accepted exactly if it has captures.
* `Entry.entry_captures?`: fields name the entry that they come from.
-/
namespace ErrorHints

/-- One form of the messages of one kind, as it is looked up. -/
structure Entry where
  id : String
  kind : Kind
  matcher : Matcher
  /-- The fields it may capture, in the order of the groups. -/
  fields : List FieldName

namespace Entry

/-- Whether a message has this form. -/
def accepts (e : Entry) (message : String) : Bool := e.matcher.accepts message

/-- The fields of a message of this form, in group order; a group that took no
part is left out. -/
def captures? (e : Entry) (message : String) : Option Fields :=
  (e.matcher.captures? message).map fun captured =>
    e.fields.foldl
      (fun out f => match captured f.tag with
        | some value => out.insert f value
        | none => out)
      (.matched e.id)

theorem accepts_eq_isSome_captures? (e : Entry) (message : String) :
    e.accepts message = (e.captures? message).isSome := by
  rw [accepts, e.matcher.accepts_eq_isSome, captures?, Option.isSome_map]

/-- Fields name the entry that they come from. -/
theorem entry_captures? {e : Entry} {message : String} {f : Fields}
    (h : e.captures? message = some f) : f.entry = some e.id := by
  have (captured : String → Option String) (names : List FieldName) : ∀ out : Fields,
      (names.foldl (fun out f => match captured f.tag with
        | some value => out.insert f value
        | none => out) out).entry = out.entry := by
    induction names with
    | nil => exact fun _ => rfl
    | cons f names ih =>
      intro out
      rw [List.foldl_cons, ih]
      split <;> rfl
  obtain ⟨captured, -, rfl⟩ := Option.map_eq_some_iff.1 h
  exact this captured e.fields (.matched e.id)

end Entry

/-- One form of the messages of one kind. -/
structure Phrasing where
  id : String
  kind : Kind
  pattern : Pattern FieldName

namespace Phrasing

/-- The fields a phrasing may capture, in the order of its groups. -/
def fields (p : Phrasing) : List FieldName := p.pattern.groups

/-- A phrasing as it is looked up. -/
def entry (p : Phrasing) : Entry where
  id := p.id
  kind := p.kind
  matcher := p.pattern.matcher (some ·.tag)
  fields := p.fields

/-- Whether a message has this form. -/
def accepts (p : Phrasing) (message : String) : Bool := p.entry.accepts message

/-- The fields of a message of this form. -/
def captures? (p : Phrasing) (message : String) : Option Fields := p.entry.captures? message

/-- The fields of a message are those of the captures of its pattern, field by field. -/
theorem captures?_eq (p : Phrasing) (message : String) :
    p.captures? message = (p.pattern.captures? message.toList).map fun captures =>
      p.fields.foldl
        (fun out f =>
          match (captures.find? (some ·.name.tag = some f.tag)).map fun c =>
            String.ofList c.chars with
          | some value => out.insert f value
          | none => out)
        (.matched p.id) :=
  Option.map_map ..

theorem accepts_eq_isSome_captures? (p : Phrasing) (message : String) :
    p.accepts message = (p.captures? message).isSome :=
  p.entry.accepts_eq_isSome_captures? message

theorem entry_captures? {p : Phrasing} {message : String} {f : Fields}
    (h : p.captures? message = some f) : f.entry = some p.id :=
  Entry.entry_captures? h

end Phrasing

/-- An entry in written form. -/
structure Row where
  id : String
  kind : Kind
  pattern : String
  deriving DecidableEq, Repr

/-- Why a row is refused. -/
inductive RowFault where
  /-- The compiler refuses the pattern and says why. -/
  | pattern (id fault : String)
  /-- A group is not in the vocabulary. -/
  | unknownField (id field : String)
  deriving DecidableEq, Repr

/-- What is wrong, in words. -/
def RowFault.message : RowFault → String
  | pattern id fault => "grammar entry `" ++ id ++ "` has an invalid pattern: " ++ fault
  | unknownField id field =>
    "grammar entry `" ++ id ++ "` captures unknown field `" ++ field ++ "`"

namespace Row

/-- The field that a group of the row stands for. -/
def field? (row : Row) (group : String) : Except RowFault FieldName :=
  match FieldName.ofTag? group with
  | some f => .ok f
  | none => .error (.unknownField row.id group)

/-- The pattern for whole messages, in written form. -/
def wholePattern (row : Row) : String := "\\A(?:" ++ row.pattern ++ ")\\z"

/-- The entry that a row describes. -/
def compile (compiler : Matcher.Compiler) (row : Row) : Except RowFault Entry :=
  match compiler row.wholePattern with
  | .error fault => .error (.pattern row.id fault)
  | .ok matcher => do
    let fields ← matcher.names.mapM row.field?
    return { id := row.id, kind := row.kind, matcher, fields }

end Row

end ErrorHints

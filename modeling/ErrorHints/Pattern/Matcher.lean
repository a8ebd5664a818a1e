import ErrorHints.Pattern.Automaton
import ErrorHints.Pattern.Reader

/-!
# Matchers

What a pattern is used for: the names of its groups, whether it accepts a message, and what its
groups capture. Whoever uses a matcher does not see how the pattern is written or searched for.

A compiler turns a written pattern into a matcher or says what is wrong with it. There are
different ones; some know more patterns than the reader of this library, which has no counted
repetition, no flags and no classes by property. So what is built from written patterns is built
for any compiler.
-/
namespace ErrorHints

/-- What a pattern is used for. -/
structure Matcher where
  /-- The names of the groups that have one, in the order in which the groups begin. -/
  names : List String
  /-- Whether a message has this form. -/
  accepts : String → Bool
  /-- The text that a group captures from a message of this form, by the name of the group; none
  if the group took no part. -/
  captures? : String → Option (String → Option String)
  /-- There are captures exactly from the messages that are accepted. -/
  accepts_eq_isSome : ∀ message, accepts message = (captures? message).isSome

/-- The matcher of a pattern, given how the names of its groups are written. A group whose name is
not written is not captured. -/
def Pattern.matcher {ν : Type} (p : Pattern ν) (written : ν → Option String) : Matcher where
  names := p.groups.filterMap written
  accepts message := p.accepts message.toList
  captures? message := (p.captures? message.toList).map fun captures name =>
    -- the last capture of a group comes first
    (captures.find? (written ·.name = some name)).map fun c => String.ofList c.chars
  accepts_eq_isSome message := by simp [Pattern.accepts]

namespace Matcher

/-- What turns written patterns into matchers: the matcher, or what is wrong, in words. -/
abbrev Compiler := String → Except String Matcher

/-- The compiler for the patterns that can be read here. -/
def reader : Compiler := fun written =>
  match Pattern.ofText? written with
  | .ok p => .ok (p.matcher id)
  | .error fault => .error fault.message

end Matcher

end ErrorHints

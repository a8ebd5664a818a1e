import Std.Data.HashMap

/-!
# Resolvers of modules

A resolver says which names a module exports. No answer means "unknown": the
module does not exist, or nothing could be found out about it.

A cache remembers the answers of a resolver, also the missing ones, for the
first `maxCached` names it is asked for; the names that come after those are
passed on each time.

Results:
* `ask_eq`: as long as the cache agrees with its resolver, asking through it
  changes no answer.
-/
namespace ErrorHints

structure Resolver where
  /-- The exports of a module, if they are known. -/
  exports? : String → Option (List String)

/-- A resolver that answers from a table; the last entry of a module counts. -/
def Resolver.ofTable (table : List (String × List String)) : Resolver :=
  let exports := Std.HashMap.ofList table
  ⟨fun name => exports[name]?⟩

/-- Names whose answers a cache keeps, at most. -/
def maxCached : Nat := 4096

/-- The answers known so far and the names passed on so far. -/
structure ResolverCache where
  known : Std.HashMap String (Option (List String)) := ∅
  /-- The names that the resolver behind the cache was asked for, latest first. -/
  asked : List String := []

namespace ResolverCache

def empty : ResolverCache := {}

/-- The number of names with a known answer. -/
def size (c : ResolverCache) : Nat := c.known.size

/-- Ask for the exports of a module, passing the name on if its answer is not known. -/
def ask (inner : Resolver) (c : ResolverCache) (name : String) :
    Option (List String) × ResolverCache :=
  match c.known[name]? with
  | some answer => (answer, c)
  | none =>
    let answer := inner.exports? name
    (answer,
      { known := if c.size < maxCached then c.known.insert name answer else c.known
        asked := name :: c.asked })

/-- Ask for one module after the other: the answers in order and the cache afterwards. -/
def askAll (inner : Resolver) (c : ResolverCache) :
    List String → List (Option (List String)) × ResolverCache
  | [] => ([], c)
  | name :: names =>
    let (answer, c) := c.ask inner name
    let (answers, c) := askAll inner c names
    (answer :: answers, c)

/-- The cache in one line. -/
def summary (c : ResolverCache) : String :=
  "CachedResolver \x7b cached: " ++ toString c.size ++ ", .. \x7d"

/-- Each known answer is the one that the resolver gives. -/
def Agrees (c : ResolverCache) (inner : Resolver) : Prop :=
  ∀ name answer, c.known[name]? = some answer → answer = inner.exports? name

theorem agrees_empty (inner : Resolver) : empty.Agrees inner := by
  intro name answer h
  simp [empty] at h

theorem ask_eq {c : ResolverCache} {inner : Resolver} (h : c.Agrees inner) (name : String) :
    (c.ask inner name).1 = inner.exports? name := by
  unfold ask
  split
  · exact h name _ ‹_›
  · rfl

theorem agrees_ask {c : ResolverCache} {inner : Resolver} (h : c.Agrees inner) (name : String) :
    (c.ask inner name).2.Agrees inner := by
  unfold ask
  split
  · exact h
  · intro n a hn
    dsimp only at hn
    split at hn
    · rw [Std.HashMap.getElem?_insert] at hn
      split at hn
      · rename_i e
        simp only [beq_iff_eq] at e
        subst e
        exact (Option.some.inj hn).symm
      · exact h n a hn
    · exact h n a hn

end ResolverCache

end ErrorHints

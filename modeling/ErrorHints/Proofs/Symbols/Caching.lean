import ErrorHints.Distinct
import ErrorHints.Symbols.Resolver

/-!
# What a cache keeps and what it passes on

A cache of a resolver is filled by the names it is asked for. It keeps the answers for the first
`maxCached` different ones, missing answers included, and nothing is ever dropped; so from the
moment it is full, known and unknown names are treated differently for good. Its user cannot tell:
every answer is the resolver's own.

The names that are kept are those of `names.eraseDups.take maxCached`, where `names` are all that
were asked for. One more question makes one of three differences to them and to the cache
(`Remembers.ask`): the name is known, it becomes known, or it comes too late.

Results:
* `answers_askAll`: asking through a cache changes no answer.
* `Remembers.askAll`: what a cache holds and has passed on is told by the names asked for.
* `askAll_empty`: both, for a cache that starts out empty.
-/
namespace ErrorHints.ResolverCache

variable {inner : Resolver} {c : ResolverCache} {past : List String}

/-! ## Answers -/

theorem answers_askAll (h : c.Agrees inner) (names : List String) :
    (c.askAll inner names).1 = names.map inner.exports? := by
  induction names generalizing c with
  | nil => rfl
  | cons name names ih =>
    have hrest := ih (agrees_ask h name)
    rw [List.map_cons, ← ask_eq h name, ← hrest]
    rfl

/-! ## Known names and names passed on -/

/-- What a cache holds after it was asked for the names of `past`: the answers for the first
different names, each of which was passed on once, while any other was passed on every time. -/
structure Remembers (inner : Resolver) (past : List String) (c : ResolverCache) : Prop where
  known_eq : ∀ n, c.known[n]? =
    if n ∈ past.eraseDups.take maxCached then some (inner.exports? n) else none
  size_eq : c.size = (past.eraseDups.take maxCached).length
  count_asked : ∀ n, c.asked.count n =
    if n ∈ past.eraseDups.take maxCached then 1 else past.count n

theorem remembers_empty (inner : Resolver) : Remembers inner [] empty where
  known_eq := by simp [empty]
  size_eq := by simp [empty, size]
  count_asked := by simp [empty]

/-! ## One more name -/

variable {name : String} {answer : Option (List String)}

theorem ask_of_known (inner : Resolver) (h : c.known[name]? = some answer) :
    (c.ask inner name).2 = c := by
  simp only [ask, h]

theorem ask_of_unknown (inner : Resolver) (h : c.known[name]? = none) :
    (c.ask inner name).2 =
      { known := if c.size < maxCached then c.known.insert name (inner.exports? name) else c.known
        asked := name :: c.asked } := by
  simp only [ask, h]

/-- A known name changes nothing. -/
theorem Remembers.again (h : Remembers inner past c)
    (hmem : name ∈ past.eraseDups.take maxCached) : Remembers inner (past ++ [name]) c := by
  have hkept : (past ++ [name]).eraseDups.take maxCached = past.eraseDups.take maxCached := by
    rw [take_eraseDups_concat, if_pos (.inl hmem)]
  refine ⟨hkept ▸ h.known_eq, hkept ▸ h.size_eq, fun n => ?_⟩
  rw [hkept, h.count_asked]
  split
  · rfl
  · next hn =>
    have hne : name ≠ n := fun heq => hn (heq ▸ hmem)
    rw [List.count_append, List.count_singleton, if_neg (by simpa using hne), Nat.add_zero]

/-- As long as there is room, any other name is new and becomes known. -/
theorem Remembers.learn (h : Remembers inner past c)
    (hmem : name ∉ past.eraseDups.take maxCached) (hroom : c.size < maxCached) :
    Remembers inner (past ++ [name])
      { known := c.known.insert name (inner.exports? name), asked := name :: c.asked } := by
  have hfree : (past.eraseDups.take maxCached).length < maxCached := h.size_eq ▸ hroom
  have hkept : (past ++ [name]).eraseDups.take maxCached =
      past.eraseDups.take maxCached ++ [name] := by
    rw [take_eraseDups_concat, if_neg (not_or.2 ⟨hmem, Nat.not_le_of_lt hfree⟩)]
  have hnew : name ∉ past := by
    rwa [take_eraseDups_of_room hfree, List.mem_eraseDups] at hmem
  have hunknown : name ∉ c.known := by
    rw [Std.HashMap.mem_iff_isSome_getElem?, h.known_eq, if_neg hmem]
    exact Bool.false_ne_true
  have hasked : c.asked.count name = 0 := by
    rw [h.count_asked, if_neg hmem, List.count_eq_zero.2 hnew]
  refine ⟨fun n => ?_, ?_, fun n => ?_⟩
  · rw [hkept, Std.HashMap.getElem?_insert, h.known_eq]
    by_cases hn : name = n
    · simp [hn]
    · simp [hn, Ne.symm hn]
  · rw [hkept, List.length_append, ← h.size_eq, size, Std.HashMap.size_insert, if_neg hunknown]
    rfl
  · rw [hkept, List.count_append]
    by_cases hn : name = n
    · subst hn
      simp [hasked]
    · simp [hn, Ne.symm hn, h.count_asked]

/-- When there is no room, any other name is passed on and leaves no trace in what is known. -/
theorem Remembers.pass (h : Remembers inner past c)
    (hmem : name ∉ past.eraseDups.take maxCached) (hfull : ¬ c.size < maxCached) :
    Remembers inner (past ++ [name]) { c with asked := name :: c.asked } := by
  have hlength : maxCached ≤ (past.eraseDups.take maxCached).length := by
    rw [← h.size_eq]
    exact Nat.not_lt.1 hfull
  have hkept : (past ++ [name]).eraseDups.take maxCached = past.eraseDups.take maxCached := by
    rw [take_eraseDups_concat, if_pos (.inr hlength)]
  refine ⟨hkept ▸ h.known_eq, hkept ▸ h.size_eq, fun n => ?_⟩
  rw [hkept, List.count_cons, h.count_asked]
  split
  · next hn =>
    have hne : name ≠ n := fun heq => hmem (heq ▸ hn)
    rw [if_neg (by simpa using hne)]
  · rw [List.count_append, List.count_singleton]

theorem Remembers.ask (h : Remembers inner past c) (name : String) :
    Remembers inner (past ++ [name]) (c.ask inner name).2 := by
  have hknown := h.known_eq name
  by_cases hmem : name ∈ past.eraseDups.take maxCached
  · rw [if_pos hmem] at hknown
    rw [ask_of_known inner hknown]
    exact h.again hmem
  · rw [if_neg hmem] at hknown
    rw [ask_of_unknown inner hknown]
    split
    · exact h.learn hmem ‹_›
    · exact h.pass hmem ‹_›

/-- Any number of names. -/
theorem Remembers.askAll (h : Remembers inner past c) (names : List String) :
    Remembers inner (past ++ names) (c.askAll inner names).2 := by
  induction names generalizing past c with
  | nil => simpa [ResolverCache.askAll] using h
  | cons name names ih =>
    have hrest := ih (h.ask name)
    rw [List.append_assoc] at hrest
    exact hrest

/-- Whatever is asked of an empty cache, and in whatever order: every answer is the resolver's
own; the cache knows as many names as were asked for, at most 4096; and each of the first 4096
different names was passed on to the resolver exactly once, while every other name was passed on
each time it was asked for. -/
theorem askAll_empty (inner : Resolver) (names : List String) :
    let c := (empty.askAll inner names).2
    (empty.askAll inner names).1 = names.map inner.exports? ∧
    c.size = min 4096 names.eraseDups.length ∧
    ∀ n, c.asked.count n =
      if n ∈ names.eraseDups.take 4096 then 1 else names.count n := by
  intro c
  have h : Remembers inner names c := (remembers_empty inner).askAll names
  refine ⟨answers_askAll (agrees_empty inner) names, ?_, h.count_asked⟩
  exact h.size_eq.trans List.length_take

end ErrorHints.ResolverCache

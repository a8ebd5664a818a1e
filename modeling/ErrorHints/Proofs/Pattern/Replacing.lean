import ErrorHints.Proofs.Pattern.Finding

/-!
# Replacing what is found

What a pattern finds in a text is replaced from left to right. Where the pattern reads, something is
put in for what it prefers to read, and the replacing goes on behind that. Where it does not read,
one character stays as it is. So what is put in is never read, and what is replaced is always a part
of the text that was given.

Results:
* `replacedFrom_of_ways`, `replacedFrom_of_no_ways`, `replacedFrom_of_nil`: the steps of replacing.
* `head?_ways_plus`: a stretch of one class is taken as a whole if nothing comes behind it.
-/
namespace ErrorHints.Pattern

/-! ## The preferred way through a stretch -/

section Stretch

variable {ν : Type} {inClass : Char → Bool}

/-- Of any number of characters of a class as many as there are is preferred. -/
theorem head?_rounds (s : Spot) :
    (Way.rounds (ν := ν) (oneWays inClass) true s.after.length s).head? =
      some ⟨s.skip inClass, []⟩ := by
  generalize hr : s.after = rest
  induction rest generalizing s with
  | nil => rw [List.length_nil, Way.rounds, Spot.skip_of_neg (by simp [hr])]; rfl
  | cons c rest ih =>
    rw [List.length_cons, Way.rounds, Way.prefer, if_pos rfl, oneWays_of_cons hr]
    by_cases hc : inClass c
    · obtain ⟨ws, hws⟩ := List.head?_eq_some_iff.1 (ih (s.past c rest) rfl)
      rw [if_pos hc, List.flatMap_singleton, Way.nil_followedBy, hws, Spot.skip_of_pos hr hc]
      rfl
    · rw [if_neg hc, Spot.skip_of_neg (by simpa [hr] using hc)]
      rfl

/-- At least one character of a class: as many as there are is preferred. -/
theorem head?_ways_plus {set : CharSet} {s : Spot} :
    ((plus (one (ν := ν) set)).ways s).head? =
      if s.after.head?.any set.contains then some ⟨s.skip set.contains, []⟩ else none := by
  unfold plus ways
  rw [ways_one]
  cases hs : s.after with
  | nil => simp [oneWays, hs]
  | cons c rest =>
    rw [oneWays_of_cons hs, List.head?_cons, Option.any_some]
    split
    · rename_i hc
      rw [List.flatMap_singleton, Way.nil_followedBy, head?_rounds, Spot.skip_of_pos hs hc]
    · rfl

end Stretch

/-! ## The steps of replacing -/

/-- The text from a spot on with `put` in place of everything found. -/
def replacedFrom (p : Pattern Nat) (put : Find → List Char) (s : Spot) : List Char :=
  replaced put s.after ((group 0 (group 0 p)).automaton.findsFrom s)

variable {p : Pattern Nat} {put : Find → List Char} {s : Spot}

theorem replaceAll_eq (p : Pattern Nat) (put : Find → List Char) (text : List Char) :
    p.replaceAll put text = p.replacedFrom put (.first text) := rfl

/-- What is found next starts at the spot or further on. -/
theorem exists_whole_of_leftmost {w : Way Nat} (h : (group 0 p).leftmost s = some w) :
    ∃ whole parts, w.captures = whole :: parts ∧ whole.name = 0 ∧
      whole.start.length ≤ s.after.length := by
  rcases leftmost_group 0 p s with ⟨-, hnone⟩ | ⟨i, -, v, -, -, hv⟩
  · rw [hnone] at h
    cases h
  · obtain rfl := Option.some.inj (h.symm.trans hv)
    refine ⟨_, _, rfl, rfl, ?_⟩
    rw [Spot.after_ahead, List.length_drop]
    exact Nat.sub_le _ _

section Steps

variable (hp : p.roundsRead) (hsome : p.readsSomething)

include hp hsome

/-- Where the pattern reads, something is put in for what it prefers to read. -/
theorem replacedFrom_of_ways {w : Way Nat} {ws : List (Way Nat)} (h : p.ways s = w :: ws) :
    p.replacedFrom put s =
      put ⟨⟨0, s.after, w.stop.before - s.before⟩ :: w.captures, w.stop⟩ ++
        p.replacedFrom put w.stop := by
  have hways : (group 0 p).ways s =
      ⟨w.stop, ⟨0, s.after, w.stop.before - s.before⟩ :: w.captures⟩ :: ws.map fun v =>
        ⟨v.stop, ⟨0, s.after, v.stop.before - s.before⟩ :: v.captures⟩ := by
    rw [ways, h]
    rfl
  rw [replacedFrom, findsFrom_of_ways (p := group 0 p) hp hsome hways, replaced]
  simp [Find.gap, replacedFrom]

/-- Where it does not, a character stays. -/
theorem replacedFrom_of_no_ways (h : p.ways s = []) {c : Char} {rest : List Char}
    (hs : s.after = c :: rest) :
    p.replacedFrom put s = c :: p.replacedFrom put (s.past c rest) := by
  have hways : (group 0 p).ways s = [] := by
    rw [ways, h]
    rfl
  have hpast : (s.past c rest).after = rest := rfl
  rw [replacedFrom, replacedFrom, findsFrom_of_no_ways (p := group 0 p) hp hsome hways hs, hs,
    hpast, findsFrom_eq (p := group 0 p) hp hsome]
  cases hl : (group 0 p).leftmost (s.past c rest) with
  | none => rfl
  | some w =>
    obtain ⟨whole, parts, hcaptures, hname, hlen⟩ := exists_whole_of_leftmost hl
    rw [hpast] at hlen
    have hgap : (c :: rest).length - whole.start.length =
        rest.length - whole.start.length + 1 := by
      rw [List.length_cons]
      omega
    simp only [replaced, Find.gap, hcaptures, hname, List.find?_cons, decide_true, hgap,
      List.take_succ_cons, List.cons_append]

theorem replacedFrom_of_nil (hs : s.after = []) : p.replacedFrom put s = [] := by
  rw [replacedFrom, findsFrom_of_nil (p := group 0 p) hp hsome hs, hs, replaced]

end Steps

end ErrorHints.Pattern

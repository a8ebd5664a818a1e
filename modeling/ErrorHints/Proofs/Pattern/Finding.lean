import ErrorHints.Proofs.Pattern.Preference

/-!
# One find behind the other

The search for a pattern stands at a spot. If the pattern reads there, what it reads is found and
the search goes on behind it; else it goes on one character later. What a pattern reads is followed
through its parts. A stretch of characters of one class is taken to its end if what comes next
cannot begin inside of it.

Results:
* `findsFrom_of_ways`, `findsFrom_of_no_ways`, `findsFrom_of_nil`: the steps of a search.
* `flatMap_star`, `flatMap_plus`: what goes on behind a stretch of one class.
-/
namespace ErrorHints

namespace Spot

/-- The spot behind the characters of a class that follow. -/
def skip (s : Spot) (inClass : Char → Bool) : Spot := s.ahead (s.after.takeWhile inClass).length

theorem after_skip (s : Spot) (inClass : Char → Bool) :
    (s.skip inClass).after = s.after.dropWhile inClass := by
  rw [skip, after_ahead, List.dropWhile_eq_drop_findIdx_not, List.takeWhile_eq_take_findIdx_not,
    List.length_take, min_eq_left List.findIdx_le_length]

theorem skip_of_pos {inClass : Char → Bool} {s : Spot} {c : Char} {rest : List Char}
    (hs : s.after = c :: rest) (hc : inClass c) : s.skip inClass = (s.past c rest).skip inClass := by
  rw [skip, hs, List.takeWhile_cons_of_pos hc, List.length_cons, ahead_succ hs]
  rfl

theorem skip_of_neg {inClass : Char → Bool} {s : Spot} (hs : ∀ c ∈ s.after.head?, ¬ inClass c) :
    s.skip inClass = s := by
  cases h : s.after with
  | nil => rw [skip, h]; rfl
  | cons c rest =>
    rw [skip, h, List.takeWhile_cons_of_neg (hs c (by rw [h]; rfl))]
    rfl

/-- Behind at least one character of a class, the character before is of the class. -/
theorem exists_last_skip {inClass : Char → Bool} {s : Spot} {c : Char} {rest : List Char}
    (hs : s.after = c :: rest) (hc : inClass c) :
    ∃ b, (s.skip inClass).last = some b ∧ inClass b := by
  rw [skip_of_pos hs hc]
  induction rest generalizing s c with
  | nil =>
    rw [skip_of_neg (by simp [past])]
    exact ⟨c, rfl, hc⟩
  | cons d rest ih =>
    by_cases hd : inClass d
    · have hnext : (s.past c (d :: rest)).after = d :: rest := rfl
      rw [skip_of_pos hnext hd]
      exact ih rfl hd
    · rw [skip_of_neg (by simpa [past] using hd)]
      exact ⟨c, rfl, hc⟩

theorem before_skip (s : Spot) (inClass : Char → Bool) :
    (s.skip inClass).before = s.before + (s.after.takeWhile inClass).length :=
  before_ahead (List.takeWhile_sublist inClass).length_le

end Spot

theorem Pattern.oneWays_of_cons {ν : Type} {inClass : Char → Bool} {s : Spot} {c : Char}
    {rest : List Char} (hs : s.after = c :: rest) :
    oneWays (ν := ν) inClass s = if inClass c then [⟨s.past c rest, []⟩] else [] := by
  rw [oneWays, hs]

namespace Way

variable {ν : Type}

/-- Going on with nothing. -/
theorem nil_followedBy (s : Spot) (next : Spot → List (Way ν)) :
    (⟨s, []⟩ : Way ν).followedBy next = next s := by
  simp [followedBy]

/-- It does not matter which of three in a row are taken together. -/
theorem flatMap_flatMap_followedBy (ws : List (Way ν)) (next last : Spot → List (Way ν)) :
    (ws.flatMap (·.followedBy next)).flatMap (·.followedBy last) =
      ws.flatMap (·.followedBy fun s => (next s).flatMap (·.followedBy last)) := by
  simp [followedBy, List.flatMap_assoc, List.flatMap_map, List.map_flatMap, Function.comp_def]

/-- The ways from a spot on, with all from another one up to it captured. -/
def capturing (name : ν) (start : Spot) (next : Spot → List (Way ν)) (s : Spot) : List (Way ν) :=
  (next s).map fun w => ⟨w.stop, w.captures ++ [⟨name, start.after, s.before - start.before⟩]⟩

section Rounds

variable {inClass : Char → Bool} {next : Spot → List (Way ν)} {s : Spot}

theorem flatMap_rounds_of_nil (hs : s.after = []) :
    (rounds (Pattern.oneWays inClass) true s.after.length s).flatMap (·.followedBy next) =
      next s := by
  rw [hs, List.length_nil, rounds, List.flatMap_singleton, nil_followedBy]

/-- One more character of the class, or what goes on without it. -/
theorem flatMap_rounds_of_cons {c : Char} {rest : List Char} (hs : s.after = c :: rest) :
    (rounds (Pattern.oneWays inClass) true s.after.length s).flatMap (·.followedBy next) =
      (if inClass c then
        (rounds (Pattern.oneWays inClass) true (s.past c rest).after.length (s.past c rest)).flatMap
          (·.followedBy next)
        else []) ++ next s := by
  rw [hs, List.length_cons, rounds, prefer, if_pos rfl, List.flatMap_append, List.flatMap_singleton,
    nil_followedBy, Pattern.oneWays_of_cons hs]
  split
  · rw [List.flatMap_singleton, nil_followedBy]
    rfl
  · rfl

/-- Nothing is to be read behind a stretch of characters before it ends. Then only its end counts,
if what holds before the stretch holds in all of it. -/
theorem flatMap_rounds (holds : Spot → Prop)
    (hpast : ∀ {t : Spot} {c rest}, inClass c → holds (t.past c rest))
    (hnext : ∀ {t : Spot} {c rest}, holds t → t.after = c :: rest → inClass c → next t = [])
    (hs : holds s) :
    (rounds (Pattern.oneWays inClass) true s.after.length s).flatMap (·.followedBy next) =
      next (s.skip inClass) := by
  generalize hr : s.after = rest
  induction rest generalizing s with
  | nil => rw [← hr, flatMap_rounds_of_nil hr, Spot.skip_of_neg (by simp [hr])]
  | cons c rest ih =>
    rw [← hr, flatMap_rounds_of_cons hr]
    split
    · rename_i hc
      rw [Spot.skip_of_pos hr hc, hnext hs hr hc, List.append_nil]
      exact ih (hpast hc) rfl
    · rename_i hc
      rw [Spot.skip_of_neg (by simp [hr, hc])]
      rfl

end Rounds

end Way

namespace Pattern

variable {ν : Type}

theorem ways_one (set : CharSet) : (one (ν := ν) set).ways = oneWays set.contains := rfl

theorem ways_text_singleton (c : Char) : (text (ν := ν) [c]).ways = oneWays (· = c) := by
  funext s
  unfold ways oneWays textWays
  split <;> simp [textWays]

theorem ways_seq (p q : Pattern ν) (s : Spot) :
    (seq p q).ways s = (p.ways s).flatMap (·.followedBy q.ways) := rfl

/-- What goes on behind a group goes on behind what the group captures. -/
theorem flatMap_group (name : ν) (p : Pattern ν) (s : Spot) (next : Spot → List (Way ν)) :
    ((group name p).ways s).flatMap (·.followedBy next) =
      (p.ways s).flatMap (·.followedBy (Way.capturing name s next)) := by
  simp [ways, Way.followedBy, Way.capturing, List.flatMap_map, Function.comp_def]

/-- Behind any number of characters of a class. -/
theorem flatMap_star {set : CharSet} {next : Spot → List (Way ν)}
    (h : ∀ {t : Spot} {c rest}, t.after = c :: rest → set.contains c → next t = []) (s : Spot) :
    ((star (one set)).ways s).flatMap (·.followedBy next) = next (s.skip set.contains) :=
  Way.flatMap_rounds (fun _ => True) (fun _ => trivial) (fun _ => h) trivial

/-- Behind one character of a class or more. -/
theorem flatMap_plus {set : CharSet} {next : Spot → List (Way ν)}
    (h : ∀ {t : Spot} {b c rest}, t.last = some b → set.contains b → t.after = c :: rest →
      set.contains c → next t = []) {s : Spot} {c : Char} {rest : List Char}
    (hs : s.after = c :: rest) :
    ((plus (one set)).ways s).flatMap (·.followedBy next) =
      if set.contains c then next (s.skip set.contains) else [] := by
  unfold plus ways
  rw [Way.flatMap_flatMap_followedBy, ways_one, oneWays_of_cons hs]
  split
  · rename_i hc
    rw [List.flatMap_singleton, Way.nil_followedBy, Spot.skip_of_pos hs hc]
    refine Way.flatMap_rounds (fun t => ∃ b, t.last = some b ∧ set.contains b)
      (fun {_ b _} hb => ⟨b, rfl, hb⟩) ?_ ⟨c, rfl, hc⟩
    rintro t d rest ⟨b, hb, hset⟩ ht hd
    exact h hb hset ht hd
  · rfl

/-! ## The steps of a search -/

section Search

variable {p : Pattern Nat} {s : Spot}

theorem leftmost_stop_lt (hsome : p.readsSomething) {w : Way Nat} (h : p.leftmost s = some w) :
    w.stop.after.length < s.after.length := by
  rcases leftmost_group 0 p s with ⟨hnone, -⟩ | ⟨i, -, v, hv, hw, -⟩
  · simp [hnone] at h
  · obtain rfl : v = w := Option.some.inj (hw.symm.trans h)
    have hlt := after_stop_lt hsome hv
    rw [Spot.after_ahead, List.length_drop] at hlt
    omega

theorem findsFrom_eq (hp : p.roundsRead) (hsome : p.readsSomething) (s : Spot) :
    (group 0 p).automaton.findsFrom s =
      match p.leftmost s with
      | none => []
      | some w => ⟨w.captures, w.stop⟩ :: (group 0 p).automaton.findsFrom w.stop := by
  rw [Automaton.findsFrom, find?_eq hp]
  cases h : p.leftmost s with
  | none => rfl
  | some w => simp [leftmost_stop_lt hsome h]

/-- Where the pattern reads, what it prefers to read is found. -/
theorem findsFrom_of_ways (hp : p.roundsRead) (hsome : p.readsSomething) {w : Way Nat}
    {ws : List (Way Nat)} (h : p.ways s = w :: ws) :
    (group 0 p).automaton.findsFrom s =
      ⟨w.captures, w.stop⟩ :: (group 0 p).automaton.findsFrom w.stop := by
  have hl : p.leftmost s = some w := by
    cases hs : s.after with
    | nil => rw [leftmost_of_nil hs, h]; rfl
    | cons c rest => rw [leftmost_of_cons hs, h]; rfl
  rw [findsFrom_eq hp hsome, hl]

/-- Where it does not, the search goes on one character later. -/
theorem findsFrom_of_no_ways (hp : p.roundsRead) (hsome : p.readsSomething) (h : p.ways s = [])
    {c : Char} {rest : List Char} (hs : s.after = c :: rest) :
    (group 0 p).automaton.findsFrom s = (group 0 p).automaton.findsFrom (s.past c rest) := by
  rw [findsFrom_eq hp hsome, findsFrom_eq hp hsome, leftmost_of_cons hs, h]
  rfl

/-- At the end of the text nothing is found any more. -/
theorem findsFrom_of_nil (hp : p.roundsRead) (hsome : p.readsSomething) (hs : s.after = []) :
    (group 0 p).automaton.findsFrom s = [] := by
  rw [findsFrom_eq hp hsome]
  cases h : p.leftmost s with
  | none => rfl
  | some w =>
    have := leftmost_stop_lt hsome h
    rw [hs] at this
    exact absurd this (Nat.not_lt_zero _)

end Search

end Pattern

end ErrorHints

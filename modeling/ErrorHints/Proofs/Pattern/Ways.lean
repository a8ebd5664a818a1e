import ErrorHints.Proofs.Pattern.Splitting

/-!
# Ways to read, in order of preference

A pattern may read in several ways from one spot on. `p.ways s` lists them all, the preferred ones
first: a choice tries its first branch and then the second, an eager repetition prefers one more
round, and of two patterns in a row the first one settles its way before the second. This is the
order in which a reader would try the ways who goes back to the last choice when he is stuck.

It needs that rounds of a pattern read something, as without it there is no end to them.

Results:
* `reads_of_mem_ways`: a way reads.
* `after_stop_lt`: a pattern that reads something stops further on.
-/
namespace ErrorHints

/-- How a pattern may read: the spot where it stops, and what it captures, the latest first. -/
structure Way (ν : Type) where
  stop : Spot
  captures : List (Capture ν)

namespace Way

variable {ν : Type}

/-- The ways that go on where this one stops. -/
def followedBy (w : Way ν) (next : Spot → List (Way ν)) : List (Way ν) :=
  (next w.stop).map fun v => ⟨v.stop, v.captures ++ w.captures⟩

/-- Prefer one more round if `eager`, else the way without it. -/
def prefer (eager : Bool) (more : List (Way ν)) (without : Way ν) : List (Way ν) :=
  if eager then more ++ [without] else without :: more

/-- At most `n` rounds of what `step` reads. -/
def rounds (step : Spot → List (Way ν)) (eager : Bool) : (n : Nat) → Spot → List (Way ν)
  | 0, s => [⟨s, []⟩]
  | n + 1, s => prefer eager ((step s).flatMap (·.followedBy (rounds step eager n))) ⟨s, []⟩

theorem mem_prefer {eager : Bool} {more : List (Way ν)} {without w : Way ν} :
    w ∈ prefer eager more without ↔ w ∈ more ∨ w = without := by
  cases eager <;> simp [prefer, or_comm]

end Way

namespace Pattern

variable {ν : Type}

/-- The way that reads the given characters, if there is one. -/
def textWays : List Char → Spot → List (Way ν)
  | [], s => [⟨s, []⟩]
  | c :: cs, s =>
    match s.after with
    | d :: rest => if d = c then textWays cs (s.past d rest) else []
    | [] => []

/-- The way that reads one character of a class, if there is one. -/
def oneWays (inClass : Char → Bool) (s : Spot) : List (Way ν) :=
  match s.after with
  | c :: rest => if inClass c then [⟨s.past c rest, []⟩] else []
  | [] => []

/-- All ways in which a pattern reads from a spot on, the preferred ones first. No more rounds are
counted than there are characters left. -/
def ways : Pattern ν → Spot → List (Way ν)
  | text cs, s => textWays cs s
  | one set, s => oneWays set.contains s
  | place anchor, s => if anchor.holds s then [⟨s, []⟩] else []
  | seq p q, s => (p.ways s).flatMap (·.followedBy q.ways)
  | alt p q, s => p.ways s ++ q.ways s
  | repeated .atMostOne eager p, s => Way.prefer eager (p.ways s) ⟨s, []⟩
  | repeated .anyNumber eager p, s => Way.rounds p.ways eager s.after.length s
  | repeated .atLeastOne eager p, s =>
    (p.ways s).flatMap (·.followedBy fun r => Way.rounds p.ways eager r.after.length r)
  | group name p, s =>
    (p.ways s).map fun w => ⟨w.stop, ⟨name, s.after, w.stop.before - s.before⟩ :: w.captures⟩

/-- The preferred way from the earliest spot on from which the pattern reads. -/
def leftmost (p : Pattern ν) (s : Spot) : Option (Way ν) :=
  match h : s.after with
  | [] => (p.ways s).head?
  | c :: rest => (p.ways s).head?.or (p.leftmost (s.past c rest))
termination_by s.after.length
decreasing_by simp [h, Spot.past]

theorem leftmost_of_nil {p : Pattern ν} {s : Spot} (hs : s.after = []) :
    p.leftmost s = (p.ways s).head? := by
  unfold leftmost
  split
  · rfl
  · simp_all

theorem leftmost_of_cons {p : Pattern ν} {s : Spot} {c : Char} {rest : List Char}
    (hs : s.after = c :: rest) :
    p.leftmost s = (p.ways s).head?.or (p.leftmost (s.past c rest)) := by
  rw [leftmost]
  split
  · simp_all
  · simp_all

/-- Whether rounds are asked for only of what reads something, one optional round apart. -/
def roundsRead : Pattern ν → Bool
  | text _ | one _ | place _ => true
  | seq p q | alt p q => p.roundsRead && q.roundsRead
  | repeated .atMostOne _ p => p.roundsRead
  | repeated _ _ p => p.readsSomething && p.roundsRead
  | group _ p => p.roundsRead

/-! ## Ways read -/

theorem reads_of_mem_textWays {cs : List Char} {s : Spot} {w : Way ν} (h : w ∈ textWays cs s) :
    (text (ν := ν) cs).Reads s w.stop [] ∧ w.captures = [] := by
  induction cs generalizing s with
  | nil =>
    obtain rfl := List.mem_singleton.1 h
    exact ⟨.nothing, rfl⟩
  | cons c cs ih =>
    unfold textWays at h
    split at h
    · rename_i d rest hs
      split at h
      · rename_i hd
        subst hd
        obtain ⟨hr, hcs⟩ := ih h
        exact ⟨.char hs hr, hcs⟩
      · cases h
    · cases h

theorem reads_of_mem_followedBy {p q : Pattern ν} {s : Spot} {v w : Way ν}
    {next : Spot → List (Way ν)} (hp : p.Reads s v.stop v.captures)
    (hq : ∀ {r u}, u ∈ next r → q.Reads r u.stop u.captures) (h : w ∈ v.followedBy next) :
    (seq p q).Reads s w.stop w.captures := by
  obtain ⟨u, hu, rfl⟩ := List.mem_map.1 h
  exact .seq hp (hq hu)

theorem reads_of_mem_rounds {p : Pattern ν} {eager : Bool}
    (hp : ∀ {s w}, w ∈ p.ways s → p.Reads s w.stop w.captures) {n : Nat} {s : Spot} {w : Way ν}
    (h : w ∈ Way.rounds p.ways eager n s) :
    (repeated .anyNumber eager p).Reads s w.stop w.captures := by
  induction n generalizing s w with
  | zero =>
    obtain rfl := List.mem_singleton.1 h
    exact .stop (by decide)
  | succ n ih =>
    rcases Way.mem_prefer.1 h with h | rfl
    · obtain ⟨v, hv, hw⟩ := List.mem_flatMap.1 h
      obtain ⟨t, x, y, hx, hy, he⟩ := reads_seq_iff.1 (reads_of_mem_followedBy (hp hv) ih hw)
      exact he ▸ .again (by decide) hx hy
    · exact .stop (by decide)

/-- A way reads. -/
theorem reads_of_mem_ways {p : Pattern ν} {s : Spot} {w : Way ν} (h : w ∈ p.ways s) :
    p.Reads s w.stop w.captures := by
  induction p generalizing s w with
  | text cs =>
    obtain ⟨hr, hcs⟩ := reads_of_mem_textWays h
    exact hcs ▸ hr
  | one set =>
    unfold ways oneWays at h
    split at h
    · rename_i c rest hs
      split at h
      · rename_i hc
        obtain rfl := List.mem_singleton.1 h
        exact .one hs hc
      · cases h
    · cases h
  | place anchor =>
    unfold ways at h
    split at h
    · rename_i hs
      obtain rfl := List.mem_singleton.1 h
      exact .place hs
    · cases h
  | seq p q ihp ihq =>
    obtain ⟨v, hv, hw⟩ := List.mem_flatMap.1 h
    exact reads_of_mem_followedBy (ihp hv) ihq hw
  | alt p q ihp ihq =>
    rcases List.mem_append.1 h with h | h
    · exact .left (ihp h)
    · exact .right (ihq h)
  | repeated r eager p ih =>
    cases r with
    | atMostOne =>
      rcases Way.mem_prefer.1 h with h | rfl
      · exact .once (ih h)
      · exact .stop (by decide)
    | anyNumber => exact reads_of_mem_rounds ih h
    | atLeastOne =>
      obtain ⟨v, hv, hw⟩ := List.mem_flatMap.1 h
      exact reads_atLeastOne_iff.2
        (reads_seq_iff.1 (reads_of_mem_followedBy (ih hv) (reads_of_mem_rounds ih) hw))
  | group name p ih =>
    obtain ⟨v, hv, rfl⟩ := List.mem_map.1 h
    exact .group (ih hv)

/-! ## How far a pattern reads -/

/-- A pattern stops at a spot ahead. -/
theorem Reads.exists_ahead {p : Pattern ν} {s t : Spot} {cs : List (Capture ν)}
    (h : p.Reads s t cs) : ∃ n ≤ s.after.length, t = s.ahead n := by
  have hone {s : Spot} {c : Char} {rest : List Char} (hs : s.after = c :: rest) :
      1 ≤ s.after.length ∧ s.past c rest = s.ahead 1 := by
    rw [hs, Spot.ahead_succ hs]
    exact ⟨by simp, rfl⟩
  have htwo {s t r : Spot} (hst : ∃ n ≤ s.after.length, t = s.ahead n)
      (htr : ∃ n ≤ t.after.length, r = t.ahead n) : ∃ n ≤ s.after.length, r = s.ahead n := by
    obtain ⟨m, hm, rfl⟩ := hst
    obtain ⟨n, hn, rfl⟩ := htr
    rw [Spot.after_ahead, List.length_drop] at hn
    exact ⟨m + n, by omega, (s.ahead_add m n).symm⟩
  induction h with
  | nothing | place _ | stop _ => exact ⟨0, Nat.zero_le _, rfl⟩
  | char hs _ ih => exact htwo ⟨1, hone hs⟩ ih
  | one hs _ => exact ⟨1, hone hs⟩
  | seq _ _ ihp ihq | again _ _ _ ihp ihq => exact htwo ihp ihq
  | left _ ih | right _ ih | once _ ih | group _ ih => exact ih

theorem after_stop_lt {p : Pattern ν} (hp : p.readsSomething) {s : Spot} {w : Way ν}
    (h : w ∈ p.ways s) : w.stop.after.length < s.after.length := by
  obtain ⟨x, vs, hx, ha, -, -⟩ := renders_of_reads (reads_of_mem_ways h)
  have := List.length_pos_iff.2 (hx.ne_nil hp)
  rw [ha, List.length_append]
  omega

end Pattern

end ErrorHints

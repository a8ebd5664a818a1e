import ErrorHints.Proofs.Pattern.Search
import ErrorHints.Proofs.Pattern.Ways
import Mathlib.Data.List.Basic

/-!
# The search finds the preferred way

The search keeps many threads side by side and drops a thread that comes to a state where one
before it has been. A reader could instead try the threads one after the other, each of them to its
end, and go back to the last choice when he is stuck. Both come to the same result: what a dropped
thread could still reach, the thread before it reaches too.

That a state is not entered twice is no loss even while a thread is on its way to success. If it
came to a state again, it would be as far from its end as when it was there before.

Results:
* `leads_ways`: trying the code of a pattern is trying its ways, one after the other.
* `tries_settle`: settling threads does not change what they come to.
* `run_eq_leftmost`: a run finds what the threads come to, else what can be read from the earliest spot on.
-/
namespace ErrorHints

namespace Automaton

variable {ν : Type} {a : Automaton ν}

/-! ## One thread after the other -/

/-- A thread that reads the next character. -/
def reading (a : Automaton ν) (s : Spot) (t : Thread ν) : List (Spot × Thread ν) :=
  match s.after with
  | c :: rest => (a.advance? c t).toList.map (s.past c rest, ·)
  | [] => []

/-- What a thread goes on as, the preferred one first. -/
def moves (a : Automaton ν) (s : Spot) (t : Thread ν) : List (Spot × Thread ν) :=
  (a.silent s t).map (s, ·) ++ a.reading s t

/-- Trying threads one after the other, each with all that it goes on as before the next one, comes
to an end after `n` moves: with what the first thread captured that is accepted, or with nothing. -/
inductive Tries (a : Automaton ν) :
    Nat → List (Spot × Thread ν) → Option (List (Capture ν)) → Prop
  | stuck : Tries a 0 [] none
  | found {s : Spot} {t : Thread ν} {work : List (Spot × Thread ν)} (h : a.accepts t) :
      Tries a 0 ((s, t) :: work) (some t.captures)
  | move {n : Nat} {s : Spot} {t : Thread ν} {work : List (Spot × Thread ν)}
      {o : Option (List (Capture ν))} (h : a.accepts t = false)
      (rest : Tries a n (a.moves s t ++ work) o) : Tries a (n + 1) ((s, t) :: work) o

namespace Tries

variable {m n : Nat} {xs ys : List (Spot × Thread ν)} {o o' : Option (List (Capture ν))}
  {cs : List (Capture ν)}

theorem append_of_found (h : Tries a n xs (some cs)) (ys : List (Spot × Thread ν)) :
    Tries a n (xs ++ ys) (some cs) := by
  generalize ho : some cs = o at h
  induction h with
  | stuck => cases ho
  | found h => exact .found h
  | move h _ ih => exact .move h (by simpa using ih ho)

theorem append (h : Tries a m xs none) (h' : Tries a n ys o) : Tries a (m + n) (xs ++ ys) o := by
  generalize ho : (none : Option (List (Capture ν))) = x at h
  induction h with
  | stuck => simpa using h'
  | found _ => cases ho
  | move h _ ih =>
    rw [Nat.add_right_comm]
    exact .move h (by simpa using ih ho)

/-- The first threads come to something, or nothing comes of them and the others go on. -/
theorem split (h : Tries a n (xs ++ ys) o) :
    (o.isSome ∧ Tries a n xs o) ∨
      ∃ k l, n = k + l ∧ Tries a k xs none ∧ Tries a l ys o := by
  generalize hz : xs ++ ys = zs at h
  induction h generalizing xs with
  | stuck =>
    obtain ⟨rfl, rfl⟩ := List.append_eq_nil_iff.1 hz
    exact .inr ⟨0, 0, rfl, .stuck, .stuck⟩
  | @found s t work h =>
    cases xs with
    | nil => exact .inr ⟨0, 0, rfl, .stuck, by rw [show ys = _ from hz]; exact .found h⟩
    | cons x xs =>
      obtain ⟨rfl, -⟩ := List.cons.inj hz
      exact .inl ⟨rfl, .found h⟩
  | @move n s t work o h hrest ih =>
    cases xs with
    | nil => exact .inr ⟨0, n + 1, by omega, .stuck, by rw [show ys = _ from hz]; exact .move h hrest⟩
    | cons x xs =>
      obtain ⟨rfl, rfl⟩ := List.cons.inj hz
      rcases ih (List.append_assoc _ _ _) with ⟨hs, hx⟩ | ⟨k, l, rfl, hx, hy⟩
      · exact .inl ⟨hs, .move h hx⟩
      · exact .inr ⟨k + 1, l, by omega, .move h hx, hy⟩

theorem unique (h : Tries a m xs o) (h' : Tries a n xs o') : m = n ∧ o = o' := by
  induction h generalizing n with
  | stuck => cases h'; exact ⟨rfl, rfl⟩
  | found h =>
    cases h' with
    | found _ => exact ⟨rfl, rfl⟩
    | move h' _ => simp [h] at h'
  | move h _ ih =>
    cases h' with
    | found h' => simp [h] at h'
    | move _ hrest =>
      obtain ⟨rfl, rfl⟩ := ih hrest
      exact ⟨rfl, rfl⟩

end Tries

/-- Two lists of threads stand at the same spots in the same states. -/
def Alike (xs ys : List (Spot × Thread ν)) : Prop :=
  xs.map (fun x => (x.1, x.2.state)) = ys.map fun y => (y.1, y.2.state)

theorem Alike.append {xs xs' ys ys' : List (Spot × Thread ν)} (h : Alike xs ys)
    (h' : Alike xs' ys') : Alike (xs ++ xs') (ys ++ ys') := by
  simp only [Alike, List.map_append] at *
  rw [h, h']

theorem alike_moves (s : Spot) {t u : Thread ν} (h : t.state = u.state) :
    Alike (a.moves s t) (a.moves s u) := by
  refine Alike.append ?_ ?_
  · unfold Alike silent
    rw [h]
    split
    any_goals rfl
    split <;> rfl
  · unfold Alike reading advance?
    rw [h]
    split
    · split
      · split <;> rfl
      · rfl
    · rfl

/-- Whether threads come to something, and after how many moves, their states decide. -/
theorem Tries.of_alike {n : Nat} {xs ys : List (Spot × Thread ν)}
    {o : Option (List (Capture ν))} (h : Tries a n xs o) (hxy : Alike xs ys) :
    ∃ o', Tries a n ys o' ∧ o'.isSome = o.isSome := by
  have hcons {s : Spot} {t : Thread ν} {xs ys : List (Spot × Thread ν)}
      (h : Alike ((s, t) :: xs) ys) :
      ∃ u ys', ys = (s, u) :: ys' ∧ t.state = u.state ∧ Alike xs ys' := by
    cases ys with
    | nil => cases h
    | cons y ys =>
      simp only [Alike, List.map_cons, List.cons.injEq, Prod.mk.injEq] at h
      exact ⟨y.2, ys, by rw [h.1.1], h.1.2, h.2⟩
  induction h generalizing ys with
  | stuck =>
    obtain rfl := List.map_eq_nil_iff.1 hxy.symm
    exact ⟨none, .stuck, rfl⟩
  | found h =>
    obtain ⟨u, ys', rfl, hu, -⟩ := hcons hxy
    exact ⟨_, .found (accepts_of_state hu.symm h), rfl⟩
  | @move n s t work o h _ ih =>
    obtain ⟨u, ys', rfl, hu, hwork⟩ := hcons hxy
    obtain ⟨o', ho, hs⟩ := ih ((alike_moves s hu).append hwork)
    refine ⟨o', .move ?_ ho, hs⟩
    rw [← Bool.not_eq_true] at h ⊢
    exact fun hacc => h (accepts_of_state hu hacc)

/-! ## What the code of a pattern leads to -/

/-- Trying `xs` comes to what trying `ys` comes to, whatever is to be tried after them. -/
def Leads (a : Automaton ν) (xs ys : List (Spot × Thread ν)) : Prop :=
  ∀ (work : List (Spot × Thread ν)) (o : Option (List (Capture ν))),
    (∃ n, Tries a n (ys ++ work) o) → ∃ n, Tries a n (xs ++ work) o

namespace Leads

variable {xs xs' ys ys' zs : List (Spot × Thread ν)}

theorem refl (xs : List (Spot × Thread ν)) : Leads a xs xs := fun _ _ h => h

theorem trans (h : Leads a xs ys) (h' : Leads a ys zs) : Leads a xs zs :=
  fun work o hz => h work o (h' work o hz)

theorem append (h : Leads a xs ys) (h' : Leads a xs' ys') : Leads a (xs ++ xs') (ys ++ ys') := by
  intro work o hy
  rw [List.append_assoc] at hy ⊢
  obtain ⟨n, hn⟩ := h _ o hy
  rcases hn.split with ⟨hs, hx⟩ | ⟨k, l, -, hx, hrest⟩
  · obtain ⟨cs, rfl⟩ := Option.isSome_iff_exists.1 hs
    exact ⟨n, hx.append_of_found _⟩
  · obtain ⟨m, hm⟩ := h' work o ⟨l, hrest⟩
    exact ⟨k + m, hx.append hm⟩

/-- Every one of some threads leads to a list of its own. -/
theorem flatMap {β : Type} {bs : List β} {f : β → Spot × Thread ν}
    {g : β → List (Spot × Thread ν)} (h : ∀ b ∈ bs, Leads a [f b] (g b)) :
    Leads a (bs.map f) (bs.flatMap g) := by
  induction bs with
  | nil => exact refl []
  | cons b bs ih =>
    have hhead := h b List.mem_cons_self
    exact hhead.append (ih fun c hc => h c (List.mem_cons_of_mem b hc))

theorem map {β : Type} {bs : List β} {f g : β → Spot × Thread ν}
    (h : ∀ b ∈ bs, Leads a [f b] [g b]) : Leads a (bs.map f) (bs.map g) := by
  rw [← List.flatMap_singleton' (bs.map g), List.flatMap_map]
  exact flatMap h

end Leads

/-- The threads at `next` that have read in the given ways. -/
def exits (t : Thread ν) (next : Nat) (ws : List (Way ν)) : List (Spot × Thread ν) :=
  ws.map fun w => (w.stop, t.onTo next w.captures)

section Step

variable {s : Spot} {t : Thread ν} {next : Nat}

/-- A thread at a state that is no end leads to all that it goes on as. -/
theorem leads_moves {st : State ν} (ha : a[t.state]? = some st) (hst : st ≠ .accept) :
    Leads a [(s, t)] (a.moves s t) := by
  intro work o h
  obtain ⟨n, hn⟩ := h
  refine ⟨n + 1, .move ?_ hn⟩
  unfold accepts
  split
  · simp_all
  · rfl

theorem reading_eq_nil (ha : ∀ set next, a[t.state]? ≠ some (.read set next)) :
    a.reading s t = [] := by
  unfold reading advance?
  split
  · split
    · exact absurd ‹_› (ha _ _)
    · rfl
  · rfl

theorem leads_silent {st : State ν} (ha : a[t.state]? = some st) (hst : st ≠ .accept)
    (hread : ∀ set next, st ≠ .read set next) :
    Leads a [(s, t)] ((a.silent s t).map (s, ·)) := by
  have h := leads_moves (s := s) ha hst
  rwa [moves, reading_eq_nil fun set next => by simpa [ha] using hread set next,
    List.append_nil] at h

theorem leads_goTo (ha : a[t.state]? = some (.goTo next)) :
    Leads a [(s, t)] [(s, { t with state := next })] := by
  simpa [silent, ha] using leads_silent (s := s) ha (by simp) (by simp)

theorem leads_branch {e : Bool} {again out : Nat}
    (ha : a[t.state]? = some (Pattern.branch e again out)) :
    Leads a [(s, t)] (if e then [(s, { t with state := again }), (s, { t with state := out })]
      else [(s, { t with state := out }), (s, { t with state := again })]) := by
  cases e <;> simpa [silent, ha, Pattern.branch] using
    leads_silent (s := s) ha (by simp [Pattern.branch]) (by simp [Pattern.branch])

theorem leads_check {anchor : Anchor} (ha : a[t.state]? = some (.check anchor next)) :
    Leads a [(s, t)] (exits t next (if anchor.holds s then [⟨s, []⟩] else [])) := by
  have h := leads_silent (s := s) ha (by simp) (by simp)
  simp only [silent, ha] at h
  split at h <;> simpa [exits, *] using h

theorem leads_enter (ha : a[t.state]? = some (.enter next)) :
    Leads a [(s, t)] [(s, { t with state := next, openings := s :: t.openings })] := by
  simpa [silent, ha] using leads_silent (s := s) ha (by simp) (by simp)

theorem leads_leave {name : ν} (ha : a[t.state]? = some (.leave name next)) :
    Leads a [(s, t)] [(s, { t.leave name s with state := next })] := by
  simpa [silent, ha] using leads_silent (s := s) ha (by simp) (by simp)

theorem leads_read {set : CharSet} (ha : a[t.state]? = some (.read set next)) :
    Leads a [(s, t)] (exits t next (Pattern.oneWays set.contains s)) := by
  have h := leads_moves (s := s) ha (by simp)
  simp only [moves, silent, ha, reading, advance?, List.map_nil, List.nil_append] at h
  unfold exits Pattern.oneWays
  cases hs : s.after with
  | nil => simpa [hs] using h
  | cons c rest =>
    simp only [hs] at h
    cases hc : set.contains c <;> simpa [hc] using h

end Step

theorem exits_append (t : Thread ν) (next : Nat) (vs ws : List (Way ν)) :
    exits t next (vs ++ ws) = exits t next vs ++ exits t next ws := List.map_append

/-- Ways that go on after others, out of the threads that have read the others. -/
theorem leads_followedBy {t : Thread ν} {mid next : Nat} {vs : List (Way ν)}
    {step : Spot → List (Way ν)}
    (h : ∀ v ∈ vs, Leads a [(v.stop, t.onTo mid v.captures)]
      (exits (t.onTo mid v.captures) next (step v.stop))) :
    Leads a (exits t mid vs) (exits t next (vs.flatMap (·.followedBy step))) := by
  have he : exits t next (vs.flatMap (·.followedBy step)) =
      vs.flatMap fun v => exits (t.onTo mid v.captures) next (step v.stop) := by
    simp [exits, List.map_flatMap, Way.followedBy, Function.comp_def]
  rw [he]
  exact Leads.flatMap h

open Pattern

/-- Trying the code of a pattern is trying the ways of the pattern. -/
def LeadsWays (a : Automaton ν) (p : Pattern ν) : Prop :=
  ∀ {base next : Nat} {s : Spot} {t : Thread ν}, a.Holds base (p.code base next) →
    t.state = base → Leads a [(s, t)] (exits t next (p.ways s))

theorem leads_textWays (chars : List Char) {base next : Nat} {s : Spot} {t : Thread ν}
    (ha : a.Holds base (textCode chars base next)) (ht : t.state = base) :
    Leads a [(s, t)] (exits t next (textWays chars s)) := by
  induction chars generalizing base s t with
  | nil =>
    subst ht
    exact leads_goTo (holds_cons_iff.1 ha).1
  | cons c cs ih =>
    subst ht
    obtain ⟨hst, hrest⟩ := holds_cons_iff.1 ha
    refine (leads_read hst).trans ?_
    unfold oneWays textWays
    split
    · rename_i d rest hs
      rw [CharSet.contains_single]
      by_cases hd : d = c
      · simpa [hd, exits] using ih (s := s.past d rest) (t := { t with state := t.state + 1 }) hrest rfl
      · simpa [hd, exits] using Leads.refl []
    · exact Leads.refl []

/-- At a branch, one more round or the way without it. -/
theorem leads_prefer {eager : Bool} {again out next : Nat} {s : Spot} {t : Thread ν}
    {more : List (Way ν)} (ha : a[t.state]? = some (branch eager again out))
    (hmore : Leads a [(s, { t with state := again })] (exits t next more))
    (hout : Leads a [(s, { t with state := out })] (exits t next [⟨s, []⟩])) :
    Leads a [(s, t)] (exits t next (Way.prefer eager more ⟨s, []⟩)) := by
  refine (leads_branch ha).trans ?_
  cases eager with
  | true => simpa [Way.prefer, exits_append] using hmore.append hout
  | false => simpa [Way.prefer, exits] using hout.append hmore

/-- A loop leads to as many rounds as there are characters left. -/
theorem Loop.leads {p : Pattern ν} {eager : Bool} {fork body next : Nat}
    (hl : Loop a p eager fork body next) (ih : LeadsWays a p) (hp : p.readsSomething) {n : Nat}
    {s : Spot} {t : Thread ν} (ht : t.state = fork) (hn : s.after.length ≤ n) :
    Leads a [(s, t)] (exits t next (Way.rounds p.ways eager n s)) := by
  have hbody {s : Spot} {t : Thread ν} :
      Leads a [(s, { t with state := body })] (exits t fork (p.ways s)) := by
    simpa [exits] using ih (s := s) (t := { t with state := body }) hl.body_holds rfl
  have hstop {s : Spot} {t : Thread ν} :
      Leads a [(s, { t with state := next })] (exits t next [⟨s, []⟩]) := Leads.refl _
  induction n generalizing s t with
  | zero =>
    -- at the end of the text there is no round
    have hnone : p.ways s = [] := List.eq_nil_iff_forall_not_mem.2 fun w hw => by
      have := after_stop_lt hp hw
      omega
    have hround : Leads a [(s, { t with state := body })] (exits t next []) := by
      have h := hbody (s := s) (t := t)
      rwa [hnone] at h
    have h := leads_prefer (ht ▸ hl.fork_eq) hround hstop
    cases eager <;> exact h
  | succ n ihn =>
    refine leads_prefer (ht ▸ hl.fork_eq) (hbody.trans (leads_followedBy fun v hv => ?_)) hstop
    have := after_stop_lt hp hv
    exact ihn rfl (by omega)

/-- Trying the code of a pattern is trying its ways, one after the other. -/
theorem leads_ways (p : Pattern ν) (hp : p.roundsRead) : LeadsWays a p := by
  induction p with
  | text chars => exact fun ha ht => leads_textWays chars ha ht
  | one set =>
    intro base next s t ha ht
    subst ht
    exact leads_read (holds_cons_iff.1 ha).1
  | place anchor =>
    intro base next s t ha ht
    subst ht
    exact leads_check (holds_cons_iff.1 ha).1
  | seq p q ihp ihq =>
    intro base next s t ha ht
    simp only [roundsRead, Bool.and_eq_true] at hp
    obtain ⟨hcp, hcq⟩ := holds_append_iff.1 ha
    rw [length_code] at hcq
    exact (ihp hp.1 hcp ht).trans (leads_followedBy fun v _ => ihq hp.2 hcq rfl)
  | alt p q ihp ihq =>
    intro base next s t ha ht
    subst ht
    simp only [roundsRead, Bool.and_eq_true] at hp
    obtain ⟨hst, hcode⟩ := holds_cons_iff.1 ha
    obtain ⟨hcp, hcq⟩ := holds_append_iff.1 hcode
    rw [length_code] at hcq
    refine (leads_branch (e := true) hst).trans ?_
    rw [ways, exits_append]
    exact (ihp hp.1 (t := { t with state := t.state + 1 }) hcp rfl).append
      (ihq hp.2 (t := { t with state := t.state + 1 + p.stateCount }) hcq rfl)
  | repeated rounds eager p ih =>
    intro base next s t ha ht
    subst ht
    cases rounds with
    | atMostOne =>
      obtain ⟨hst, hcp⟩ := holds_cons_iff.1 ha
      exact leads_prefer hst (ih hp (t := { t with state := t.state + 1 }) hcp rfl) (Leads.refl _)
    | anyNumber =>
      simp only [roundsRead, Bool.and_eq_true] at hp
      obtain ⟨hst, hrest⟩ := holds_cons_iff.1 ha
      rw [if_pos hp.1] at hrest
      exact Loop.leads ⟨hst, hrest⟩ (ih hp.2) hp.1 rfl (Nat.le_refl _)
    | atLeastOne =>
      simp only [roundsRead, Bool.and_eq_true] at hp
      obtain ⟨hcp, hst⟩ := holds_append_iff.1 ha
      rw [length_code, holds_cons_iff] at hst
      have hloop : Loop a p eager (t.state + p.stateCount) t.state next := ⟨hst.1, hcp⟩
      exact (ih hp.2 hcp rfl).trans
        (leads_followedBy fun v _ => hloop.leads (ih hp.2) hp.1 rfl (Nat.le_refl _))
  | group name p ih =>
    intro base next s t ha ht
    subst ht
    obtain ⟨hst, hrest⟩ := holds_cons_iff.1 ha
    obtain ⟨hcp, hend⟩ := holds_append_iff.1 hrest
    rw [length_code, holds_cons_iff] at hend
    refine (leads_enter hst).trans ?_
    refine (ih hp (t := { t with state := t.state + 1, openings := s :: t.openings }) hcp rfl).trans ?_
    simp only [exits, ways, List.map_map]
    exact Leads.map fun w _ => leads_leave hend.1

/-! ## Settling keeps what threads come to -/

/-- What is left to try of a settled thread: those that follow it without reading stand behind it
in the list. -/
def pending (a : Automaton ν) (s : Spot) (t : Thread ν) : List (Spot × Thread ν) :=
  if a.accepts t then [(s, t)] else a.reading s t

theorem silent_eq_nil_or (s : Spot) (t : Thread ν) :
    a.silent s t = [] ∨ a.reading s t = [] := by
  by_cases h : ∃ set next, a[t.state]? = some (.read set next)
  · obtain ⟨set, next, ha⟩ := h
    exact .inl (by simp [silent, ha])
  · exact .inr (reading_eq_nil fun set next ha => h ⟨set, next, ha⟩)

/-- No thread at an entered state comes to something in at most `n` moves. -/
def Spent (a : Automaton ν) (s : Spot) (entered : Array Bool) (n : Nat) : Prop :=
  ∀ u m cs, entered[u.state]? ≠ some false → Tries a m [(s, u)] (some cs) → n < m

theorem Spent.mono {s : Spot} {entered : Array Bool} {m n : Nat} (h : a.Spent s entered n)
    (hm : m ≤ n) : a.Spent s entered m :=
  fun u k cs hu hk => Nat.lt_of_le_of_lt hm (h u k cs hu hk)

/-- A state may be entered that comes to nothing, or to something in more than `n` moves. -/
theorem Spent.enter {s : Spot} {entered : Array Bool} {n : Nat} {t : Thread ν}
    (h : a.Spent s entered n) (ht : ∀ m cs, Tries a m [(s, t)] (some cs) → n < m) :
    a.Spent s (entered.setIfInBounds t.state true) n := by
  intro u m cs hu hm
  by_cases htu : t.state = u.state
  · have hsame : Alike [(s, u)] [(s, t)] := by simp [Alike, htu]
    obtain ⟨o, ho, hs⟩ := hm.of_alike hsame
    obtain ⟨cs', rfl⟩ := Option.isSome_iff_exists.1 hs
    exact ht m cs' ho
  · rw [Array.getElem?_setIfInBounds_ne htu] at hu
    exact h u m cs hu hm

/-- Settling threads does not change what they come to. -/
theorem tries_settle {s : Spot} {fuel : Nat} {entered : Array Bool} {work : List (Thread ν)}
    {n : Nat} {o : Option (List (Capture ν))}
    (hf : work.length + 2 * entered.count false < fuel) (hs : a.Spent s entered n)
    (h : Tries a n (work.map (s, ·)) o) :
    ∃ m, Tries a m ((a.settle s fuel entered work).flatMap (a.pending s)) o := by
  fun_induction settle a s fuel entered work generalizing n with
  | case1 => omega
  | case2 => exact ⟨n, h⟩
  | case3 fuel entered t work hnew ih =>
    have hc := count_setIfInBounds hnew
    have hl := length_silent_le a s t
    have hf' : (a.silent s t ++ work).length + 2 * (entered.setIfInBounds t.state true).count false
        < fuel := by
      simp only [List.length_append, List.length_cons] at *
      omega
    rw [List.flatMap_cons]
    rw [List.map_cons] at h
    cases h with
    | found hacc => exact ⟨0, by simpa [pending, hacc] using Tries.found hacc⟩
    | @move n _ _ _ _ hacc hrest =>
      have hpending : a.pending s t = a.reading s t := by simp [pending, hacc]
      rw [hpending]
      rcases silent_eq_nil_or (a := a) s t with hnil | hnil
      · -- the thread reads
        simp only [moves, hnil, List.map_nil, List.nil_append] at hrest ih hf'
        rcases hrest.split with ⟨hsome, hx⟩ | ⟨k, l, rfl, hx, hwork⟩
        · obtain ⟨cs, rfl⟩ := Option.isSome_iff_exists.1 hsome
          exact ⟨n, hx.append_of_found _⟩
        · have hdead : Tries a (k + 1) [(s, t)] none :=
            .move hacc (by simpa [moves, hnil] using hx)
          obtain ⟨m, hm⟩ := ih hf' ((hs.mono (by omega)).enter fun m cs hm =>
            absurd (hdead.unique hm).2 (by simp)) hwork
          exact ⟨k + m, hx.append (by rwa [hnil])⟩
      · -- the thread goes on without reading: what follows it comes first
        rw [hnil, List.nil_append]
        refine ih hf' ((hs.mono (Nat.le_succ n)).enter fun m cs hm => ?_) ?_
        · have := (hm.append_of_found (work.map (s, ·))).unique (.move hacc hrest)
          omega
        · simpa [moves, hnil] using hrest
  | case4 fuel entered t work hold ih =>
    rw [List.map_cons, ← List.singleton_append] at h
    rcases h.split with ⟨hsome, hx⟩ | ⟨k, l, rfl, -, hwork⟩
    · obtain ⟨cs, rfl⟩ := Option.isSome_iff_exists.1 hsome
      exact absurd (hs t n cs hold hx) (Nat.lt_irrefl n)
    · exact ih (by simp only [List.length_cons] at hf; omega) (hs.mono (by omega)) hwork

/-- The same from the beginning on, when every state of the automaton may still be entered. -/
theorem tries_settled {s : Spot} {work : List (Thread ν)} {n : Nat}
    {o : Option (List (Capture ν))} (h : Tries a n (work.map (s, ·)) o) :
    ∃ m, Tries a m ((a.settled s work).flatMap (a.pending s)) o := by
  refine tries_settle (by rw [Array.count_replicate_self]; omega) (fun u m cs hu hm => ?_) h
  have hnone : a[u.state]? = none := by
    rw [Array.getElem?_eq_none_iff]
    by_contra hlt
    exact hu (by simp [Nat.lt_of_not_le hlt])
  have hacc : a.accepts u = false := by simp [accepts, hnone]
  have hmoves : a.moves s u = [] := by
    rw [moves, reading_eq_nil fun set next => by simp [hnone]]
    simp [silent, hnone]
  have hdead : Tries a 1 [(s, u)] none := .move hacc (by simpa [hmoves] using Tries.stuck)
  exact absurd (hm.unique hdead).2 (by simp)

/-! ## A run finds what the threads come to -/

/-- What settled threads come to: what those come to that stand before the first accepted one, else
what that one captured. -/
theorem tries_before_accepted {s : Spot} {ts : List (Thread ν)} {n : Nat}
    {o : Option (List (Capture ν))} (h : Tries a n (ts.flatMap (a.pending s)) o) :
    ∃ m o', Tries a m ((ts.takeWhile (!a.accepts ·)).flatMap (a.reading s)) o' ∧
      o = o'.or ((ts.find? a.accepts).map Thread.captures) := by
  induction ts generalizing n with
  | nil => exact ⟨n, o, h, by simp⟩
  | cons t ts ih =>
    rw [List.flatMap_cons] at h
    cases hacc : a.accepts t with
    | true =>
      simp only [pending, hacc, if_true, List.singleton_append] at h
      refine ⟨0, none, by simpa [hacc] using Tries.stuck, ?_⟩
      simpa [hacc] using (h.unique (.found hacc)).2
    | false =>
      have hp : a.pending s t = a.reading s t := by simp [pending, hacc]
      rw [hp] at h
      simp only [List.takeWhile_cons, hacc, Bool.not_false, if_true, List.flatMap_cons,
        List.find?_cons_of_neg (by simp [hacc] : ¬ a.accepts t = true)]
      rcases h.split with ⟨hsome, hx⟩ | ⟨k, l, -, hx, hrest⟩
      · obtain ⟨cs, rfl⟩ := Option.isSome_iff_exists.1 hsome
        exact ⟨n, some cs, hx.append_of_found _, rfl⟩
      · obtain ⟨m, o', hm, ho⟩ := ih hrest
        exact ⟨k + m, o', hx.append hm, ho⟩

theorem tries_step {s : Spot} {best : Option (List (Capture ν))} {live : List (Thread ν)} {n : Nat}
    {o : Option (List (Capture ν))}
    (h : Tries a n ((if best.isNone then live ++ [.fresh] else live).map (s, ·)) o) :
    ∃ m o', Tries a m ((a.step best live s).2.flatMap (a.reading s)) o' ∧
      o.or best = o'.or (a.step best live s).1 := by
  obtain ⟨k, hk⟩ := tries_settled h
  obtain ⟨m, o', hm, rfl⟩ := tries_before_accepted hk
  exact ⟨m, o', hm, Option.or_assoc⟩

/-- The thread that starts at a spot comes to the preferred way from there on. -/
theorem tries_fresh {p : Pattern ν} (hp : p.roundsRead) (s : Spot) :
    ∃ n, Tries p.automaton n [(s, .fresh)] ((p.ways s).head?.map Way.captures) := by
  obtain ⟨hcode, hend⟩ := holds_automaton p
  have hleads := leads_ways p hp (s := s) (t := .fresh) hcode rfl
  have h := hleads [] ((p.ways s).head?.map Way.captures) ?_
  · simpa using h
  cases hw : p.ways s with
  | nil => exact ⟨0, by simpa [exits] using Tries.stuck⟩
  | cons w ws =>
    refine ⟨0, ?_⟩
    have hacc : p.automaton.accepts (Thread.fresh.onTo p.stateCount w.captures) := by
      simp [accepts, Thread.onTo, hend]
    simpa [exits, Thread.onTo, Thread.fresh] using Tries.found (s := w.stop) hacc

/-- As long as nothing is found a new thread starts at every spot. -/
theorem tries_with_fresh {p : Pattern ν} (hp : p.roundsRead) (best : Option (List (Capture ν)))
    {s : Spot} {live : List (Thread ν)} {n : Nat}
    {o : Option (List (Capture ν))} (h : Tries p.automaton n (live.map (s, ·)) o) :
    ∃ m o', Tries p.automaton m
        ((if best.isNone then live ++ [.fresh] else live).map (s, ·)) o' ∧
      o'.or best = o.or (best.or ((p.ways s).head?.map Way.captures)) := by
  cases best with
  | some cs => exact ⟨n, o, h, rfl⟩
  | none =>
    simp only [Option.isNone_none, if_true, List.map_append, Option.or_none, Option.none_or]
    cases o with
    | some cs => exact ⟨n, some cs, h.append_of_found _, rfl⟩
    | none =>
      obtain ⟨k, hk⟩ := tries_fresh hp s
      exact ⟨n + k, _, h.append hk, rfl⟩

theorem flatMap_reading (s : Spot) {c : Char} {rest : List Char} (hs : s.after = c :: rest)
    (ts : List (Thread ν)) :
    ts.flatMap (a.reading s) = (ts.filterMap (a.advance? c)).map (s.past c rest, ·) := by
  have h : a.reading s = fun t => (a.advance? c t).toList.map (s.past c rest, ·) := by
    funext t
    rw [reading, hs]
  rw [h, List.filterMap_eq_flatMap_toList, List.map_flatMap]

/-- A run finds what its threads come to, else the best so far, else what can be read from the
earliest spot on. -/
theorem run_eq_leftmost {p : Pattern ν} (hp : p.roundsRead) {best : Option (List (Capture ν))}
    {live : List (Thread ν)} {before : Nat} {last : Option Char} {rest : List Char} {n : Nat}
    {o : Option (List (Capture ν))}
    (h : Tries p.automaton n (live.map (⟨before, last, rest⟩, ·)) o) :
    p.automaton.run best live before last rest =
      o.or (best.or ((p.leftmost ⟨before, last, rest⟩).map Way.captures)) := by
  induction rest generalizing best live before last n o with
  | nil =>
    obtain ⟨k, o₁, hk, ho₁⟩ := tries_with_fresh hp best h
    obtain ⟨m, o₂, hm, ho₂⟩ := tries_step hk
    have hnone : o₂ = none := by
      have hnil : (p.automaton.step best live ⟨before, last, []⟩).2.flatMap
          (p.automaton.reading ⟨before, last, []⟩) = [] := by simp [reading]
      rw [hnil] at hm
      exact (hm.unique .stuck).2
    rw [run, leftmost_of_nil rfl, ← ho₁, ho₂, hnone, Option.none_or]
  | cons c rest ih =>
    obtain ⟨k, o₁, hk, ho₁⟩ := tries_with_fresh hp best h
    obtain ⟨m, o₂, hm, ho₂⟩ := tries_step hk
    rw [flatMap_reading _ rfl] at hm
    rw [run, leftmost_of_cons rfl, Option.map_or]
    calc _ = o₂.or (((p.automaton.step best live ⟨before, last, c :: rest⟩).1).or
          ((p.leftmost (Spot.past ⟨before, last, c :: rest⟩ c rest)).map Way.captures)) := ih hm
      _ = (o.or (best.or ((p.ways ⟨before, last, c :: rest⟩).head?.map Way.captures))).or
          ((p.leftmost (Spot.past ⟨before, last, c :: rest⟩ c rest)).map Way.captures) := by
        rw [← Option.or_assoc, ← ho₂, ho₁]
      _ = _ := by rw [Option.or_assoc, Option.or_assoc]

end Automaton

namespace Pattern

/-- What a group finds is what the pattern in it finds, captured from the spot on where it starts. -/
theorem leftmost_group {ν : Type} (name : ν) (p : Pattern ν) (s : Spot) :
    (p.leftmost s = none ∧ (group name p).leftmost s = none) ∨
      ∃ i ≤ s.after.length, ∃ w ∈ p.ways (s.ahead i), p.leftmost s = some w ∧
        (group name p).leftmost s = some ⟨w.stop,
          ⟨name, (s.ahead i).after, w.stop.before - (s.ahead i).before⟩ :: w.captures⟩ := by
  have hhere {s : Spot} {w : Way ν} {ws : List (Way ν)} (hw : p.ways s = w :: ws) :
      w ∈ p.ways s ∧ ((group name p).ways s).head? = some ⟨w.stop,
        ⟨name, s.after, w.stop.before - s.before⟩ :: w.captures⟩ := by
    simp [ways, hw]
  generalize hr : s.after = rest
  induction rest generalizing s with
  | nil =>
    rw [leftmost_of_nil hr, leftmost_of_nil hr]
    cases hw : p.ways s with
    | nil => exact .inl ⟨rfl, by simp [ways, hw]⟩
    | cons w ws => exact .inr ⟨0, Nat.zero_le _, w, (hhere hw).1, rfl, (hhere hw).2⟩
  | cons c rest ih =>
    rw [leftmost_of_cons hr, leftmost_of_cons hr]
    cases hw : p.ways s with
    | nil =>
      have hg : (group name p).ways s = [] := by simp [ways, hw]
      simp only [hg, List.head?_nil, Option.none_or]
      rcases ih (s.past c rest) rfl with h | ⟨i, hi, h⟩
      · exact .inl h
      · refine .inr ⟨i + 1, by simpa using hi, ?_⟩
        rwa [Spot.ahead_succ hr]
    | cons w ws =>
      exact .inr ⟨0, Nat.zero_le _, w, (hhere hw).1, rfl, by rw [(hhere hw).2]; rfl⟩

/-- What is found from a spot on is the preferred way from the earliest spot on from which the
pattern reads. -/
theorem find?_eq {p : Pattern Nat} (hp : p.roundsRead) (s : Spot) :
    (group 0 p).automaton.find? s = (p.leftmost s).map fun w => ⟨w.captures, w.stop⟩ := by
  have hrun : (group 0 p).automaton.run none [] s.before s.last s.after =
      ((group 0 p).leftmost s).map Way.captures := by
    have hnone : (group 0 p).automaton.Tries 0 (([] : List (Automaton.Thread Nat)).map (s, ·)) none :=
      .stuck
    rw [Automaton.run_eq_leftmost (p := group 0 p) hp hnone, Option.none_or, Option.none_or]
  unfold Automaton.find?
  rw [hrun]
  rcases leftmost_group 0 p s with ⟨hp, hg⟩ | ⟨i, hi, w, hw, hp, hg⟩
  · rw [hp, hg]; rfl
  · obtain ⟨j, hj, hstop⟩ := (reads_of_mem_ways hw).exists_ahead
    have hbefore := Spot.before_ahead hj
    rw [← hstop] at hbefore
    rw [Spot.after_ahead, List.length_drop] at hj
    have hahead : s.ahead (s.after.length - (s.ahead i).after.length +
        (w.stop.before - (s.ahead i).before)) = w.stop := by
      rw [hbefore, Spot.after_ahead, List.length_drop, hstop, ← Spot.ahead_add]
      congr 1
      omega
    simp only [hp, hg, Option.map_some, hahead]

end Pattern

end ErrorHints

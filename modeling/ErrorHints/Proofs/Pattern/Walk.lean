import ErrorHints.Proofs.Pattern.Reading

/-!
# Walks through an automaton

A thread walks through an automaton by steps without reading and by steps that read the
next character. The code of a pattern takes a thread from its first state to the state
behind it in just the ways in which the pattern reads.

Results:
* `reads_of_walk`: a walk that enters the code of a pattern and leaves it has read the pattern.
* `walk_of_reads`: what the pattern reads, a thread can walk.
-/
namespace ErrorHints

namespace Automaton

variable {ν : Type}

/-- `n` steps of a thread, with the spots where it starts and ends. -/
inductive Walk (a : Automaton ν) : Nat → Spot → Thread ν → Spot → Thread ν → Prop
  | here {s : Spot} {t : Thread ν} : Walk a 0 s t s t
  | silent {n : Nat} {s r : Spot} {t t' u : Thread ν} (h : t' ∈ a.silent s t)
      (rest : Walk a n s t' r u) : Walk a (n + 1) s t r u
  | read {n : Nat} {s r : Spot} {t t' u : Thread ν} {c : Char} {after : List Char}
      (hs : s.after = c :: after) (h : a.advance? c t = some t')
      (rest : Walk a n (s.past c after) t' r u) : Walk a (n + 1) s t r u

namespace Walk

variable {a : Automaton ν} {m n : Nat} {s r q : Spot} {t u v : Thread ν}

theorem trans (h : Walk a m s t r u) (h' : Walk a n r u q v) : ∃ k, Walk a k s t q v := by
  induction h with
  | here => exact ⟨_, h'⟩
  | silent hm _ ih =>
    obtain ⟨k, hk⟩ := ih h'
    exact ⟨k + 1, .silent hm hk⟩
  | read hs hm _ ih =>
    obtain ⟨k, hk⟩ := ih h'
    exact ⟨k + 1, .read hs hm hk⟩

theorem in_text {text : List Char} (h : Walk a n s t r u) (hs : s.In text) : r.In text := by
  induction h with
  | here => exact hs
  | silent _ _ ih => exact ih hs
  | read h _ _ ih => exact ih (hs.past h)

/-! ## The first step of a walk -/

theorem of_goTo {next : Nat} (ha : a[t.state]? = some (.goTo next)) (h : Walk a n s t r u)
    (hu : u.state ≠ t.state) : ∃ m, n = m + 1 ∧ Walk a m s { t with state := next } r u := by
  cases h with
  | here => exact absurd rfl hu
  | silent h rest =>
    simp only [Automaton.silent, ha, List.mem_singleton] at h
    exact ⟨_, rfl, h ▸ rest⟩
  | read _ h _ => simp [advance?, ha] at h

theorem of_branch {e : Bool} {again out : Nat}
    (ha : a[t.state]? = some (Pattern.branch e again out)) (h : Walk a n s t r u)
    (hu : u.state ≠ t.state) :
    ∃ m, n = m + 1 ∧
      (Walk a m s { t with state := again } r u ∨ Walk a m s { t with state := out } r u) := by
  cases h with
  | here => exact absurd rfl hu
  | silent h rest =>
    refine ⟨_, rfl, ?_⟩
    cases e <;> simp [Automaton.silent, ha, Pattern.branch] at h <;> rcases h with rfl | rfl <;>
      simp [rest]
  | read _ h _ => cases e <;> simp [advance?, ha, Pattern.branch] at h

theorem of_check {anchor : Anchor} {next : Nat} (ha : a[t.state]? = some (.check anchor next))
    (h : Walk a n s t r u) (hu : u.state ≠ t.state) :
    ∃ m, n = m + 1 ∧ anchor.holds s ∧ Walk a m s { t with state := next } r u := by
  cases h with
  | here => exact absurd rfl hu
  | silent h rest =>
    simp only [Automaton.silent, ha] at h
    split at h
    · rename_i hs
      exact ⟨_, rfl, hs, List.mem_singleton.1 h ▸ rest⟩
    · cases h
  | read _ h _ => simp [advance?, ha] at h

theorem of_enter {next : Nat} (ha : a[t.state]? = some (.enter next)) (h : Walk a n s t r u)
    (hu : u.state ≠ t.state) :
    ∃ m, n = m + 1 ∧ Walk a m s { t with state := next, openings := s :: t.openings } r u := by
  cases h with
  | here => exact absurd rfl hu
  | silent h rest =>
    simp only [Automaton.silent, ha, List.mem_singleton] at h
    exact ⟨_, rfl, h ▸ rest⟩
  | read _ h _ => simp [advance?, ha] at h

theorem of_leave {name : ν} {next : Nat} (ha : a[t.state]? = some (.leave name next))
    (h : Walk a n s t r u) (hu : u.state ≠ t.state) :
    ∃ m, n = m + 1 ∧ Walk a m s { t.leave name s with state := next } r u := by
  cases h with
  | here => exact absurd rfl hu
  | silent h rest =>
    simp only [Automaton.silent, ha, List.mem_singleton] at h
    exact ⟨_, rfl, h ▸ rest⟩
  | read _ h _ => simp [advance?, ha] at h

theorem of_read {set : CharSet} {next : Nat} (ha : a[t.state]? = some (.read set next))
    (h : Walk a n s t r u) (hu : u.state ≠ t.state) :
    ∃ m c after, n = m + 1 ∧ s.after = c :: after ∧ set.contains c ∧
      Walk a m (s.past c after) { t with state := next } r u := by
  cases h with
  | here => exact absurd rfl hu
  | silent h _ => simp [Automaton.silent, ha] at h
  | read hs h rest =>
    simp only [advance?, ha] at h
    split at h
    · rename_i hc
      exact ⟨_, _, _, rfl, hs, hc, Option.some.inj h ▸ rest⟩
    · cases h

theorem of_accept (ha : a[t.state]? = some .accept) (h : Walk a n s t r u) : r = s ∧ u = t := by
  cases h with
  | here => exact ⟨rfl, rfl⟩
  | silent h _ => simp [Automaton.silent, ha] at h
  | read _ h _ => simp [advance?, ha] at h

end Walk

/-! ## Code in its place -/

/-- The states from `base` on are those of the code. -/
def Holds (a : Automaton ν) (base : Nat) (code : List (State ν)) : Prop :=
  ∀ i st, code[i]? = some st → a[base + i]? = some st

variable {a : Automaton ν} {base : Nat}

theorem holds_append_iff {first second : List (State ν)} :
    a.Holds base (first ++ second) ↔
      a.Holds base first ∧ a.Holds (base + first.length) second := by
  constructor
  · intro h
    refine ⟨fun i st hi => ?_, fun i st hi => ?_⟩
    · refine h i st ?_
      rw [List.getElem?_append_left (List.getElem?_eq_some_iff.1 hi).1, hi]
    · have := h (first.length + i) st (by rw [List.getElem?_append_right (by omega)]; simpa using hi)
      rwa [← Nat.add_assoc] at this
  · intro h i st hi
    obtain ⟨h, h'⟩ := h
    rcases Nat.lt_or_ge i first.length with hlt | hge
    · exact h i st (by rwa [List.getElem?_append_left hlt] at hi)
    · have := h' (i - first.length) st (by rwa [List.getElem?_append_right hge] at hi)
      rwa [Nat.add_assoc, Nat.add_sub_cancel' hge] at this

theorem holds_cons_iff {st : State ν} {code : List (State ν)} :
    a.Holds base (st :: code) ↔ a[base]? = some st ∧ a.Holds (base + 1) code := by
  have hone : a.Holds base [st] ↔ a[base]? = some st := by
    constructor
    · intro h
      exact h 0 st rfl
    · intro h i st' hi
      cases i with
      | zero => rw [Nat.add_zero, h]; exact hi
      | succ i => simp at hi
  rw [← List.singleton_append, holds_append_iff, hone]
  rfl

/-! ## A walk through code reads the pattern -/

/-- The thread at the state `next` after it has captured `cs` more. -/
def Thread.onTo (t : Thread ν) (next : Nat) (cs : List (Capture ν)) : Thread ν :=
  { t with state := next, captures := cs ++ t.captures }

@[simp]
theorem Thread.onTo_nil (t : Thread ν) (next : Nat) :
    t.onTo next [] = { t with state := next } := rfl

@[simp]
theorem Thread.onTo_state (t : Thread ν) (m n : Nat) (u : List (Capture ν)) :
    ({ t with state := m } : Thread ν).onTo n u = t.onTo n u := rfl

@[simp]
theorem Thread.onTo_onTo (t : Thread ν) (m n : Nat) (u v : List (Capture ν)) :
    (t.onTo m u).onTo n v = t.onTo n (v ++ u) := by
  simp [onTo]

/-- The walk reads `p` up to some spot and goes on at `next` with fewer than `n` steps left. -/
def ReadsThen (a : Automaton ν) (p : Pattern ν) (next : Nat) (n : Nat) (s : Spot) (t : Thread ν)
    (r : Spot) (u : Thread ν) : Prop :=
  ∃ m < n, ∃ q cs, p.Reads s q cs ∧ Walk a m q (t.onTo next cs) r u

open Pattern

variable {next n : Nat} {s r : Spot} {t u : Thread ν}

theorem reads_of_walk_text (chars : List Char) (ha : a.Holds base (textCode chars base next))
    (h : Walk a n s t r u) (ht : t.state = base)
    (hu : u.state < base ∨ base + (chars.length + 1) ≤ u.state) :
    ReadsThen a (.text chars) next n s t r u := by
  induction chars generalizing base n s t with
  | nil =>
    subst ht
    have hst := (holds_cons_iff.1 ha).1
    obtain ⟨m, rfl, hw⟩ := h.of_goTo hst (by simp at hu; omega)
    exact ⟨m, Nat.lt_succ_self m, s, [], .nothing, hw⟩
  | cons c cs ih =>
    subst ht
    obtain ⟨hst, hrest⟩ := holds_cons_iff.1 ha
    simp only [List.length_cons] at hu
    obtain ⟨m, d, after, rfl, hs, hd, hw⟩ := h.of_read hst (by omega)
    rw [CharSet.contains_single, decide_eq_true_eq] at hd
    subst hd
    obtain ⟨k, hk, q, us, hr, hw⟩ := ih hrest hw rfl (by omega)
    obtain rfl : us = [] := by cases hr <;> rfl
    exact ⟨k, by omega, q, [], .char hs hr, hw⟩

/-- A loop: at `fork` another round of `p`, whose code stands at `body`, or the way out. -/
structure Loop (a : Automaton ν) (p : Pattern ν) (eager : Bool) (fork body next : Nat) : Prop where
  fork_eq : a[fork]? = some (branch eager body next)
  body_holds : a.Holds body (p.code body fork)

/-- What entering and leaving the code of a pattern has to do with reading it. -/
def Faithful (a : Automaton ν) (p : Pattern ν) : Prop :=
  ∀ {base next n : Nat} {s r : Spot} {t u : Thread ν}, a.Holds base (p.code base next) →
    Walk a n s t r u → t.state = base → u.state < base ∨ base + p.stateCount ≤ u.state →
    ReadsThen a p next n s t r u

theorem Loop.reads_of_walk {p : Pattern ν} {eager : Bool} {fork body : Nat}
    (hl : Loop a p eager fork body next) (ih : Faithful a p) (h : Walk a n s t r u)
    (ht : t.state = fork) (hf : u.state ≠ fork)
    (hu : u.state < body ∨ body + p.stateCount ≤ u.state) :
    ReadsThen a (.repeated .anyNumber eager p) next n s t r u := by
  induction n using Nat.strongRecOn generalizing s t with
  | ind n rounds =>
    obtain ⟨m, rfl, hw | hw⟩ := h.of_branch (ht ▸ hl.fork_eq) (by omega)
    · obtain ⟨k, hk, q, cs, hr, hw⟩ := ih hl.body_holds hw rfl hu
      obtain ⟨k', hk', q', cs', hr', hw⟩ := rounds k (by omega) hw rfl
      refine ⟨k', by omega, q', cs' ++ cs, .again (by decide) hr hr', ?_⟩
      simpa using hw
    · exact ⟨m, Nat.lt_succ_self m, s, [], .stop (by decide), hw⟩

/-- A walk that enters a loop behind its fork has read a round at least. -/
theorem Loop.reads_of_walk_body {p : Pattern ν} {eager : Bool} {fork body : Nat}
    (hl : Loop a p eager fork body next) (ih : Faithful a p) (h : Walk a n s t r u)
    (ht : t.state = body) (hf : u.state ≠ fork)
    (hu : u.state < body ∨ body + p.stateCount ≤ u.state) :
    ReadsThen a (.repeated .atLeastOne eager p) next n s t r u := by
  obtain ⟨m, hm, s', cs, hr, hw⟩ := ih hl.body_holds h ht hu
  obtain ⟨k, hk, q, cs', hr', hw⟩ := hl.reads_of_walk ih hw rfl hf hu
  refine ⟨k, by omega, q, cs' ++ cs, reads_atLeastOne_iff.2 ⟨s', cs, cs', hr, hr', rfl⟩, ?_⟩
  simpa using hw

/-- Rounds of a faithful pattern. -/
theorem Faithful.repeated {p : Pattern ν} (ih : Faithful a p) (rounds : Rounds) (eager : Bool) :
    Faithful a (.repeated rounds eager p) := by
  intro pc next n s r t u ha h hpc hu
  subst hpc
  cases rounds with
  | atMostOne =>
    simp only [stateCount] at hu
    obtain ⟨hst, hp⟩ := holds_cons_iff.1 ha
    obtain ⟨m, rfl, hw | hw⟩ := h.of_branch hst (by omega)
    · obtain ⟨k, hk, q, cs, hr, hw⟩ := ih hp hw rfl (by omega)
      exact ⟨k, by omega, q, cs, .once hr, hw⟩
    · exact ⟨m, Nat.lt_succ_self m, s, [], .stop (by decide), hw⟩
  | atLeastOne =>
    simp only [stateCount] at hu
    obtain ⟨hp, hst⟩ := holds_append_iff.1 ha
    rw [length_code, holds_cons_iff] at hst
    exact Loop.reads_of_walk_body ⟨hst.1, hp⟩ ih h rfl (by omega) (by omega)
  | anyNumber =>
    obtain ⟨hst, hrest⟩ := holds_cons_iff.1 ha
    simp only [stateCount] at hu
    split at hrest
    · rename_i hp
      rw [if_pos hp] at hu
      exact Loop.reads_of_walk ⟨hst, hrest⟩ ih h rfl (by omega) (by omega)
    · -- a first round on its own, and a loop behind it
      rename_i hp
      rw [if_neg hp] at hu
      obtain ⟨hbody, hfork⟩ := holds_append_iff.1 hrest
      rw [length_code, holds_cons_iff] at hfork
      obtain ⟨m, rfl, hw | hw⟩ := h.of_branch hst (by omega)
      · obtain ⟨k, hk, q, cs, hr, hw⟩ :=
          Loop.reads_of_walk_body ⟨hfork.1, hbody⟩ ih hw rfl (by omega) (by omega)
        exact ⟨k, by omega, q, cs, reads_anyNumber_iff.2 (.inr (reads_atLeastOne_iff.1 hr)), hw⟩
      · exact ⟨m, Nat.lt_succ_self m, s, [], .stop (by decide), hw⟩

/-- A walk that enters the code of a pattern and leaves it has read the pattern. -/
theorem reads_of_walk (p : Pattern ν) : Faithful a p := by
  induction p with
  | text chars => exact fun ha h ht hu => reads_of_walk_text chars ha h ht hu
  | one set =>
    intro pc next n s r t u ha h hpc hu
    subst hpc
    have hst := (holds_cons_iff.1 ha).1
    obtain ⟨m, c, after, rfl, hs, hc, hw⟩ :=
      h.of_read hst (by simp only [stateCount] at hu; omega)
    exact ⟨m, Nat.lt_succ_self m, _, [], .one hs hc, hw⟩
  | place anchor =>
    intro pc next n s r t u ha h hpc hu
    subst hpc
    have hst := (holds_cons_iff.1 ha).1
    obtain ⟨m, rfl, hs, hw⟩ := h.of_check hst (by simp only [stateCount] at hu; omega)
    exact ⟨m, Nat.lt_succ_self m, s, [], .place hs, hw⟩
  | seq p q ihp ihq =>
    intro pc next n s r t u ha h hpc hu
    subst hpc
    simp only [stateCount] at hu
    obtain ⟨hp, hq⟩ := holds_append_iff.1 ha
    rw [length_code] at hq
    obtain ⟨m, hm, s', cs, hr, hw⟩ := ihp hp h rfl (by omega)
    obtain ⟨k, hk, q', cs', hr', hw⟩ := ihq hq hw rfl (by omega)
    refine ⟨k, by omega, q', cs' ++ cs, .seq hr hr', ?_⟩
    simpa using hw
  | alt p q ihp ihq =>
    intro pc next n s r t u ha h hpc hu
    subst hpc
    simp only [stateCount] at hu
    obtain ⟨hst, hcode⟩ := holds_cons_iff.1 ha
    obtain ⟨hp, hq⟩ := holds_append_iff.1 hcode
    rw [length_code] at hq
    obtain ⟨m, rfl, hw | hw⟩ := h.of_branch (e := true) hst (by omega)
    · obtain ⟨k, hk, q', cs, hr, hw⟩ := ihp hp hw rfl (by omega)
      exact ⟨k, by omega, q', cs, .left hr, hw⟩
    · obtain ⟨k, hk, q', cs, hr, hw⟩ := ihq hq hw rfl (by omega)
      exact ⟨k, by omega, q', cs, .right hr, hw⟩
  | repeated rounds eager p ih => exact Faithful.repeated ih rounds eager
  | group name p ih =>
    intro pc next n s r t u ha h hpc hu
    subst hpc
    simp only [stateCount] at hu
    obtain ⟨hst, hrest⟩ := holds_cons_iff.1 ha
    obtain ⟨hp, hend⟩ := holds_append_iff.1 hrest
    rw [length_code, holds_cons_iff] at hend
    obtain ⟨m, rfl, hw⟩ := h.of_enter hst (by omega)
    obtain ⟨k, hk, q, cs, hr, hw⟩ := ih hp hw rfl (by omega)
    obtain ⟨j, rfl, hout⟩ := hw.of_leave hend.1 (by simp only [Thread.onTo]; omega)
    exact ⟨j, by omega, q, _, .group hr, hout⟩

/-! ## What a pattern reads can be walked -/

theorem Walk.branch {e : Bool} {again out : Nat}
    (ha : a[t.state]? = some (branch e again out))
    (h : Walk a n s { t with state := again } r u ∨ Walk a n s { t with state := out } r u) :
    Walk a (n + 1) s t r u := by
  rcases h with h | h
  · refine .silent ?_ h
    cases e <;> simp [Automaton.silent, ha, Pattern.branch]
  · refine .silent ?_ h
    cases e <;> simp [Automaton.silent, ha, Pattern.branch]

/-- Threads can take the code of the pattern in every way in which it reads. -/
def Complete (a : Automaton ν) (p : Pattern ν) : Prop :=
  ∀ {base next : Nat} {s r : Spot} {cs : List (Capture ν)} {t : Thread ν},
    a.Holds base (p.code base next) → p.Reads s r cs → t.state = base →
    ∃ n, Walk a n s t r (t.onTo next cs)

theorem walk_of_reads_text (chars : List Char) {cs : List (Capture ν)}
    (ha : a.Holds base (textCode chars base next)) (h : (text chars).Reads s r cs)
    (ht : t.state = base) : ∃ n, Walk a n s t r (t.onTo next cs) := by
  induction chars generalizing base s t cs with
  | nil =>
    subst ht
    have hst := (holds_cons_iff.1 ha).1
    cases h
    exact ⟨1, .silent (by simp [Automaton.silent, hst]) .here⟩
  | cons c chars ih =>
    subst ht
    obtain ⟨hst, hrest⟩ := holds_cons_iff.1 ha
    cases h with
    | char hs h =>
      obtain ⟨n, hw⟩ := ih (t := { t with state := t.state + 1 }) hrest h rfl
      exact ⟨n + 1, .read hs (by simp [advance?, hst, CharSet.contains_single]) hw⟩

theorem Loop.walk_of_reads {p : Pattern ν} {eager : Bool} {fork body : Nat}
    {cs : List (Capture ν)} (hl : Loop a p eager fork body next) (ih : Complete a p)
    (h : (repeated .anyNumber eager p).Reads s r cs) (ht : t.state = fork) :
    ∃ n, Walk a n s t r (t.onTo next cs) := by
  generalize hq : repeated .anyNumber eager p = q at h
  induction h generalizing t with
  | stop _ =>
    cases hq
    exact ⟨1, .branch (ht ▸ hl.fork_eq) (.inr .here)⟩
  | once h _ =>
    cases hq
    obtain ⟨n, hw⟩ := ih (t := { t with state := body }) hl.body_holds h rfl
    obtain ⟨k, hw⟩ := hw.trans (.branch (t := t.onTo fork _) hl.fork_eq (.inr .here))
    exact ⟨k + 1, .branch (ht ▸ hl.fork_eq) (.inl hw)⟩
  | again _ h _ _ rounds =>
    cases hq
    obtain ⟨n, hw⟩ := ih (t := { t with state := body }) hl.body_holds h rfl
    obtain ⟨m, hw'⟩ := rounds (t := t.onTo fork _) rfl rfl
    obtain ⟨k, hw⟩ := hw.trans hw'
    refine ⟨k + 1, .branch (ht ▸ hl.fork_eq) (.inl ?_)⟩
    simpa using hw
  | _ => cases hq

theorem Loop.walk_of_reads_body {p : Pattern ν} {eager : Bool} {fork body : Nat}
    {cs : List (Capture ν)} (hl : Loop a p eager fork body next) (ih : Complete a p)
    (h : (repeated .atLeastOne eager p).Reads s r cs) (ht : t.state = body) :
    ∃ n, Walk a n s t r (t.onTo next cs) := by
  obtain ⟨q, u, v, hround, hmore, rfl⟩ := reads_atLeastOne_iff.1 h
  obtain ⟨n, hw⟩ := ih hl.body_holds hround ht
  obtain ⟨m, hw'⟩ := hl.walk_of_reads (t := t.onTo fork u) ih hmore rfl
  obtain ⟨k, hw⟩ := hw.trans hw'
  exact ⟨k, by simpa using hw⟩

/-- Rounds of a complete pattern. -/
theorem Complete.repeated {p : Pattern ν} (ih : Complete a p) (rounds : Rounds) (eager : Bool) :
    Complete a (.repeated rounds eager p) := by
  intro pc next s r cs t ha h hpc
  subst hpc
  cases rounds with
  | atMostOne =>
    obtain ⟨hst, hp⟩ := holds_cons_iff.1 ha
    rcases reads_atMostOne_iff.1 h with ⟨rfl, rfl⟩ | h
    · exact ⟨1, .branch hst (.inr .here)⟩
    · obtain ⟨n, hw⟩ := ih (t := { t with state := t.state + 1 }) hp h rfl
      exact ⟨n + 1, .branch hst (.inl hw)⟩
  | atLeastOne =>
    obtain ⟨hp, hst⟩ := holds_append_iff.1 ha
    rw [length_code, holds_cons_iff] at hst
    exact Loop.walk_of_reads_body ⟨hst.1, hp⟩ ih h rfl
  | anyNumber =>
    obtain ⟨hst, hrest⟩ := holds_cons_iff.1 ha
    split at hrest
    · exact Loop.walk_of_reads ⟨hst, hrest⟩ ih h rfl
    · obtain ⟨hbody, hfork⟩ := holds_append_iff.1 hrest
      rw [length_code, holds_cons_iff] at hfork
      rcases reads_anyNumber_iff.1 h with ⟨rfl, rfl⟩ | h
      · exact ⟨1, .branch hst (.inr .here)⟩
      · obtain ⟨n, hw⟩ := Loop.walk_of_reads_body (t := { t with state := t.state + 1 })
          ⟨hfork.1, hbody⟩ ih (reads_atLeastOne_iff.2 h) rfl
        exact ⟨n + 1, .branch hst (.inl hw)⟩

/-- What a pattern reads, a thread can walk. -/
theorem walk_of_reads (p : Pattern ν) : Complete a p := by
  induction p with
  | text chars => exact fun ha h ht => walk_of_reads_text chars ha h ht
  | one set =>
    intro pc next s r cs t ha h hpc
    subst hpc
    have hst := (holds_cons_iff.1 ha).1
    cases h with
    | one hs hc => exact ⟨1, .read hs (by simp [advance?, hst, hc]) .here⟩
  | place anchor =>
    intro pc next s r cs t ha h hpc
    subst hpc
    have hst := (holds_cons_iff.1 ha).1
    cases h with
    | place hs => exact ⟨1, .silent (by simp [Automaton.silent, hst, hs]) .here⟩
  | seq p q ihp ihq =>
    intro pc next s r cs t ha h hpc
    subst hpc
    obtain ⟨hp, hq⟩ := holds_append_iff.1 ha
    rw [length_code] at hq
    cases h with
    | seq h h' =>
      obtain ⟨n, hw⟩ := ihp hp h rfl
      obtain ⟨m, hw'⟩ := ihq (t := t.onTo _ _) hq h' rfl
      obtain ⟨k, hw⟩ := hw.trans hw'
      exact ⟨k, by simpa using hw⟩
  | alt p q ihp ihq =>
    intro pc next s r cs t ha h hpc
    subst hpc
    obtain ⟨hst, hcode⟩ := holds_cons_iff.1 ha
    obtain ⟨hp, hq⟩ := holds_append_iff.1 hcode
    rw [length_code] at hq
    cases h with
    | left h =>
      obtain ⟨n, hw⟩ := ihp (t := { t with state := t.state + 1 }) hp h rfl
      exact ⟨n + 1, .branch (e := true) hst (.inl hw)⟩
    | right h =>
      obtain ⟨n, hw⟩ := ihq (t := { t with state := t.state + 1 + p.stateCount }) hq h rfl
      exact ⟨n + 1, .branch (e := true) hst (.inr hw)⟩
  | repeated rounds eager p ih => exact Complete.repeated ih rounds eager
  | group name p ih =>
    intro pc next s r cs t ha h hpc
    subst hpc
    obtain ⟨hst, hrest⟩ := holds_cons_iff.1 ha
    obtain ⟨hp, hend⟩ := holds_append_iff.1 hrest
    rw [length_code, holds_cons_iff] at hend
    cases h with
    | group h =>
      rename_i us
      obtain ⟨n, hw⟩ := ih (t := { t with state := t.state + 1, openings := s :: t.openings }) hp h rfl
      have hleave : t.onTo next (⟨name, s.after, r.before - s.before⟩ :: us) ∈
          a.silent r (Thread.onTo { t with openings := s :: t.openings }
            (t.state + 1 + p.stateCount) us) := by
        simp only [Automaton.silent, Thread.onTo, hend.1, List.mem_singleton]
        rfl
      obtain ⟨k, hw⟩ := hw.trans (.silent hleave .here)
      exact ⟨k + 1, .silent (by simp [Automaton.silent, hst]) hw⟩

end Automaton

end ErrorHints

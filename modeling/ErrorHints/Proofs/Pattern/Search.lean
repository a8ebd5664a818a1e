import ErrorHints.Proofs.Pattern.Walk
import Mathlib.Data.List.TakeWhile

/-!
# What the search finds

The search takes many threads through a text at once and enters a state once between two
characters. So of several ways to a state it keeps one. It loses no state that a single
thread could reach, and what it captures a single thread captures too.

Results:
* `walk_of_mem_settle`, `settle_closed`: settling reaches just the states that can be reached.
* `reads_of_captures?`: what is found has been read.
* `isSome_captures?`: what can be read from the first spot on is found.
-/
namespace ErrorHints

namespace Automaton

variable {ν : Type} {a : Automaton ν}

/-! ## Settled threads have walked -/

theorem walk_of_mem_settle {here : Spot} {fuel : Nat} {entered : Array Bool}
    {work : List (Thread ν)} {t : Thread ν} (h : t ∈ a.settle here fuel entered work) :
    ∃ u ∈ work, ∃ n, Walk a n here u here t := by
  fun_induction settle a here fuel entered work with
  | case1 => cases h
  | case2 => cases h
  | case3 fuel entered u work _ ih =>
    rcases List.mem_cons.1 h with rfl | h
    · exact ⟨t, List.mem_cons_self, 0, .here⟩
    · obtain ⟨v, hv, n, hw⟩ := ih h
      rcases List.mem_append.1 hv with hv | hv
      · exact ⟨u, List.mem_cons_self, n + 1, .silent hv hw⟩
      · exact ⟨v, List.mem_cons_of_mem _ hv, n, hw⟩
  | case4 _ _ _ _ _ ih =>
    obtain ⟨v, hv, hw⟩ := ih h
    exact ⟨v, List.mem_cons_of_mem _ hv, hw⟩

/-! ## Settling is closed -/

/-- A thread has come to the state, or it was entered before. -/
def Covered (entered : Array Bool) (found : List (Thread ν)) (state : Nat) : Prop :=
  entered[state]? ≠ some false ∨ ∃ t ∈ found, t.state = state

theorem Covered.cons {entered : Array Bool} {found : List (Thread ν)} {t : Thread ν} {q : Nat}
    (h : Covered (entered.setIfInBounds t.state true) found q) : Covered entered (t :: found) q := by
  by_cases hq : t.state = q
  · exact .inr ⟨t, List.mem_cons_self, hq⟩
  rcases h with h | ⟨u, hu, hs⟩
  · rw [Array.getElem?_setIfInBounds_ne hq] at h
    exact .inl h
  · exact .inr ⟨u, List.mem_cons_of_mem _ hu, hs⟩

theorem length_silent_le (a : Automaton ν) (here : Spot) (t : Thread ν) :
    (a.silent here t).length ≤ 2 := by
  unfold silent
  split
  any_goals simp
  split <;> simp

theorem count_setIfInBounds {entered : Array Bool} {q : Nat} (h : entered[q]? = some false) :
    (entered.setIfInBounds q true).count false + 1 = entered.count false := by
  obtain ⟨hq, he⟩ := Array.getElem?_eq_some_iff.1 h
  have hpos : 0 < entered.count false := Array.count_pos_iff.2 (he ▸ Array.getElem_mem hq)
  rw [Array.setIfInBounds_def, dif_pos hq, Array.count_set]
  simp [he]
  omega

/-- What is entered is what stands in `work` and what follows without reading. -/
theorem settle_closed {here : Spot} {fuel : Nat} {entered : Array Bool} {work : List (Thread ν)}
    (hf : work.length + 2 * entered.count false < fuel) :
    (∀ t ∈ work, Covered entered (a.settle here fuel entered work) t.state) ∧
      ∀ t ∈ a.settle here fuel entered work, ∀ u ∈ a.silent here t,
        Covered entered (a.settle here fuel entered work) u.state := by
  fun_induction settle a here fuel entered work with
  | case1 => omega
  | case2 => simp
  | case3 fuel entered t work h ih =>
    have hc := count_setIfInBounds h
    have hl := length_silent_le a here t
    obtain ⟨hwork, hfound⟩ := ih (by simp only [List.length_append, List.length_cons] at *; omega)
    refine ⟨fun u hu => ?_, fun u hu v hv => ?_⟩
    · rcases List.mem_cons.1 hu with rfl | hu
      · exact .inr ⟨u, List.mem_cons_self, rfl⟩
      · exact (hwork u (List.mem_append_right _ hu)).cons
    · rcases List.mem_cons.1 hu with rfl | hu
      · exact (hwork v (List.mem_append_left _ hv)).cons
      · exact (hfound u hu v hv).cons
  | case4 fuel entered t work h ih =>
    obtain ⟨hwork, hfound⟩ := ih (by simp only [List.length_cons] at hf; omega)
    refine ⟨fun u hu => ?_, hfound⟩
    rcases List.mem_cons.1 hu with rfl | hu
    · exact .inl h
    · exact hwork u hu

/-- The threads at a spot once they are settled. -/
def settled (a : Automaton ν) (here : Spot) (work : List (Thread ν)) : List (Thread ν) :=
  a.settle here (work.length + 2 * a.size + 1) (.replicate a.size false) work

theorem covered_iff {found : List (Thread ν)} {q : Nat} (hq : q < a.size) :
    Covered (.replicate a.size false) found q ↔ ∃ t ∈ found, t.state = q := by
  simp [Covered, hq]

theorem settled_closed (a : Automaton ν) (here : Spot) (work : List (Thread ν)) :
    (∀ t ∈ work, Covered (.replicate a.size false) (a.settled here work) t.state) ∧
      ∀ t ∈ a.settled here work, ∀ u ∈ a.silent here t,
        Covered (.replicate a.size false) (a.settled here work) u.state :=
  settle_closed (by rw [Array.count_replicate_self]; omega)

/-! ## Threads at one state go on alike -/

theorem exists_silent {here : Spot} {t u v : Thread ν} (hs : u.state = t.state)
    (h : v ∈ a.silent here t) : ∃ w ∈ a.silent here u, w.state = v.state := by
  unfold silent at *
  rw [hs]
  split at h
  · simp_all
  · simp only [List.mem_cons, List.not_mem_nil, or_false] at h
    rcases h with rfl | rfl <;> simp_all
  · split at h <;> simp_all
  · simp_all
  · simp_all
  all_goals cases h

theorem exists_advance {c : Char} {t u v : Thread ν} (hs : u.state = t.state)
    (h : a.advance? c t = some v) : ∃ w, a.advance? c u = some w ∧ w.state = v.state := by
  unfold advance? at *
  rw [hs]
  split at h
  · split at h
    · simp_all [← Option.some.inj h]
    · cases h
  · cases h

theorem accepts_of_state {t u : Thread ν} (hs : u.state = t.state) (h : a.accepts t) :
    a.accepts u := by
  unfold accepts at *
  rwa [hs]

/-! ## What is captured has been walked -/

/-- A thread that has come from the start state. -/
def Started (a : Automaton ν) (text : List Char) (here : Spot) (t : Thread ν) : Prop :=
  ∃ s n, s.In text ∧ Walk a n s .fresh here t

/-- What a thread captured that has come to its end. -/
def Found (a : Automaton ν) (text : List Char) (cs : List (Capture ν)) : Prop :=
  ∃ here t, a.Started text here t ∧ a.accepts t ∧ t.captures = cs

theorem Started.walk {text : List Char} {here : Spot} {t u : Thread ν} {n : Nat}
    (h : a.Started text here t) (hw : Walk a n here t here u) : a.Started text here u := by
  obtain ⟨s, m, hs, hw'⟩ := h
  obtain ⟨k, hk⟩ := hw'.trans hw
  exact ⟨s, k, hs, hk⟩

theorem started_step {text : List Char} {here : Spot} (hh : here.In text)
    {best : Option (List (Capture ν))} {live : List (Thread ν)}
    (hb : ∀ cs, best = some cs → a.Found text cs) (hl : ∀ t ∈ live, a.Started text here t) :
    (∀ cs, (a.step best live here).1 = some cs → a.Found text cs) ∧
      ∀ t ∈ (a.step best live here).2, a.Started text here t := by
  have hwork : ∀ t ∈ (if best.isNone then live ++ [.fresh] else live), a.Started text here t := by
    intro t ht
    split at ht
    · rcases List.mem_append.1 ht with ht | ht
      · exact hl t ht
      · exact ⟨here, 0, hh, List.mem_singleton.1 ht ▸ .here⟩
    · exact hl t ht
  have hsettle : ∀ {fuel entered t}, t ∈ a.settle here fuel entered
      (if best.isNone then live ++ [.fresh] else live) → a.Started text here t := by
    intro fuel entered t ht
    obtain ⟨u, hu, n, hw⟩ := walk_of_mem_settle ht
    exact (hwork u hu).walk hw
  refine ⟨fun cs hcs => ?_, fun t ht => hsettle (List.takeWhile_subset _ ht)⟩
  simp only [step, Option.or_eq_some_iff, Option.map_eq_some_iff] at hcs
  rcases hcs with ⟨t, ht, rfl⟩ | ⟨_, hcs⟩
  · exact ⟨here, t, hsettle (List.mem_of_find?_eq_some ht), List.find?_some ht, rfl⟩
  · exact hb cs hcs

theorem found_run {text rest : List Char} {before : Nat} {last : Option Char}
    (hh : Spot.In text ⟨before, last, rest⟩) {best : Option (List (Capture ν))}
    {live : List (Thread ν)} (hb : ∀ cs, best = some cs → a.Found text cs)
    (hl : ∀ t ∈ live, a.Started text ⟨before, last, rest⟩ t) {cs : List (Capture ν)}
    (h : a.run best live before last rest = some cs) : a.Found text cs := by
  induction rest generalizing best live before last with
  | nil => exact (started_step hh hb hl).1 cs h
  | cons c rest ih =>
    obtain ⟨hb', hl'⟩ := started_step hh hb hl
    refine ih (hh.past rfl) hb' (fun t ht => ?_) h
    obtain ⟨u, hu, hadv⟩ := List.mem_filterMap.1 ht
    obtain ⟨s, n, hs, hw⟩ := hl' u hu
    obtain ⟨k, hk⟩ := hw.trans (.read rfl hadv .here)
    exact ⟨s, k, hs, hk⟩

/-! ## What can be walked is found -/

/-- A walk that ends at the last state is inside the automaton all the time. -/
theorem state_lt {n : Nat} {s r : Spot} {t u : Thread ν} (h : Walk a n s t r u)
    (hu : a.accepts u) : t.state < a.size := by
  have hsome : ∀ {v : Thread ν}, a[v.state]? ≠ none → v.state < a.size := by
    intro v hv
    rcases Nat.lt_or_ge v.state a.size with hlt | hge
    · exact hlt
    · exact absurd (Array.getElem?_eq_none hge) hv
  cases h with
  | here => exact hsome fun hn => by simp [accepts, hn] at hu
  | silent hm _ => exact hsome fun hn => by simp [silent, hn] at hm
  | read _ hm _ => exact hsome fun hn => by simp [advance?, hn] at hm

theorem isSome_step_of_best (live : List (Thread ν)) (here : Spot)
    {best : Option (List (Capture ν))} (h : best.isSome) : (a.step best live here).1.isSome := by
  simp [step, h]

theorem isSome_run_of_best {best : Option (List (Capture ν))} (live : List (Thread ν))
    (before : Nat) (last : Option Char) (rest : List Char) (h : best.isSome) :
    (a.run best live before last rest).isSome := by
  induction rest generalizing best live before last with
  | nil => exact isSome_step_of_best live _ h
  | cons c rest ih => exact ih _ _ _ (isSome_step_of_best live _ h)

/-- The run goes on with the settled threads. -/
theorem isSome_run_of_accepts {live : List (Thread ν)} {s : Spot}
    (h : (a.settled s (live ++ [.fresh])).any a.accepts) :
    (a.run none live s.before s.last s.after).isSome := by
  have hstep : (a.step none live s).1.isSome := by
    simpa [step, settled] using h
  obtain ⟨before, last, rest⟩ := s
  cases rest with
  | nil => exact hstep
  | cons c rest => exact isSome_run_of_best _ (before + 1) (some c) rest hstep

theorem run_of_not_accepts {live : List (Thread ν)} {s : Spot} {c : Char} {rest : List Char}
    (hs : s.after = c :: rest) (h : ¬ (a.settled s (live ++ [.fresh])).any a.accepts) :
    a.run none live s.before s.last s.after =
      a.run none ((a.settled s (live ++ [.fresh])).filterMap (a.advance? c)) (s.before + 1)
        (some c) rest := by
  have hno : ∀ t ∈ a.settled s (live ++ [.fresh]), a.accepts t = false := by simpa using h
  obtain ⟨before, last, after⟩ := s
  simp only at hs
  subst hs
  have hstep : a.step none live ⟨before, last, c :: rest⟩ =
      (none, a.settled ⟨before, last, c :: rest⟩ (live ++ [.fresh])) := by
    simp only [step, Option.isNone_none, if_true, Option.or_none]
    change ((List.find? a.accepts (a.settled _ _)).map _, List.takeWhile _ (a.settled _ _)) = _
    rw [List.find?_eq_none.2 (by simpa using hno), List.takeWhile_eq_self_iff.2 (by simpa using hno)]
    rfl
  rw [run, hstep]

/-- A walk to the end from a state where a settled thread stands makes the run succeed. -/
theorem isSome_run_of_walk {n : Nat} {s r : Spot} {t u : Thread ν} (h : Walk a n s t r u)
    (hu : a.accepts u) {live : List (Thread ν)}
    (ht : ∃ v ∈ a.settled s (live ++ [.fresh]), v.state = t.state) :
    (a.run none live s.before s.last s.after).isSome := by
  induction h generalizing live with
  | here =>
    obtain ⟨v, hv, hs⟩ := ht
    exact isSome_run_of_accepts (List.any_eq_true.2 ⟨v, hv, accepts_of_state hs hu⟩)
  | @silent n s r t t' u hm hrest ih =>
    obtain ⟨v, hv, hs⟩ := ht
    obtain ⟨w, hw, hws⟩ := exists_silent hs hm
    refine ih hu ?_
    have := (settled_closed a s (live ++ [.fresh])).2 v hv w hw
    rwa [hws, covered_iff (state_lt hrest hu)] at this
  | @read n s r t t' u c after hs hm hrest ih =>
    by_cases hacc : (a.settled s (live ++ [.fresh])).any a.accepts
    · exact isSome_run_of_accepts hacc
    obtain ⟨v, hv, hvs⟩ := ht
    obtain ⟨w, hw, hws⟩ := exists_advance hvs hm
    rw [run_of_not_accepts hs hacc]
    refine ih hu ?_
    have := (settled_closed a (s.past c after)
      ((a.settled s (live ++ [.fresh])).filterMap (a.advance? c) ++ [.fresh])).1 w
        (List.mem_append_left _ (List.mem_filterMap.2 ⟨v, hv, hw⟩))
    rwa [hws, covered_iff (state_lt hrest hu)] at this

end Automaton

/-! ## What is found is what is read -/

namespace Pattern

open Automaton

variable {ν : Type}

theorem accept_notMem_textCode (chars : List Char) (base next : Nat) :
    State.accept ∉ textCode (ν := ν) chars base next := by
  induction chars generalizing base with
  | nil => simp [textCode]
  | cons c cs ih => simp [textCode, ih]

theorem branch_ne_accept (eager : Bool) (again out : Nat) :
    branch (ν := ν) eager again out ≠ .accept := by
  cases eager <;> simp [branch]

/-- Only the state behind the code of a whole pattern is its end. -/
theorem accept_notMem_code (p : Pattern ν) (base next : Nat) : State.accept ∉ p.code base next := by
  induction p generalizing base next with
  | text chars => exact accept_notMem_textCode chars base next
  | one _ | place _ => simp [code]
  | seq p q ihp ihq => simp [code, ihp, ihq]
  | alt p q ihp ihq => simp [code, ihp, ihq]
  | repeated rounds eager p ih =>
    have hb := fun again out => (branch_ne_accept (ν := ν) eager again out).symm
    cases rounds with
    | atMostOne | atLeastOne => simp [code, ih, hb]
    | anyNumber => simp only [code]; split <;> simp [ih, hb]
  | group _ p ih => simp [code, ih]

theorem holds_automaton (p : Pattern ν) :
    p.automaton.Holds 0 (p.code 0 p.stateCount) ∧
      p.automaton[p.stateCount]? = some .accept := by
  have h : p.automaton.Holds 0 (p.code 0 p.stateCount ++ [.accept]) := by
    intro i st hi
    simpa [automaton] using hi
  rw [holds_append_iff, length_code, holds_cons_iff, Nat.zero_add] at h
  exact ⟨h.1, h.2.1⟩

theorem stateCount_of_accepts {p : Pattern ν} {t : Thread ν} (h : p.automaton.accepts t) :
    t.state = p.stateCount := by
  have ha : p.automaton[t.state]? = some .accept := by
    unfold Automaton.accepts at h
    split at h
    · assumption
    · cases h
  rw [automaton, List.getElem?_toArray] at ha
  rcases Nat.lt_trichotomy t.state p.stateCount with hlt | heq | hgt
  · rw [List.getElem?_append_left (by rwa [length_code])] at ha
    exact absurd (List.mem_of_getElem? ha) (accept_notMem_code p _ _)
  · exact heq
  · rw [List.getElem?_eq_none (by rw [List.length_append, length_code]; exact hgt)] at ha
    cases ha

/-- What is found has been read. -/
theorem reads_of_captures? {p : Pattern ν} {text : List Char} {cs : List (Capture ν)}
    (h : p.captures? text = some cs) : ∃ s t, s.In text ∧ t.In text ∧ p.Reads s t cs := by
  obtain ⟨here, t, ⟨s, n, hs, hw⟩, hacc, rfl⟩ :=
    found_run (Spot.first_in text) (by simp) (by simp) h
  have hend := stateCount_of_accepts hacc
  obtain ⟨m, _, q, cs, hr, hw'⟩ := reads_of_walk p (holds_automaton p).1 hw rfl (by omega)
  obtain ⟨rfl, rfl⟩ := hw'.of_accept (holds_automaton p).2
  refine ⟨s, here, hs, hw.in_text hs, ?_⟩
  simpa [Thread.onTo, Thread.fresh] using hr

/-- What can be read from the first spot on is found. -/
theorem isSome_captures? {p : Pattern ν} {text : List Char} {t : Spot} {cs : List (Capture ν)}
    (h : p.Reads (.first text) t cs) : (p.captures? text).isSome := by
  obtain ⟨n, hw⟩ := walk_of_reads p (t := .fresh) (holds_automaton p).1 h rfl
  have hacc : p.automaton.accepts (Thread.fresh.onTo p.stateCount cs) := by
    simp [Automaton.accepts, Thread.onTo, (holds_automaton p).2]
  refine isSome_run_of_walk hw hacc ?_
  have := (settled_closed p.automaton (.first text) ([] ++ [.fresh])).1 .fresh (by simp)
  rwa [covered_iff (state_lt hw hacc)] at this

/-- A text that is found by a pattern for whole texts has been read from its start to its end. -/
theorem reads_of_captures?_whole {p : Pattern ν} {text : List Char} {cs : List (Capture ν)}
    (h : p.whole.captures? text = some cs) :
    ∃ t, p.Reads (.first text) t cs ∧ t.after = [] := by
  obtain ⟨s, t, hs, _, hr⟩ := reads_of_captures? h
  obtain ⟨hr, hb, ht⟩ := reads_whole_iff.1 hr
  exact ⟨t, hs.eq_first hb ▸ hr, ht⟩

end Pattern

end ErrorHints

import ErrorHints.Similarity.Block

/-!
# The block that the search finds

The pairs of places at which two sequences agree are hits, and a common block is a diagonal
run of hits. Of all runs in a window the search finds the longest, and of several longest
ones the first. The row that has been scanned last is enough for this: it holds for each
place the longest run that ends there, so a run that goes on is known whole when it ends.

Results:
* `scanRow_spec`, `searchRows_spec`: what scanning a row and walking the rows preserve.
* `isFirstLongest_longestBlock`: the block found is the first longest one of its window.
* `longestBlock_inside`: it lies inside its window.
-/
namespace ErrorHints.Similarity

/-! ## Runs of hits -/

/-- All pairs of places of the block are hits. -/
def Block.Common (hit : Nat → Nat → Prop) (m : Block) : Prop :=
  ∀ t < m.size, hit (m.aStart + t) (m.bStart + t)

/-- The one block is longer than the other, or as long and not later. -/
def Block.Beats (m m' : Block) : Prop :=
  m'.size < m.size ∨
    m'.size = m.size ∧ (m.aStart < m'.aStart ∨ m.aStart = m'.aStart ∧ m.bStart ≤ m'.bStart)

/-- Of all common blocks, the block is the longest, and the first of several. -/
structure Block.IsFirstLongest (hit : Nat → Nat → Prop) (m : Block) : Prop where
  common : m.Common hit
  beats : ∀ m' : Block, m'.Common hit → m'.size ≠ 0 → m.Beats m'

variable {hit : Nat → Nat → Prop} {i j n : Nat} {m m' best : Block}

theorem Block.Common.last (h : m.Common hit) (hs : m.size ≠ 0)
    (hi : m.aStart + m.size = i + 1) (hj : m.bStart + m.size = j + 1) : hit i j := by
  have := h (m.size - 1) (by omega)
  rwa [show m.aStart + (m.size - 1) = i by omega, show m.bStart + (m.size - 1) = j by omega] at this

/-- There is one first longest block, unless there is no common block at all. -/
theorem Block.IsFirstLongest.eq (h : m.IsFirstLongest hit) (h' : m'.IsFirstLongest hit)
    (hs : m.size ≠ 0) : m = m' := by
  have hb' := h'.beats m h.common hs
  have hs' : m'.size ≠ 0 := by unfold Beats at hb'; omega
  have hb := h.beats m' h'.common hs'
  obtain ⟨i, j, n⟩ := m
  obtain ⟨i', j', n'⟩ := m'
  simp only [Beats, Block.mk.injEq] at hb hb' ⊢
  omega

theorem Block.IsFirstLongest.size_eq (h : m.IsFirstLongest hit) (h' : m'.IsFirstLongest hit) :
    m.size = m'.size := by
  by_cases hs : m.size = 0
  · by_cases hs' : m'.size = 0
    · rw [hs, hs']
    · rw [h'.eq h hs']
  · rw [h.eq h' hs]

/-- Among the runs that end before `i` in the first sequence and before `j` in the second,
the longest run has the length `n`. -/
structure LongestRun (hit : Nat → Nat → Prop) (i j n : Nat) : Prop where
  le_fst : n ≤ i
  le_snd : n ≤ j
  common : Block.Common hit ⟨i - n, j - n, n⟩
  max : ∀ m : Block, m.Common hit → m.aStart + m.size = i → m.bStart + m.size = j → m.size ≤ n

theorem longestRun_zero_left (j : Nat) : LongestRun hit 0 j 0 where
  le_fst := Nat.le_refl 0
  le_snd := Nat.zero_le j
  common := fun _ ht => absurd ht (Nat.not_lt_zero _)
  max := fun m _ hi _ => by omega

theorem longestRun_zero_right (i : Nat) : LongestRun hit i 0 0 where
  le_fst := Nat.zero_le i
  le_snd := Nat.le_refl 0
  common := fun _ ht => absurd ht (Nat.not_lt_zero _)
  max := fun m _ _ hj => by omega

theorem longestRun_of_not_hit (h : ¬ hit i j) : LongestRun hit (i + 1) (j + 1) 0 where
  le_fst := Nat.zero_le _
  le_snd := Nat.zero_le _
  common := fun _ ht => absurd ht (Nat.not_lt_zero _)
  max := fun m hm hi hj => by
    by_cases hs : m.size = 0
    · omega
    · exact absurd (hm.last hs hi hj) h

/-- A hit extends the longest run that ends before it. -/
theorem LongestRun.extend (h : LongestRun hit i j n) (hh : hit i j) :
    LongestRun hit (i + 1) (j + 1) (n + 1) where
  le_fst := Nat.succ_le_succ h.le_fst
  le_snd := Nat.succ_le_succ h.le_snd
  common := by
    intro t ht
    have hi := h.le_fst
    have hj := h.le_snd
    simp only [Nat.add_sub_add_right] at ht ⊢
    by_cases htn : t < n
    · exact h.common t htn
    · rwa [show i - n + t = i by omega, show j - n + t = j by omega]
  max := by
    intro m hm hi hj
    by_cases hs : m.size = 0
    · omega
    -- without its last pair it is a run that ends before the hit
    have := h.max ⟨m.aStart, m.bStart, m.size - 1⟩ (fun t ht => hm t (by simp only at ht; omega))
      (by simp only; omega) (by simp only; omega)
    simp only at this
    omega

/-! ## The best block so far -/

/-- The block ends before row `i`, or in row `i` and before place `j`. -/
def Block.EndsBefore (i j : Nat) (m : Block) : Prop :=
  m.aStart + m.size ≤ i ∨ m.aStart + m.size = i + 1 ∧ m.bStart + m.size ≤ j

/-- Of the common blocks that end before row `i`, or in row `i` and before place `j`, the
block is the longest, and the first of several. -/
structure Leads (hit : Nat → Nat → Prop) (i j : Nat) (best : Block) : Prop where
  common : best.Common hit
  seen : best.size ≠ 0 → best.EndsBefore i j
  beats : ∀ m : Block, m.Common hit → m.size ≠ 0 → m.EndsBefore i j → best.Beats m

theorem Leads.skip {k : Nat} (h : Leads hit i j best) (hk : j ≤ k)
    (hno : ∀ l, j ≤ l → l < k → ¬ hit i l) : Leads hit i k best where
  common := h.common
  seen := fun hs => by have := h.seen hs; unfold Block.EndsBefore at *; omega
  beats := by
    intro m hm hs he
    refine h.beats m hm hs ?_
    unfold Block.EndsBefore at *
    rcases he with he | ⟨hi, hj⟩
    · exact .inl he
    · refine .inr ⟨hi, Nat.le_of_not_lt fun hlt => ?_⟩
      exact hno (m.bStart + m.size - 1) (by omega) (by omega) (hm.last hs hi (by omega))

theorem Leads.nextRow (h : Leads hit i j best) (hno : ∀ l, j ≤ l → ¬ hit i l) :
    Leads hit (i + 1) 0 best where
  common := h.common
  seen := fun hs => by have := h.seen hs; unfold Block.EndsBefore at *; omega
  beats := by
    intro m hm hs he
    refine (h.skip (Nat.le_max_left j (m.bStart + m.size)) fun l hl _ => hno l hl).beats m hm hs ?_
    unfold Block.EndsBefore at *
    omega

/-- A longer run replaces the best block, one of the same length comes too late. -/
theorem Leads.take (h : Leads hit i j best) (hr : LongestRun hit (i + 1) (j + 1) n) :
    Leads hit i (j + 1) (if best.size < n then .endingAt i j n else best) := by
  have hi := hr.le_fst
  have hj := hr.le_snd
  -- a run that has not been seen before ends at the hit
  have hnew : ∀ m : Block, m.Common hit → m.EndsBefore i (j + 1) → ¬ m.EndsBefore i j →
      m.size ≤ n ∧ m.aStart + m.size = i + 1 ∧ m.bStart + m.size = j + 1 := by
    intro m hm he hne
    unfold Block.EndsBefore at he hne
    exact ⟨hr.max m hm (by omega) (by omega), by omega, by omega⟩
  split
  · rename_i hlt
    refine ⟨hr.common, fun _ => ?_, fun m hm hs he => ?_⟩
    · simp only [Block.EndsBefore, Block.endingAt]; omega
    · by_cases hold : m.EndsBefore i j
      · have := h.beats m hm hs hold
        simp only [Block.Beats, Block.endingAt] at this ⊢; omega
      · have := hnew m hm he hold
        simp only [Block.Beats, Block.endingAt]; omega
  · rename_i hge
    refine ⟨h.common, fun hs => ?_, fun m hm hs he => ?_⟩
    · have := h.seen hs
      unfold Block.EndsBefore at *; omega
    · by_cases hold : m.EndsBefore i j
      · exact h.beats m hm hs hold
      · have hm' := hnew m hm he hold
        have := h.seen (by omega)
        unfold Block.Beats
        unfold Block.EndsBefore at this
        omega

/-! ## Scanning a row -/

/-- The runs are the longest that end before row `i`, at each place. -/
def Runs.Describe (hit : Nat → Nat → Prop) (i : Nat) (r : Runs) : Prop :=
  ∀ j, LongestRun hit i (j + 1) (r.find j)

theorem Runs.Describe.findBefore {r : Runs} (h : r.Describe hit i) (j : Nat) :
    LongestRun hit i j (r.findBefore j) := by
  cases j with
  | zero => exact longestRun_zero_right i
  | succ j => exact h j

/-- Row `i` has been scanned up to place `j`. -/
structure Scanned (hit : Nat → Nat → Prop) (i j : Nat) (runs : Runs) (best : Block) : Prop where
  known : ∀ k < j, LongestRun hit (i + 1) (k + 1) (runs.find k)
  unknown : ∀ k, j ≤ k → runs.find k = 0
  leads : Leads hit i j best

namespace Scanned

variable {runs : Runs}

theorem skip {k : Nat} (h : Scanned hit i j runs best) (hk : j ≤ k)
    (hno : ∀ l, j ≤ l → l < k → ¬ hit i l) : Scanned hit i k runs best where
  known := by
    intro l hl
    by_cases hlj : l < j
    · exact h.known l hlj
    · rw [h.unknown l (by omega)]
      exact longestRun_of_not_hit (hno l (by omega) hl)
  unknown := fun l hl => h.unknown l (by omega)
  leads := h.leads.skip hk hno

theorem take (h : Scanned hit i j runs best) (hr : LongestRun hit (i + 1) (j + 1) n) :
    Scanned hit i (j + 1) (runs.set j n) (if best.size < n then .endingAt i j n else best) where
  known := by
    intro k hk
    rw [Runs.find_set]
    split
    · rename_i hjk
      rwa [← hjk]
    · exact h.known k (by omega)
  unknown := by
    intro k hk
    rw [Runs.find_set, if_neg (by omega), h.unknown k (by omega)]
  leads := h.leads.take hr

theorem nextRow (h : Scanned hit i j runs best) (hno : ∀ l, j ≤ l → ¬ hit i l) :
    runs.Describe hit (i + 1) ∧ Leads hit (i + 1) 0 best := by
  refine ⟨fun k => ?_, h.leads.nextRow hno⟩
  exact (h.skip (Nat.le_max_left j (k + 1)) fun l hl _ => hno l hl).known k (by omega)

end Scanned

/-- From the runs of one row, scanning makes those of the next, and it keeps the best block. -/
theorem scanRow_spec {w : Window} {above : Runs} (habove : above.Describe hit i) {js : List Nat}
    (hjs : js.Pairwise (· < ·)) {runs : Runs}
    (hhit : ∀ k, j ≤ k → (hit i k ↔ k ∈ js ∧ w.bLo ≤ k ∧ k < w.bHi)) (hfrom : ∀ k ∈ js, j ≤ k)
    (h : Scanned hit i j runs best) :
    (scanRow w i above js runs best).1.Describe hit (i + 1) ∧
      Leads hit (i + 1) 0 (scanRow w i above js runs best).2 := by
  induction js generalizing j runs best with
  | nil => exact h.nextRow fun l hl hh => List.not_mem_nil ((hhit l hl).1 hh).1
  | cons k js ih =>
    obtain ⟨hk, hjs⟩ := List.pairwise_cons.1 hjs
    have hjk := hfrom k List.mem_cons_self
    have hgap : ∀ l, j ≤ l → l < k → ¬ hit i l := by
      intro l hl hlk hh
      rcases List.mem_cons.1 ((hhit l hl).1 hh).1 with rfl | hm
      · exact Nat.lt_irrefl l hlk
      · exact Nat.lt_asymm hlk (hk l hm)
    have hrest : ∀ l, k + 1 ≤ l → (hit i l ↔ l ∈ js ∧ w.bLo ≤ l ∧ l < w.bHi) := by
      intro l hl
      rw [hhit l (by omega), List.mem_cons, or_iff_right (by omega)]
    have hk1 : ∀ l ∈ js, k + 1 ≤ l := hk
    unfold scanRow
    split
    · rename_i hlo
      refine ih hjs hrest hk1 ((h.skip hjk hgap).skip (Nat.le_succ k) fun l hl hlk hh => ?_)
      have := (hhit l (by omega)).1 hh
      omega
    · rename_i hlo
      split
      · rename_i hhi
        refine (h.skip hjk hgap).nextRow fun l hl hh => ?_
        have := (hhit l (by omega)).1 hh
        omega
      · rename_i hhi
        have hh : hit i k := (hhit k hjk).2 ⟨List.mem_cons_self, by omega, by omega⟩
        exact ih hjs hrest hk1 ((h.skip hjk hgap).take ((habove.findBefore k).extend hh))

/-! ## Walking the rows -/

variable {α : Type} {a b : List α} {w : Window}

/-- The elements at `i` and at `j` lie in the window and are equal. -/
def Window.Hits (w : Window) (a b : List α) (i j : Nat) : Prop :=
  (w.aLo ≤ i ∧ i < w.aHi) ∧ (w.bLo ≤ j ∧ j < w.bHi) ∧ ∃ x, a[i]? = some x ∧ b[j]? = some x

theorem getElem?_aPart (w : Window) (a : List α) (k : Nat) :
    (w.aPart a)[k]? = if w.aLo + k < w.aHi then a[w.aLo + k]? else none := by
  rw [Window.aPart, List.getElem?_drop, List.getElem?_take]

theorem getElem?_bPart (w : Window) (b : List α) (k : Nat) :
    (w.bPart b)[k]? = if w.bLo + k < w.bHi then b[w.bLo + k]? else none := by
  rw [Window.bPart, List.getElem?_drop, List.getElem?_take]

variable [DecidableEq α] [Hashable α]

/-- Each row adds the runs that end in it. -/
theorem searchRows_spec (places : Places b) {xs : List α} {above : Runs}
    (hrow : ∀ k j, hit (i + k) j ↔ ∃ x, xs[k]? = some x ∧ b[j]? = some x ∧ w.bLo ≤ j ∧ j < w.bHi)
    (habove : above.Describe hit i) (h : Leads hit i 0 best) :
    Leads hit (i + xs.length) 0 (searchRows places w i xs above best) := by
  induction xs generalizing i above best with
  | nil => exact h
  | cons x xs ih =>
    have hscan : Scanned hit i 0 {} best :=
      ⟨fun k hk => absurd hk (Nat.not_lt_zero k), fun k _ => Runs.find_empty k, h⟩
    have hhit : ∀ k, 0 ≤ k → (hit i k ↔ k ∈ places.find x ∧ w.bLo ≤ k ∧ k < w.bHi) := by
      intro k _
      rw [Places.mem_find_iff]
      simpa using hrow 0 k
    obtain ⟨hruns, hbest⟩ :=
      scanRow_spec habove (places.ascending x) hhit (fun k _ => Nat.zero_le k) hscan
    have hnext : ∀ k j, hit (i + 1 + k) j ↔
        ∃ x, xs[k]? = some x ∧ b[j]? = some x ∧ w.bLo ≤ j ∧ j < w.bHi := by
      intro k j
      rw [Nat.add_right_comm, Nat.add_assoc, hrow (k + 1) j, List.getElem?_cons_succ]
    have hrows : i + (x :: xs).length = i + 1 + xs.length := by rw [List.length_cons]; omega
    rw [hrows]
    exact ih hnext hruns hbest

/-- The block found is the first longest one of its window. -/
theorem isFirstLongest_longestBlock (a : List α) (places : Places b) (w : Window) :
    (longestBlock a places w).IsFirstLongest (w.Hits a b) := by
  have hrow : ∀ k j, w.Hits a b (w.aLo + k) j ↔
      ∃ x, (w.aPart a)[k]? = some x ∧ b[j]? = some x ∧ w.bLo ≤ j ∧ j < w.bHi := by
    intro k j
    rw [getElem?_aPart]
    constructor
    · intro h
      obtain ⟨⟨-, hi⟩, hj, x, ha, hb⟩ := h
      exact ⟨x, by rwa [if_pos hi], hb, hj⟩
    · intro h
      obtain ⟨x, ha, hb, hj⟩ := h
      split at ha
      · rename_i hi
        exact ⟨⟨Nat.le_add_right _ _, hi⟩, hj, x, ha, hb⟩
      · cases ha
  -- nothing is hit before the first row of the window
  have hbefore : ∀ i < w.aLo, ∀ j, ¬ w.Hits a b i j := fun i hi j hh => by
    have := hh.1.1; omega
  have hstart : Runs.Describe (w.Hits a b) w.aLo {} := by
    intro j
    rw [Runs.find_empty]
    match haLo : w.aLo with
    | 0 => exact longestRun_zero_left _
    | i + 1 => exact longestRun_of_not_hit (hbefore i (by omega) j)
  have hnone : ∀ m : Block, m.Common (w.Hits a b) → m.size ≠ 0 → ¬ m.EndsBefore w.aLo 0 := by
    intro m hm hs he
    have := (hm 0 (by omega)).1.1
    unfold Block.EndsBefore at he
    omega
  have hfirst : Leads (w.Hits a b) w.aLo 0 ⟨w.aLo, w.bLo, 0⟩ :=
    ⟨fun t ht => absurd ht (Nat.not_lt_zero t), fun hs => absurd rfl hs,
      fun m hm hs he => absurd he (hnone m hm hs)⟩
  have hleads := searchRows_spec places hrow hstart hfirst
  refine ⟨hleads.common, fun m hm hs => hleads.beats m hm hs (.inl ?_)⟩
  -- the last row of the block is a row of the window
  obtain ⟨⟨hlo, hhi⟩, -, x, hx, -⟩ := hm (m.size - 1) (by omega)
  have hlen := (List.getElem?_eq_some_iff.1 hx).1
  simp only [Window.aPart, List.length_drop, List.length_take]
  omega

/-- A block that is found lies inside its window. -/
theorem longestBlock_inside (a : List α) (places : Places b) (w : Window)
    (h : (longestBlock a places w).size ≠ 0) : (longestBlock a places w).Inside w := by
  have hc := (isFirstLongest_longestBlock a places w).common
  obtain ⟨⟨hi, -⟩, ⟨hj, -⟩, -⟩ := hc 0 (by omega)
  obtain ⟨⟨-, hi'⟩, ⟨-, hj'⟩, -⟩ := hc ((longestBlock a places w).size - 1) (by omega)
  unfold Block.Inside
  omega

end ErrorHints.Similarity

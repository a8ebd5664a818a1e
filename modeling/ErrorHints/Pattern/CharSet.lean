/-!
# Sets of characters

What one place of a pattern accepts. A set is held as the code points at which
membership changes, in ascending order, starting outside: `[97, 123]` are the
small letters of ASCII, `[0, 10, 11]` everything but the line feed. So two sets
with the same characters are equal, however they came about.

Results:
* `contains_union`, `contains_inter`, `contains_diff`, `contains_symmDiff`,
  `contains_compl`: the operations are those of sets.
-/
namespace ErrorHints

structure CharSet where
  /-- Where membership changes. -/
  bounds : List Nat
  ascending : bounds.Pairwise (· < ·)
  deriving DecidableEq, Repr

namespace CharSet

/-! ## Membership -/

/-- Membership of `n`, given the membership before the first of some changes. -/
def insideAfter (inside : Bool) : List Nat → Nat → Bool
  | [], _ => inside
  | b :: bs, n => if n < b then inside else insideAfter (!inside) bs n

def contains (s : CharSet) (c : Char) : Bool := insideAfter false s.bounds c.toNat

theorem insideAfter_of_lt {inside : Bool} {bs : List Nat} {n : Nat} (h : ∀ b ∈ bs, n < b) :
    insideAfter inside bs n = inside := by
  cases bs with
  | nil => rfl
  | cons b bs => simp [insideAfter, h b List.mem_cons_self]

theorem insideAfter_not (inside : Bool) (bs : List Nat) (n : Nat) :
    insideAfter (!inside) bs n = !insideAfter inside bs n := by
  induction bs generalizing inside with
  | nil => rfl
  | cons b bs ih =>
    simp only [insideAfter]
    split
    · rfl
    · exact ih _

/-! ## Two sets side by side -/

/-- Add a change at `b` from `before` to `after`, if it is one. -/
def change (before after : Bool) (b : Nat) (rest : List Nat) : List Nat :=
  if before = after then rest else b :: rest

/-- The changes of a function of one membership. -/
def follow (f : Bool → Bool) (x : Bool) : List Nat → List Nat
  | [] => []
  | b :: bs => change (f x) (f !x) b (follow f (!x) bs)

/-- The changes of a function of two memberships while the first next changes at
`b`; `rest` gives the changes from there on. -/
def walkTo (f : Bool → Bool → Bool) (x : Bool) (b : Nat) (rest : Bool → List Nat → List Nat) :
    Bool → List Nat → List Nat
  | y, [] => change (f x y) (f (!x) y) b (rest y [])
  | y, c :: cs =>
    if c < b then change (f x y) (f x !y) c (walkTo f x b rest (!y) cs)
    else if b < c then change (f x y) (f (!x) y) b (rest y (c :: cs))
    else change (f x y) (f (!x) !y) b (rest (!y) cs)

/-- The changes of a function of two memberships. -/
def walk (f : Bool → Bool → Bool) : Bool → List Nat → Bool → List Nat → List Nat
  | x, [], y, cs => follow (f x) y cs
  | x, b :: bs, y, cs => walkTo f x b (walk f (!x) bs) y cs

theorem mem_change {before after : Bool} {b n : Nat} {rest : List Nat}
    (h : n ∈ change before after b rest) : n = b ∨ n ∈ rest := by
  unfold change at h
  split at h
  · exact Or.inr h
  · exact List.mem_cons.1 h

theorem pairwise_change {before after : Bool} {b : Nat} {rest : List Nat}
    (hb : ∀ n ∈ rest, b < n) (h : rest.Pairwise (· < ·)) :
    (change before after b rest).Pairwise (· < ·) := by
  unfold change
  split
  · exact h
  · exact List.pairwise_cons.2 ⟨hb, h⟩

theorem insideAfter_change {before after : Bool} {b n : Nat} {rest : List Nat}
    (hb : ∀ m ∈ rest, b < m) :
    insideAfter before (change before after b rest) n =
      if n < b then before else insideAfter after rest n := by
  unfold change
  split
  · rename_i h
    subst h
    split
    · exact insideAfter_of_lt fun m hm => Nat.lt_trans ‹_› (hb m hm)
    · rfl
  · rename_i h
    have : after = !before := by cases before <;> cases after <;> simp_all
    subst this
    rfl

theorem mem_follow {f : Bool → Bool} {x : Bool} {bs : List Nat} {n : Nat} (h : n ∈ follow f x bs) :
    n ∈ bs := by
  induction bs generalizing x with
  | nil => exact h
  | cons b bs ih =>
    rcases mem_change h with rfl | h
    · exact List.mem_cons_self
    · exact List.mem_cons_of_mem _ (ih h)

theorem pairwise_follow {f : Bool → Bool} {x : Bool} {bs : List Nat} (h : bs.Pairwise (· < ·)) :
    (follow f x bs).Pairwise (· < ·) := by
  induction bs generalizing x with
  | nil => exact h
  | cons b bs ih =>
    obtain ⟨hb, h⟩ := List.pairwise_cons.1 h
    exact pairwise_change (fun n hn => hb n (mem_follow hn)) (ih h)

theorem insideAfter_follow {f : Bool → Bool} {x : Bool} {bs : List Nat} {n : Nat}
    (h : bs.Pairwise (· < ·)) :
    insideAfter (f x) (follow f x bs) n = f (insideAfter x bs n) := by
  induction bs generalizing x with
  | nil => rfl
  | cons b bs ih =>
    obtain ⟨hb, h⟩ := List.pairwise_cons.1 h
    rw [follow, insideAfter_change fun n hn => hb n (mem_follow hn), insideAfter, ih h]
    split <;> rfl

theorem mem_walkTo {f : Bool → Bool → Bool} {x y : Bool} {b n : Nat} {bs cs : List Nat}
    {rest : Bool → List Nat → List Nat} (k : ∀ {y cs}, n ∈ rest y cs → n ∈ bs ∨ n ∈ cs)
    (h : n ∈ walkTo f x b rest y cs) : n ∈ b :: bs ∨ n ∈ cs := by
  induction cs generalizing y with
  | nil =>
    rcases mem_change h with h | h
    · exact Or.inl (h ▸ List.mem_cons_self)
    · exact (k h).imp_left (List.mem_cons_of_mem _)
  | cons c cs ih =>
    rw [walkTo] at h
    split at h
    · rcases mem_change h with h | h
      · exact Or.inr (h ▸ List.mem_cons_self)
      · exact (ih h).imp_right (List.mem_cons_of_mem _)
    · split at h
      · rcases mem_change h with h | h
        · exact Or.inl (h ▸ List.mem_cons_self)
        · exact (k h).imp_left (List.mem_cons_of_mem _)
      · rcases mem_change h with h | h
        · exact Or.inl (h ▸ List.mem_cons_self)
        · exact (k h).imp (List.mem_cons_of_mem _) (List.mem_cons_of_mem _)

/-- What `walkTo` needs of the changes from `b` on. -/
structure Continues (f : Bool → Bool → Bool) (x : Bool) (b : Nat) (bs : List Nat)
    (rest : Bool → List Nat → List Nat) : Prop where
  mem : ∀ {y cs n}, n ∈ rest y cs → n ∈ bs ∨ n ∈ cs
  pairwise : ∀ {y cs}, cs.Pairwise (· < ·) → (rest y cs).Pairwise (· < ·)
  inside : ∀ {y cs n}, cs.Pairwise (· < ·) →
    insideAfter (f (!x) y) (rest y cs) n = f (insideAfter (!x) bs n) (insideAfter y cs n)

theorem Continues.walkTo {f : Bool → Bool → Bool} {x : Bool} {b : Nat} {bs : List Nat}
    {rest : Bool → List Nat → List Nat} (k : Continues f x b bs rest) (hb : ∀ n ∈ bs, b < n)
    {y : Bool} {cs : List Nat} (hc : cs.Pairwise (· < ·)) :
    (CharSet.walkTo f x b rest y cs).Pairwise (· < ·) ∧
      ∀ n, insideAfter (f x y) (CharSet.walkTo f x b rest y cs) n =
        f (insideAfter x (b :: bs) n) (insideAfter y cs n) := by
  induction cs generalizing y with
  | nil =>
    have hr : ∀ n ∈ rest y [], b < n := fun n hn =>
      hb n ((k.mem hn).resolve_right List.not_mem_nil)
    refine ⟨pairwise_change hr (k.pairwise hc), fun n => ?_⟩
    rw [CharSet.walkTo, insideAfter_change hr, k.inside hc, insideAfter.eq_2 x]
    split <;> rfl
  | cons c cs ih =>
    obtain ⟨hc1, hc2⟩ := List.pairwise_cons.1 hc
    rcases Nat.lt_trichotomy c b with hlt | heq | hgt
    · have hr : ∀ n ∈ CharSet.walkTo f x b rest (!y) cs, c < n := fun n hn => by
        rcases mem_walkTo k.mem hn with h | h
        · exact (List.mem_cons.1 h).elim (· ▸ hlt) fun h => Nat.lt_trans hlt (hb n h)
        · exact hc1 n h
      obtain ⟨hpair, hin⟩ := ih (y := !y) hc2
      rw [CharSet.walkTo, if_pos hlt]
      refine ⟨pairwise_change hr hpair, fun n => ?_⟩
      rw [insideAfter_change hr, hin, insideAfter.eq_2 y]
      split
      · rw [insideAfter_of_lt fun m hm => ?_]
        rcases List.mem_cons.1 hm with h | h
        · omega
        · have := hb m h; omega
      · rfl
    · subst heq
      have hr : ∀ n ∈ rest (!y) cs, c < n := fun n hn => (k.mem hn).elim (hb n) (hc1 n)
      rw [CharSet.walkTo, if_neg (Nat.lt_irrefl c), if_neg (Nat.lt_irrefl c)]
      refine ⟨pairwise_change hr (k.pairwise hc2), fun n => ?_⟩
      rw [insideAfter_change hr, k.inside hc2, insideAfter, insideAfter]
      split <;> rfl
    · have hr : ∀ n ∈ rest y (c :: cs), b < n := fun n hn =>
        (k.mem hn).elim (hb n) fun h => (List.mem_cons.1 h).elim (· ▸ hgt)
          fun h => Nat.lt_trans hgt (hc1 n h)
      rw [CharSet.walkTo, if_neg (Nat.lt_asymm hgt), if_pos hgt]
      refine ⟨pairwise_change hr (k.pairwise hc), fun n => ?_⟩
      rw [insideAfter_change hr, k.inside hc, insideAfter.eq_2 x]
      split
      · have : insideAfter y (c :: cs) n = y := insideAfter_of_lt fun m hm => by
          rcases List.mem_cons.1 hm with h | h
          · omega
          · have := hc1 m h; omega
        rw [this]
      · rfl

theorem mem_walk {f : Bool → Bool → Bool} {x y : Bool} {bs cs : List Nat} {n : Nat}
    (h : n ∈ walk f x bs y cs) : n ∈ bs ∨ n ∈ cs := by
  induction bs generalizing x y cs with
  | nil => exact Or.inr (mem_follow h)
  | cons b bs ih => exact mem_walkTo ih h

theorem walk_spec (f : Bool → Bool → Bool) {x y : Bool} {bs cs : List Nat}
    (hb : bs.Pairwise (· < ·)) (hc : cs.Pairwise (· < ·)) :
    (walk f x bs y cs).Pairwise (· < ·) ∧
      ∀ n, insideAfter (f x y) (walk f x bs y cs) n =
        f (insideAfter x bs n) (insideAfter y cs n) := by
  induction bs generalizing x y cs with
  | nil => exact ⟨pairwise_follow hc, fun _ => insideAfter_follow hc⟩
  | cons b bs ih =>
    obtain ⟨hb1, hb2⟩ := List.pairwise_cons.1 hb
    have k : Continues f x b bs (walk f (!x) bs) :=
      ⟨mem_walk, fun h => (ih hb2 h).1, fun h => (ih hb2 h).2 _⟩
    exact k.walkTo hb1 hc

/-! ## Operations -/

/-- The characters that a function of two memberships selects; it selects none that are in
neither set. -/
def combine (f : Bool → Bool → Bool) (s t : CharSet) : CharSet :=
  ⟨walk f false s.bounds false t.bounds, (walk_spec f s.ascending t.ascending).1⟩

theorem contains_combine {f : Bool → Bool → Bool} (h : f false false = false) (s t : CharSet)
    (c : Char) : (combine f s t).contains c = f (s.contains c) (t.contains c) := by
  have := (walk_spec f (x := false) (y := false) s.ascending t.ascending).2 c.toNat
  rw [h] at this
  exact this

def union : CharSet → CharSet → CharSet := combine (· || ·)

def inter : CharSet → CharSet → CharSet := combine (· && ·)

/-- The characters of the first set that are not in the second. -/
def diff : CharSet → CharSet → CharSet := combine fun x y => x && !y

/-- The characters of just one of two sets. -/
def symmDiff : CharSet → CharSet → CharSet := combine (· != ·)

theorem contains_union (s t : CharSet) (c : Char) :
    (s.union t).contains c = (s.contains c || t.contains c) := contains_combine rfl s t c

theorem contains_inter (s t : CharSet) (c : Char) :
    (s.inter t).contains c = (s.contains c && t.contains c) := contains_combine rfl s t c

theorem contains_diff (s t : CharSet) (c : Char) :
    (s.diff t).contains c = (s.contains c && !t.contains c) := contains_combine rfl s t c

theorem contains_symmDiff (s t : CharSet) (c : Char) :
    (s.symmDiff t).contains c = (s.contains c != t.contains c) := contains_combine rfl s t c

/-- The changes of a set's complement. -/
def toggleStart : List Nat → List Nat
  | 0 :: bs => bs
  | bs => 0 :: bs

theorem pairwise_toggleStart {bs : List Nat} (h : bs.Pairwise (· < ·)) :
    (toggleStart bs).Pairwise (· < ·) := by
  unfold toggleStart
  split
  · exact (List.pairwise_cons.1 h).2
  · rename_i hne
    refine List.pairwise_cons.2 ⟨fun n hn => Nat.pos_of_ne_zero ?_, h⟩
    rintro rfl
    cases bs with
    | nil => cases hn
    | cons b bs =>
      rcases List.mem_cons.1 hn with rfl | hn
      · exact hne bs rfl
      · exact Nat.not_lt_zero b ((List.pairwise_cons.1 h).1 0 hn)

theorem insideAfter_toggleStart (bs : List Nat) (n : Nat) :
    insideAfter false (toggleStart bs) n = !insideAfter false bs n := by
  unfold toggleStart
  split
  · rw [insideAfter, if_neg (Nat.not_lt_zero _), insideAfter_not, Bool.not_not]
  · rw [insideAfter, if_neg (Nat.not_lt_zero _), insideAfter_not]

/-- All characters but those of a set. -/
def compl (s : CharSet) : CharSet := ⟨toggleStart s.bounds, pairwise_toggleStart s.ascending⟩

theorem contains_compl (s : CharSet) (c : Char) : s.compl.contains c = !s.contains c :=
  insideAfter_toggleStart _ _

/-! ## Ranges -/

def empty : CharSet := ⟨[], List.Pairwise.nil⟩

/-- One more than the last code point. -/
def codePoints : Nat := 0x110000

/-- The code points from `lo` to `hi`, both included. -/
def rangeBounds (lo hi : Nat) : List Nat :=
  if hi < lo then [] else if hi + 1 < codePoints then [lo, hi + 1] else [lo]

theorem pairwise_rangeBounds (lo hi : Nat) : (rangeBounds lo hi).Pairwise (· < ·) := by
  unfold rangeBounds
  split
  · exact List.Pairwise.nil
  · split
    · simp; omega
    · exact List.pairwise_singleton _ _

/-- The characters from `lo` to `hi`, both included. -/
def range (lo hi : Char) : CharSet :=
  ⟨rangeBounds lo.toNat hi.toNat, pairwise_rangeBounds _ _⟩

def single (c : Char) : CharSet := range c c

theorem toNat_lt (c : Char) : c.toNat < codePoints := by
  have := c.valid
  simp only [codePoints, UInt32.isValidChar, Nat.isValidChar, Char.toNat] at *
  omega

theorem contains_range (lo hi c : Char) :
    (range lo hi).contains c = (decide (lo.toNat ≤ c.toNat) && decide (c.toNat ≤ hi.toNat)) := by
  have hc := toNat_lt c
  simp only [contains, range, rangeBounds]
  split
  · simp only [insideAfter]
    symm
    simp only [Bool.and_eq_false_iff, decide_eq_false_iff_not]
    omega
  · split
    · simp only [insideAfter]
      repeat' split
      all_goals simp
      all_goals omega
    · simp only [insideAfter]
      split
      all_goals simp
      all_goals omega

theorem contains_single (d c : Char) : (single d).contains c = decide (c = d) := by
  rw [single, contains_range, ← Bool.decide_and]
  congr 1
  exact propext ⟨fun ⟨h, h'⟩ => Char.toNat_inj.1 (Nat.le_antisymm h' h),
    fun h => h ▸ ⟨Nat.le_refl _, Nat.le_refl _⟩⟩

/-- The characters of a list. -/
def ofChars (cs : List Char) : CharSet := cs.foldr (fun c s => (single c).union s) empty

theorem contains_ofChars (cs : List Char) (c : Char) : (ofChars cs).contains c = decide (c ∈ cs) := by
  induction cs with
  | nil => rfl
  | cons d cs ih =>
    have : ofChars (d :: cs) = (single d).union (ofChars cs) := rfl
    rw [this, contains_union, contains_single, ih, ← Bool.decide_or]
    simp

/-- All characters but those of a list. -/
def except (cs : List Char) : CharSet := (ofChars cs).compl

theorem contains_except (cs : List Char) (c : Char) : (except cs).contains c = decide (c ∉ cs) := by
  rw [except, contains_compl, contains_ofChars, decide_not]

/-- Any character that does not end a line. -/
def anyInLine : CharSet := except ['\n']

/-- The only character of a set that has just one. -/
def only? (s : CharSet) : Option Char :=
  match s.bounds with
  | [lo, hi] => if hi = lo + 1 then some (Char.ofNat lo) else none
  | _ => none

end CharSet

end ErrorHints

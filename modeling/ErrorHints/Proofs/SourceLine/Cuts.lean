import ErrorHints.Proofs.Pattern.Finding

/-!
# Places in a line

What a line shows is at certain places of it, and a place cuts the line in two. All cuts of a line
from left to right give all that it shows, in order.

Results:
* `lists_filterMap_cuts`: what is shown by the cuts of a line, one after the other, is all there is.
* `lists_runs`: the maximal stretches of a class of characters.
-/
namespace ErrorHints.SourceLine

/-- A text, cut in two. -/
structure Cut where
  front : List Char
  back : List Char

/-- The spot between the two parts. -/
def Cut.spot (k : Cut) : Spot := ⟨k.front.length, k.front.getLast?, k.back⟩

/-- All cuts of what follows `front`, from left to right. -/
def cutsAfter (front : List Char) : List Char → List Cut
  | [] => [⟨front, []⟩]
  | c :: rest => ⟨front, c :: rest⟩ :: cutsAfter (front ++ [c]) rest

/-- All cuts of a text. -/
def cuts (text : List Char) : List Cut := cutsAfter [] text

theorem Cut.past_spot (front : List Char) (c : Char) (rest : List Char) :
    (Cut.mk front (c :: rest)).spot.past c rest = (Cut.mk (front ++ [c]) rest).spot := by
  simp [Cut.spot, Spot.past]

theorem Cut.skip_spot (k : Cut) (inClass : Char → Bool) :
    k.spot.skip inClass =
      (Cut.mk (k.front ++ k.back.takeWhile inClass) (k.back.dropWhile inClass)).spot := by
  obtain ⟨front, back⟩ := k
  induction back generalizing front with
  | nil => rw [Spot.skip_of_neg (by simp [Cut.spot])]; simp
  | cons c rest ih =>
    by_cases hc : inClass c
    · have hs : (Cut.mk front (c :: rest)).spot.after = c :: rest := rfl
      rw [Spot.skip_of_pos hs hc, past_spot, ih]
      simp [hc]
    · rw [Spot.skip_of_neg (by simpa [Cut.spot] using hc)]
      simp [hc]

theorem mem_cutsAfter_iff {front text : List Char} {k : Cut} :
    k ∈ cutsAfter front text ↔ ∃ x, k.front = front ++ x ∧ x ++ k.back = text := by
  induction text generalizing front with
  | nil =>
    constructor
    · intro h
      obtain rfl := List.mem_singleton.1 h
      exact ⟨[], by simp⟩
    · rintro ⟨x, hf, hb⟩
      obtain ⟨rfl, hb⟩ := List.append_eq_nil_iff.1 hb
      obtain ⟨kf, kb⟩ := k
      simp_all [cutsAfter]
  | cons c rest ih =>
    rw [cutsAfter, List.mem_cons, ih]
    constructor
    · rintro (rfl | ⟨x, hf, rfl⟩)
      · exact ⟨[], by simp⟩
      · exact ⟨c :: x, by simp [hf]⟩
    · rintro ⟨x, hf, hb⟩
      cases x with
      | nil =>
        obtain ⟨kf, kb⟩ := k
        simp_all
      | cons d x =>
        obtain ⟨rfl, rfl⟩ := List.cons.inj hb
        exact .inr ⟨x, by simp [hf]⟩

theorem mem_cuts_iff {text : List Char} {k : Cut} : k ∈ cuts text ↔ k.front ++ k.back = text := by
  rw [cuts, mem_cutsAfter_iff]
  simp

theorem cutsAfter_append (front x : List Char) {y : List Char} :
    ∃ ks, cutsAfter front (x ++ y) = ks ++ cutsAfter (front ++ x) y ∧
      ∀ k ∈ ks, ∃ a d b, x = a ++ d :: b ∧ k = ⟨front ++ a, d :: b ++ y⟩ := by
  induction x generalizing front with
  | nil => exact ⟨[], by simp⟩
  | cons c x ih =>
    obtain ⟨ks, hks, hmem⟩ := ih (front ++ [c])
    refine ⟨⟨front, c :: x ++ y⟩ :: ks, by simpa [cutsAfter] using hks, ?_⟩
    intro k hk
    rcases List.mem_cons.1 hk with rfl | hk
    · exact ⟨[], c, x, by simp⟩
    · obtain ⟨a, d, b, rfl, rfl⟩ := hmem k hk
      exact ⟨c :: a, d, b, by simp⟩

theorem pairwise_cutsAfter (front text : List Char) :
    (cutsAfter front text).Pairwise fun k k' => k.front.length < k'.front.length := by
  induction text generalizing front with
  | nil => exact List.pairwise_singleton _ _
  | cons c rest ih =>
    refine List.pairwise_cons.2 ⟨fun k hk => ?_, ih _⟩
    obtain ⟨x, hf, -⟩ := mem_cutsAfter_iff.1 hk
    simp [hf]

/-- A list of all that there is of something, from left to right. -/
structure Lists {α : Type} (is : α → Prop) (front : α → List Char) (l : List α) : Prop where
  mem_iff : ∀ a, a ∈ l ↔ is a
  inOrder : l.Pairwise fun a b => (front a).length < (front b).length

/-- What the cuts of a text show, one after the other, is all that there is of it. -/
theorem lists_filterMap_cuts {α : Type} {is : α → Prop} {front : α → List Char}
    {show? : Cut → Option α} {text : List Char}
    (hsound : ∀ {k a}, k.front ++ k.back = text → show? k = some a → is a ∧ front a = k.front)
    (hcomplete : ∀ {a}, is a → ∃ k, k.front ++ k.back = text ∧ show? k = some a) :
    Lists is front ((cuts text).filterMap show?) where
  mem_iff a := by
    simp only [List.mem_filterMap, mem_cuts_iff]
    exact ⟨fun ⟨k, hk, ha⟩ => (hsound hk ha).1, hcomplete⟩
  inOrder := by
    rw [List.pairwise_filterMap]
    refine (pairwise_cutsAfter [] text).imp_of_mem fun hk hk' h a ha b hb => ?_
    rw [(hsound (mem_cuts_iff.1 hk) ha).2, (hsound (mem_cuts_iff.1 hk') hb).2]
    exact h

/-! ## Runs -/

/-- A stretch of a text, with what is before and behind it. -/
structure Run where
  front : List Char
  chars : List Char
  back : List Char

/-- A stretch of characters of a class that cannot be made longer. -/
structure IsRun (inClass : Char → Bool) (text : List Char) (r : Run) : Prop where
  whole : r.front ++ r.chars ++ r.back = text
  ne_nil : r.chars ≠ []
  inside : ∀ c ∈ r.chars, inClass c
  before : ∀ c ∈ r.front.getLast?, inClass c = false
  behind : ∀ c ∈ r.back.head?, inClass c = false

/-- The run that starts at a cut, if one does. -/
def Cut.run? (inClass : Char → Bool) (k : Cut) : Option Run :=
  if k.back.head?.any inClass && !k.front.getLast?.any inClass then
    some ⟨k.front, k.back.takeWhile inClass, k.back.dropWhile inClass⟩
  else none

/-- The runs of a class in a text. -/
def runs (inClass : Char → Bool) (text : List Char) : List Run :=
  (cuts text).filterMap (·.run? inClass)

theorem span_append {inClass : Char → Bool} {x y : List Char}
    (hx : ∀ c ∈ x, inClass c) (hy : ∀ c ∈ y.head?, inClass c = false) :
    (x ++ y).takeWhile inClass = x ∧ (x ++ y).dropWhile inClass = y := by
  rw [List.takeWhile_append_of_pos hx, List.dropWhile_append_of_pos hx]
  cases y with
  | nil => simp
  | cons c y =>
    have hc := hy c rfl
    simp [hc]

theorem lists_runs (inClass : Char → Bool) (text : List Char) :
    Lists (IsRun inClass text) Run.front (runs inClass text) := by
  refine lists_filterMap_cuts (fun {k r} hk hr => ?_) (fun {r} hr => ?_)
  · unfold Cut.run? at hr
    split at hr
    · rename_i h
      obtain rfl := Option.some.inj hr
      simp only [Bool.and_eq_true, Bool.not_eq_true', Option.any_eq_true, Option.any_eq_false] at h
      obtain ⟨⟨c, hc, hin⟩, hbefore⟩ := h
      refine ⟨⟨?_, ?_, ?_, hbefore, ?_⟩, rfl⟩
      · rw [List.append_assoc, List.takeWhile_append_dropWhile, hk]
      · obtain ⟨rest, hrest⟩ := List.head?_eq_some_iff.1 hc
        simp [hrest, hin]
      · exact fun c hc => List.mem_takeWhile_imp hc
      · intro d hd
        have := List.head?_dropWhile_not inClass k.back
        rw [hd] at this
        simpa using this
    · cases hr
  · obtain ⟨htake, hdrop⟩ := span_append hr.inside hr.behind
    refine ⟨⟨r.front, r.chars ++ r.back⟩, by rw [← hr.whole, List.append_assoc], ?_⟩
    obtain ⟨c, chars, hchars⟩ := List.exists_cons_of_ne_nil hr.ne_nil
    have hc : (r.chars ++ r.back).head?.any inClass := by
      simpa [hchars] using hr.inside c (by simp [hchars])
    have hbefore : r.front.getLast?.any inClass = false := by
      rw [Option.any_eq_false]
      exact hr.before
    rw [Cut.run?, htake, hdrop, hbefore, hc]
    rfl

end ErrorHints.SourceLine

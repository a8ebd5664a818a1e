import ErrorHints.Suffix

/-!
# Stripping a suffix

A suffix may occur more than once in a text, and its occurrences may overlap. One of them is taken
out: the one at the end, if there is one, and else the one that starts first.

Results:
* `removeFirst_of_isFirst`, `removeFirst_of_absent`: the first occurrence is removed, if any.
* `strip_eq_iff`: what is left of a text.
-/
namespace ErrorHints.Suffix

/-! ## First occurrences -/

/-- `s` stands in `t` between `front` and `back`, and nowhere further to the left. -/
structure IsFirst {α : Type} (s t front back : List α) : Prop where
  whole : t = front ++ s ++ back
  leftmost : ∀ {x y}, t = x ++ s ++ y → front.length ≤ x.length

variable {s t front back : List Char}

theorem removeFirst_append (s back : List Char) : removeFirst s (s ++ back) = back := by
  cases h : s ++ back with
  | nil =>
    obtain ⟨-, rfl⟩ := List.append_eq_nil_iff.1 h
    rfl
  | cons c cs =>
    have hprefix : s.isPrefixOf (c :: cs) := List.isPrefixOf_iff_prefix.2 ⟨back, h⟩
    rw [removeFirst, if_pos hprefix, ← h, List.drop_left]

/-- What is not at the front is looked for behind the first character. -/
theorem removeFirst_cons {c : Char} {cs : List Char} (h : ¬ s <+: c :: cs) :
    removeFirst s (c :: cs) = c :: removeFirst s cs := by
  rw [removeFirst, if_neg (by rwa [List.isPrefixOf_iff_prefix])]

/-- The first occurrence is removed. -/
theorem removeFirst_of_isFirst (h : IsFirst s t front back) : removeFirst s t = front ++ back := by
  induction front generalizing t with
  | nil => rw [h.whole, List.nil_append, List.nil_append, removeFirst_append]
  | cons c front ih =>
    obtain rfl := h.whole
    have hnot : ¬ s <+: c :: (front ++ s ++ back) := by
      rintro ⟨y, hy⟩
      have hlen := h.leftmost (x := []) hy.symm
      simp at hlen
    have hfirst : IsFirst s (front ++ s ++ back) front back := by
      refine ⟨rfl, fun {x y} hxy => ?_⟩
      have hlen := h.leftmost (x := c :: x) (congrArg (c :: ·) hxy)
      simpa using hlen
    rw [List.cons_append, List.cons_append, removeFirst_cons hnot, ih hfirst, List.cons_append]

/-- Without an occurrence nothing is removed. -/
theorem removeFirst_of_absent (h : ¬ s <:+: t) : removeFirst s t = t := by
  induction t with
  | nil => rfl
  | cons c t ih =>
    rw [List.infix_cons_iff, not_or] at h
    rw [removeFirst_cons h.1, ih h.2]

/-- What occurs occurs somewhere first. -/
theorem exists_isFirst (h : s <:+: t) : ∃ front back, IsFirst s t front back := by
  induction t with
  | nil =>
    obtain rfl := List.infix_nil.1 h
    exact ⟨[], [], rfl, fun _ => Nat.zero_le _⟩
  | cons c t ih =>
    by_cases hprefix : s <+: c :: t
    · obtain ⟨back, hback⟩ := hprefix
      exact ⟨[], back, hback.symm, fun _ => Nat.zero_le _⟩
    · obtain ⟨front, back, hfirst⟩ := ih ((List.infix_cons_iff.1 h).resolve_left hprefix)
      refine ⟨c :: front, back, congrArg (c :: ·) hfirst.whole, fun {x y} hxy => ?_⟩
      cases x with
      | nil => exact absurd ⟨y, hxy.symm⟩ hprefix
      | cons d x =>
        have hlen := hfirst.leftmost (List.cons.inj hxy).2
        simpa using hlen

/-! ## Stripping -/

/-- What is left of a text without a suffix. -/
inductive Stripped (text suffix : String) : String → Prop where
  /-- The suffix is at the end. -/
  | atEnd {p : String} (h : text = p ++ suffix) : Stripped text suffix p
  /-- It is not, but it occurs, and nowhere before the end of `p`. -/
  | first {p q : String} (hend : ∀ r, text ≠ r ++ suffix) (h : text = p ++ suffix ++ q)
      (hfirst : ∀ p' q', text = p' ++ suffix ++ q' → p.length ≤ p'.length) :
      Stripped text suffix (p ++ q)
  /-- It does not occur. -/
  | absent (h : ∀ p q, text ≠ p ++ suffix ++ q) : Stripped text suffix text

variable {text suffix : String}

theorem eq_append_iff {p q : String} :
    text = p ++ suffix ++ q ↔ text.toList = p.toList ++ suffix.toList ++ q.toList := by
  rw [← String.toList_inj, String.toList_append, String.toList_append]

theorem infix_iff : suffix.toList <:+: text.toList ↔ ∃ p q, text = p ++ suffix ++ q := by
  simp only [eq_append_iff]
  constructor
  · rintro ⟨x, y, h⟩
    exact ⟨.ofList x, .ofList y, by simpa using h.symm⟩
  · rintro ⟨p, q, h⟩
    exact ⟨p.toList, q.toList, h.symm⟩

theorem isFirst_iff {p q : String} :
    IsFirst suffix.toList text.toList p.toList q.toList ↔
      text = p ++ suffix ++ q ∧
        ∀ p' q', text = p' ++ suffix ++ q' → p.length ≤ p'.length := by
  simp only [eq_append_iff, ← String.length_toList]
  constructor
  · exact fun h => ⟨h.whole, fun p' q' h' => h.leftmost h'⟩
  · rintro ⟨hwhole, hfirst⟩
    refine ⟨hwhole, fun {x y} hxy => ?_⟩
    have hlen := hfirst (.ofList x) (.ofList y) (by simpa using hxy)
    simpa using hlen

theorem strip_of_not_end (h : ∀ r, text ≠ r ++ suffix) :
    strip text suffix = String.ofList (removeFirst suffix.toList text.toList) := by
  rw [strip, stripChars, if_neg]
  intro hend
  obtain ⟨r, hr⟩ := List.isSuffixOf_iff_suffix.1 hend
  refine h (String.ofList r) ?_
  rw [← String.toList_inj, ← hr, String.toList_append, String.toList_ofList]

theorem strip_of_stripped {r : String} (h : Stripped text suffix r) : strip text suffix = r := by
  cases h with
  | atEnd h => rw [h, strip_append]
  | first hend h hfirst =>
    rw [strip_of_not_end hend, removeFirst_of_isFirst (isFirst_iff.2 ⟨h, hfirst⟩),
      ← String.toList_append, String.ofList_toList]
  | absent h =>
    have hend (r : String) : text ≠ r ++ suffix := by simpa using h r ""
    have hnone : ¬ suffix.toList <:+: text.toList := by
      rw [infix_iff]
      rintro ⟨p, q, hpq⟩
      exact h p q hpq
    rw [strip_of_not_end hend, removeFirst_of_absent hnone, String.ofList_toList]

theorem exists_stripped (text suffix : String) : ∃ r, Stripped text suffix r := by
  by_cases hend : ∃ p, text = p ++ suffix
  · obtain ⟨p, hp⟩ := hend
    exact ⟨p, .atEnd hp⟩
  · by_cases hocc : suffix.toList <:+: text.toList
    · obtain ⟨front, back, hfirst⟩ := exists_isFirst hocc
      rw [← String.toList_ofList (l := front), ← String.toList_ofList (l := back)] at hfirst
      obtain ⟨h, hleast⟩ := isFirst_iff.1 hfirst
      exact ⟨_, .first (not_exists.1 hend) h hleast⟩
    · rw [infix_iff] at hocc
      exact ⟨text, .absent fun p q h => hocc ⟨p, q, h⟩⟩

/-- What is stripped off: a suffix at the end, else the first occurrence, else nothing. So a suffix
that was put into a text is taken out again if it does not occur before and is not at the end. -/
theorem strip_eq_iff (suffix : String) :
    (∀ text r, strip text suffix = r ↔ Stripped text suffix r) ∧
    ∀ o w : String,
      (∀ p q, o ++ suffix ++ w = p ++ suffix ++ q → o.length ≤ p.length) →
      (∀ r, o ++ suffix ++ w ≠ r ++ suffix) →
      strip (o ++ suffix ++ w) suffix = o ++ w := by
  refine ⟨fun text r => ⟨?_, strip_of_stripped⟩, fun o w hfirst hend => ?_⟩
  · rintro rfl
    obtain ⟨r, hr⟩ := exists_stripped text suffix
    exact (strip_of_stripped hr).symm ▸ hr
  · exact strip_of_stripped (.first hend rfl hfirst)

/-- The end comes before the start, and occurrences may overlap. -/
example : strip "abcab" "ab" = "abc" ∧ strip "xaaay" "aa" = "xay" := by decide

end ErrorHints.Suffix

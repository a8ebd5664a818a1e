import Std.Data.HashSet

/-!
# First occurrences

`distinctOn key xs` keeps, in order, each element of `xs` whose key no earlier
element has. The keys seen so far are held in a hash set; the lemmas say what
is kept without mentioning it.

Results:
* `distinctOn_cons`: the first element stays and its key is dropped from the rest.
* `distinctOn_sublist`: the order is kept.
* `mem_map_distinctOn`: the same keys occur.
* `nodup_distinctOn`: each key occurs once.
* `distinctOn_of_nodup`: elements with different keys are all kept.
* `mem_distinctOn_iff`: what is kept is what comes first under its key.
* `distinct_eq_eraseDups`: without keys, this is the library's way of dropping repeats.
* `map_distinctOn`: the keys that are kept are the different ones, in order.
* `take_eraseDups_concat`: what one more element adds to the first different ones.
-/
namespace ErrorHints

variable {α κ : Type} [BEq κ] [Hashable κ]

/-- The elements whose key is neither in `seen` nor on an earlier element. -/
def unseenOn (key : α → κ) (seen : Std.HashSet κ) : List α → List α
  | [] => []
  | x :: xs =>
    if seen.contains (key x) then unseenOn key seen xs
    else x :: unseenOn key (seen.insert (key x)) xs

/-- The first element of each key, in order. -/
def distinctOn (key : α → κ) (xs : List α) : List α := unseenOn key ∅ xs

/-- Each element once, in order of first occurrence. -/
def distinct (xs : List κ) : List κ := distinctOn id xs

theorem unseenOn_sublist (key : α → κ) (seen : Std.HashSet κ) (xs : List α) :
    (unseenOn key seen xs).Sublist xs := by
  induction xs generalizing seen with
  | nil => simp [unseenOn]
  | cons x xs ih =>
    simp only [unseenOn]
    split
    · exact (ih seen).cons x
    · exact (ih _).cons_cons x

theorem distinctOn_sublist (key : α → κ) (xs : List α) : (distinctOn key xs).Sublist xs :=
  unseenOn_sublist key ∅ xs

theorem map_unseenOn (key : α → κ) (seen : Std.HashSet κ) (xs : List α) :
    (unseenOn key seen xs).map key = unseenOn id seen (xs.map key) := by
  induction xs generalizing seen with
  | nil => rfl
  | cons x xs ih =>
    simp only [unseenOn, List.map_cons, id]
    split
    · exact ih seen
    · rw [List.map_cons, ih]

@[simp]
theorem distinctOn_nil (key : α → κ) : distinctOn key [] = [] := rfl

variable [LawfulBEq κ] [LawfulHashable κ]

/-- Skipping the keys of a second set while walking is dropping them beforehand. -/
theorem unseenOn_filter (key : α → κ) (t : Std.HashSet κ) (xs : List α) (s u : Std.HashSet κ)
    (h : ∀ k, u.contains k = (s.contains k || t.contains k)) :
    unseenOn key s (xs.filter fun x => !t.contains (key x)) = unseenOn key u xs := by
  induction xs generalizing s u with
  | nil => rfl
  | cons x xs ih =>
    have hx := h (key x)
    by_cases ht : t.contains (key x) = true
    · simp only [List.filter_cons, ht, Bool.not_true, Bool.false_eq_true, if_false, unseenOn, hx,
        Bool.or_true, if_true]
      exact ih s u h
    · simp only [Bool.not_eq_true] at ht
      simp only [List.filter_cons, ht, Bool.not_false, if_true, unseenOn, hx, Bool.or_false]
      split
      · exact ih s u h
      · congr 1
        refine ih _ _ fun k => ?_
        simp only [Std.HashSet.contains_insert, h, Bool.or_assoc]

/-- The first element stays; the rest loses its key. -/
theorem distinctOn_cons (key : α → κ) (x : α) (xs : List α) :
    distinctOn key (x :: xs) = x :: distinctOn key (xs.filter fun y => !(key x == key y)) := by
  have h := unseenOn_filter key ((∅ : Std.HashSet κ).insert (key x)) xs ∅
    ((∅ : Std.HashSet κ).insert (key x)) (fun k => by simp)
  simp only [distinctOn, unseenOn, Std.HashSet.contains_empty, Bool.false_eq_true, if_false]
  rw [← h]
  simp

theorem mem_map_distinctOn (key : α → κ) (xs : List α) (k : κ) :
    k ∈ (distinctOn key xs).map key ↔ k ∈ xs.map key := by
  induction h : xs.length using Nat.strongRecOn generalizing xs with
  | ind n ih =>
    cases xs with
    | nil => simp
    | cons x xs =>
      rw [distinctOn_cons]
      have hl : (xs.filter fun y => !(key x == key y)).length < n := by
        have := List.length_filter_le (fun y => !(key x == key y)) xs
        simp only [List.length_cons] at h; omega
      have := ih _ hl (xs.filter fun y => !(key x == key y)) rfl
      simp only [List.map_cons, List.mem_cons, this, List.mem_map, List.mem_filter,
        Bool.not_eq_true', beq_eq_false_iff_ne, ne_eq]
      by_cases hk : k = key x
      · simp [hk]
      · simp only [hk, false_or]
        exact ⟨fun ⟨y, hy, e⟩ => ⟨y, hy.1, e⟩, fun ⟨y, hy, e⟩ => ⟨y, ⟨hy, fun e' => hk (e ▸ e'.symm)⟩, e⟩⟩

theorem nodup_distinctOn (key : α → κ) (xs : List α) : ((distinctOn key xs).map key).Nodup := by
  induction h : xs.length using Nat.strongRecOn generalizing xs with
  | ind n ih =>
    cases xs with
    | nil => simp
    | cons x xs =>
      rw [distinctOn_cons]
      have hl : (xs.filter fun y => !(key x == key y)).length < n := by
        have := List.length_filter_le (fun y => !(key x == key y)) xs
        simp only [List.length_cons] at h; omega
      rw [List.map_cons, List.nodup_cons, mem_map_distinctOn]
      exact ⟨by simpa using fun y _ hne e => hne e.symm, ih _ hl _ rfl⟩

/-- Elements with different keys are all kept. -/
theorem distinctOn_of_nodup {key : α → κ} {xs : List α} (h : (xs.map key).Nodup) :
    distinctOn key xs = xs := by
  induction xs with
  | nil => rfl
  | cons x xs ih =>
    obtain ⟨hx, hxs⟩ := List.nodup_cons.1 h
    have hall : (xs.filter fun y => !(key x == key y)) = xs := by
      refine List.filter_eq_self.2 fun y hy => ?_
      have hne : key x ≠ key y := fun e => hx (e ▸ List.mem_map_of_mem hy)
      simpa using hne
    rw [distinctOn_cons, hall, ih hxs]

/-- What is kept is what comes first under its key. -/
theorem mem_unseenOn_iff (key : α → κ) (seen : Std.HashSet κ) (xs : List α) (x : α) :
    x ∈ unseenOn key seen xs ↔
      seen.contains (key x) = false ∧ xs.find? (key · == key x) = some x := by
  induction xs generalizing seen with
  | nil => simp [unseenOn]
  | cons y ys ih =>
    by_cases hkey : key y == key x
    · have heq : key y = key x := eq_of_beq hkey
      rw [List.find?_cons_of_pos (by exact hkey)]
      grind [unseenOn]
    · rw [List.find?_cons_of_neg (by exact hkey)]
      grind [unseenOn]

theorem mem_distinctOn_iff (key : α → κ) (xs : List α) (x : α) :
    x ∈ distinctOn key xs ↔ xs.find? (key · == key x) = some x := by
  rw [distinctOn, mem_unseenOn_iff, Std.HashSet.contains_empty]
  simp

/-- The first element with a key is kept. -/
theorem find?_unseenOn (key : α → κ) (seen : Std.HashSet κ) (xs : List α) (k : κ)
    (h : seen.contains k = false) :
    (unseenOn key seen xs).find? (key · == k) = xs.find? (key · == k) := by
  induction xs generalizing seen with
  | nil => rfl
  | cons x xs ih =>
    rw [unseenOn]
    by_cases hx : seen.contains (key x)
    · have hne : ¬ key x == k := fun heq => by simp [← eq_of_beq heq, hx] at h
      rw [if_pos hx, ih seen h, List.find?_cons_of_neg (by exact hne)]
    · rw [if_neg hx, List.find?_cons, List.find?_cons]
      cases hk : key x == k with
      | true => rfl
      | false => exact ih _ (by simp [h, hk])

theorem find?_distinctOn (key : α → κ) (xs : List α) (k : κ) :
    (distinctOn key xs).find? (key · == k) = xs.find? (key · == k) :=
  find?_unseenOn key ∅ xs k Std.HashSet.contains_empty

/-- One more element is kept if its key is new. -/
theorem unseenOn_concat (key : α → κ) (seen : Std.HashSet κ) (xs : List α) (x : α) :
    unseenOn key seen (xs ++ [x]) =
      unseenOn key seen xs ++
        if seen.contains (key x) || (xs.map key).contains (key x) then [] else [x] := by
  induction xs generalizing seen with
  | nil => simp [unseenOn]
  | cons y ys ih =>
    simp only [List.cons_append, unseenOn, ih]
    grind

theorem distinctOn_concat (key : α → κ) (xs : List α) (x : α) :
    distinctOn key (xs ++ [x]) =
      distinctOn key xs ++ if (xs.map key).contains (key x) then [] else [x] := by
  rw [distinctOn, unseenOn_concat, Std.HashSet.contains_empty, Bool.false_or, distinctOn]

theorem mem_distinct (xs : List κ) (k : κ) : k ∈ distinct xs ↔ k ∈ xs := by
  simpa [distinct] using mem_map_distinctOn id xs k

theorem distinct_eq_nil_iff (xs : List κ) : distinct xs = [] ↔ xs = [] := by
  simp only [List.eq_nil_iff_forall_not_mem, mem_distinct]

theorem nodup_distinct (xs : List κ) : (distinct xs).Nodup := by
  simpa [distinct] using nodup_distinctOn id xs

/-- The set of what was seen leaves no trace: each element is kept where it occurs first. -/
theorem distinct_eq_eraseDups (xs : List κ) : distinct xs = xs.eraseDups := by
  induction h : xs.length using Nat.strongRecOn generalizing xs with
  | ind n ih =>
    subst h
    cases xs with
    | nil => rfl
    | cons x xs =>
      have hlen : (xs.filter fun y => !y == x).length < (x :: xs).length :=
        Nat.lt_succ_of_le (List.length_filter_le _ xs)
      have hflip : (xs.filter fun y => !(id x == id y)) = xs.filter fun y => !y == x :=
        List.filter_congr fun y _ => by rw [id, id, BEq.comm]
      rw [List.eraseDups_cons, ← ih _ hlen _ rfl, ← hflip]
      exact distinctOn_cons id x xs

/-- The keys that are kept are the different keys, in order of first occurrence. -/
theorem map_distinctOn (key : α → κ) (xs : List α) :
    (distinctOn key xs).map key = (xs.map key).eraseDups := by
  rw [distinctOn, map_unseenOn, ← distinct_eq_eraseDups]
  rfl

/-! ## Repeats in longer lists -/

section

variable {β : Type} [BEq β] [LawfulBEq β] {x : β} {xs ys : List β}

/-- Elements at the end that all occurred before can be dropped. -/
theorem eraseDups_append_of_subset (h : ∀ y ∈ ys, y ∈ xs) :
    (xs ++ ys).eraseDups = xs.eraseDups := by
  have hnone : ys.removeAll xs = [] := by
    rw [List.removeAll, List.filter_eq_nil_iff]
    intro y hy
    simpa using h y hy
  rw [List.eraseDups_append, hnone]
  exact List.append_nil _

/-- An element that occurred before can be dropped. -/
theorem eraseDups_append_cons (h : x ∈ xs) :
    (xs ++ x :: ys).eraseDups = (xs ++ ys).eraseDups := by
  have hknown : xs.contains x = true := List.contains_iff_mem.2 h
  rw [List.eraseDups_append, List.eraseDups_append, List.cons_removeAll, hknown,
    if_neg (by decide)]

/-- An element that did not occur before stays at the end. -/
theorem eraseDups_concat (h : x ∉ xs) : (xs ++ [x]).eraseDups = xs.eraseDups ++ [x] := by
  have hnew : xs.contains x = false := by simpa using h
  rw [List.eraseDups_append, List.cons_removeAll, hnew, if_pos rfl]
  simp [List.removeAll, List.eraseDups_cons]

/-! ## The first different elements -/

variable {cap : Nat}

omit [LawfulBEq β] in
/-- As long as there is room, all different elements are among the first ones. -/
theorem take_eraseDups_of_room (h : (xs.eraseDups.take cap).length < cap) :
    xs.eraseDups.take cap = xs.eraseDups := by
  rw [List.length_take] at h
  exact List.take_of_length_le (by omega)

/-- When there is no room left, nothing that comes later is among the first ones. -/
theorem take_eraseDups_append (h : cap ≤ (xs.eraseDups.take cap).length) (ys : List β) :
    (xs ++ ys).eraseDups.take cap = xs.eraseDups.take cap := by
  rw [List.length_take] at h
  rw [List.eraseDups_append, List.take_append_of_le_length (by omega)]

/-- One more element joins the first ones if it is new and there is room. -/
theorem take_eraseDups_concat (cap : Nat) (xs : List β) (x : β) :
    (xs ++ [x]).eraseDups.take cap =
      if x ∈ xs.eraseDups.take cap ∨ cap ≤ (xs.eraseDups.take cap).length then
        xs.eraseDups.take cap
      else xs.eraseDups.take cap ++ [x] := by
  split
  · next h =>
    rcases h with hmem | hfull
    · have hx : x ∈ xs := List.mem_eraseDups.1 (List.mem_of_mem_take hmem)
      rw [eraseDups_append_of_subset (by simpa using hx)]
    · exact take_eraseDups_append hfull [x]
  · next h =>
    obtain ⟨hnew, hfree⟩ := not_or.1 h
    have hall := take_eraseDups_of_room (Nat.lt_of_not_le hfree)
    rw [hall, List.mem_eraseDups] at hnew
    rw [hall] at hfree
    rw [eraseDups_concat hnew, hall]
    refine List.take_of_length_le ?_
    rw [List.length_append, List.length_singleton]
    exact Nat.lt_of_not_le hfree

end

end ErrorHints

/-!
# Slots: ordered pairs with unique keys

A list of `(key, value)` pairs in order of first insertion. `put` gives an
existing key its new value in place and appends a new key at the end, so a
list built by `put` alone never holds a key twice (`keys_put_nodup`).
-/
namespace ErrorHints

variable {κ α : Type} [DecidableEq κ]

/-- Pairs in order of first insertion. -/
abbrev Slots (κ α : Type) := List (κ × α)

namespace Slots

/-- The keys, in order. -/
def keys (s : Slots κ α) : List κ := s.map Prod.fst

/-- The value filed under `k`. -/
def get? (k : κ) : Slots κ α → Option α
  | [] => none
  | (k', v) :: rest => if k' = k then some v else get? k rest

/-- File `v` under `k`: in place of the old value, or at the end. -/
def put (k : κ) (v : α) : Slots κ α → Slots κ α
  | [] => [(k, v)]
  | (k', v') :: rest => if k' = k then (k', v) :: rest else (k', v') :: put k v rest

theorem get?_put (k k' : κ) (v : α) (s : Slots κ α) :
    get? k' (put k v s) = if k = k' then some v else get? k' s := by
  induction s with
  | nil => simp [put, get?]
  | cons p rest ih =>
    obtain ⟨k₀, v₀⟩ := p
    by_cases h : k₀ = k
    · subst h; by_cases h' : k₀ = k' <;> simp [put, get?, h']
    · by_cases h' : k₀ = k'
      · subst h'; simp [put, get?, h, Ne.symm h]
      · simp [put, get?, h, h', ih]

theorem get?_append (k : κ) (s s' : Slots κ α) :
    get? k (s ++ s') = (get? k s).or (get? k s') := by
  induction s with
  | nil => rfl
  | cons p rest ih =>
    obtain ⟨k₀, v₀⟩ := p
    by_cases h : k₀ = k <;> simp [get?, h, ih]

theorem get?_isSome_iff (k : κ) (s : Slots κ α) : (get? k s).isSome ↔ k ∈ keys s := by
  induction s with
  | nil => simp [get?, keys]
  | cons p rest ih =>
    obtain ⟨k₀, v₀⟩ := p
    by_cases h : k₀ = k
    · simp [get?, keys, h]
    · simp only [get?, h, if_false, ih, keys, List.map_cons, List.mem_cons]
      exact ⟨Or.inr, fun e => e.resolve_left (fun e => h e.symm)⟩

theorem mem_of_get? {k : κ} {v : α} {s : Slots κ α} (h : get? k s = some v) : (k, v) ∈ s := by
  induction s with
  | nil => cases h
  | cons p rest ih =>
    obtain ⟨k₀, v₀⟩ := p
    rw [get?] at h
    split at h
    · rename_i hk
      cases h
      exact hk ▸ List.mem_cons_self
    · exact List.mem_cons_of_mem _ (ih h)

/-- A known key keeps its place, a new one goes to the end. -/
theorem keys_put (k : κ) (v : α) (s : Slots κ α) :
    keys (put k v s) = if k ∈ keys s then keys s else keys s ++ [k] := by
  induction s with
  | nil => simp [put, keys]
  | cons p rest ih =>
    obtain ⟨k₀, v₀⟩ := p
    by_cases h : k₀ = k
    · subst h; simp [put, keys]
    · have h' : k ≠ k₀ := fun e => h e.symm
      simp only [keys] at ih
      by_cases hm : k ∈ List.map Prod.fst rest <;> simp [put, keys, h, h', ih, hm]

theorem keys_put_nodup {k : κ} {v : α} {s : Slots κ α} (h : (keys s).Nodup) :
    (keys (put k v s)).Nodup := by
  rw [keys_put]
  split
  · exact h
  · rename_i hk
    rw [List.nodup_append]
    exact ⟨h, by simp, fun a ha b hb => by simp at hb; subst hb; exact fun e => hk (e ▸ ha)⟩

theorem put_of_notMem {k : κ} {s : Slots κ α} (v : α) (h : k ∉ keys s) : put k v s = s ++ [(k, v)] := by
  induction s with
  | nil => rfl
  | cons p rest ih =>
    simp only [keys, List.map_cons, List.mem_cons, not_or] at h
    simp [put, Ne.symm h.1, ih h.2]

/-- In slots without repeats, a known key gets its value at its only place. -/
theorem put_of_getElem? {k : κ} {v₀ : α} {s : Slots κ α} {i : Nat} (v : α) (hs : (keys s).Nodup)
    (h : s[i]? = some (k, v₀)) : put k v s = s.set i (k, v) := by
  induction s generalizing i with
  | nil => simp at h
  | cons p rest ih =>
    obtain ⟨k', v'⟩ := p
    simp only [keys, List.map_cons, List.nodup_cons] at hs
    cases i with
    | zero => simp at h; simp [put, h.1]
    | succ i =>
      have hk : k' ≠ k := fun e =>
        hs.1 (e ▸ List.mem_map.2 ⟨_, List.mem_of_getElem? (by simpa using h), rfl⟩)
      simp [put, hk, ih hs.2 (by simpa using h)]

/-- In slots without repeats, `put` changes the value of one key only. -/
theorem getElem?_put {k k' : κ} {v v' : α} {s : Slots κ α} {i : Nat} (hs : (keys s).Nodup)
    (h : (put k v s)[i]? = some (k', v')) :
    k' = k ∧ v' = v ∨ k' ≠ k ∧ s[i]? = some (k', v') := by
  induction s generalizing i with
  | nil =>
    cases i with
    | zero =>
      cases h
      exact .inl ⟨rfl, rfl⟩
    | succ i => simp [put] at h
  | cons p rest ih =>
    obtain ⟨k₀, v₀⟩ := p
    simp only [keys, List.map_cons, List.nodup_cons] at hs
    by_cases hk : k₀ = k
    · subst hk
      rw [put, if_pos rfl] at h
      cases i with
      | zero =>
        cases h
        exact .inl ⟨rfl, rfl⟩
      | succ i =>
        have hmem : k' ∈ keys rest := List.mem_map.2 ⟨_, List.mem_of_getElem? h, rfl⟩
        exact .inr ⟨fun heq => hs.1 (heq ▸ hmem), h⟩
    · rw [put, if_neg hk] at h
      cases i with
      | zero =>
        cases h
        exact .inr ⟨hk, rfl⟩
      | succ i => exact ih hs.2 h

/-- In slots without repeats, a look-up finds every pair. -/
theorem get?_eq_some_iff {s : Slots κ α} (hs : (keys s).Nodup) {k : κ} {v : α} :
    get? k s = some v ↔ (k, v) ∈ s := by
  induction s with
  | nil => simp [get?]
  | cons p rest ih =>
    obtain ⟨k', v'⟩ := p
    simp only [keys, List.map_cons, List.nodup_cons] at hs
    by_cases h : k' = k
    · subst h
      have : (k', v) ∉ rest := fun m => hs.1 (List.mem_map.2 ⟨_, m, rfl⟩)
      simp [get?, this, eq_comm]
    · simp [get?, h, Ne.symm h, ih hs.2]

/-- In slots without repeats, the pair that a look-up finds is the only one with its key. -/
theorem filter_key {s : Slots κ α} (hs : (keys s).Nodup) (k : κ) :
    s.filter (·.1 = k) = ((get? k s).map (k, ·)).toList := by
  induction s with
  | nil => rfl
  | cons p rest ih =>
    obtain ⟨k', v⟩ := p
    simp only [keys, List.map_cons, List.nodup_cons] at hs
    by_cases h : k' = k
    · subst h
      have hnone : get? k' rest = none := by
        rw [← Option.not_isSome_iff_eq_none, get?_isSome_iff]
        exact hs.1
      have hrest := ih hs.2
      rw [hnone] at hrest
      rw [List.filter_cons_of_pos (by simp), hrest, get?, if_pos rfl]
      rfl
    · rw [List.filter_cons_of_neg (by simpa using h), ih hs.2, get?, if_neg h]

end Slots

end ErrorHints

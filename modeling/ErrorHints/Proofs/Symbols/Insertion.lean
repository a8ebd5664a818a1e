import ErrorHints.Distinct
import ErrorHints.Symbols.Tier

/-!
# What a tier holds after names were bound in it

A tier is filled name by name. It holds the first `maxBindings` different names in the order in
which they came, each with the value that it was bound to last, and a name that came too late is
never held. Its index gives the place of each name; so a name that is bound again gets its value
in a place that exists.

Binding one more pair is one of the two cases of `Tier.slots_bind`: the pair goes to the slots, or
it changes nothing.

Results:
* `Holds.run`: what a tier holds is told by the pairs that were bound in it, in their order.
* `keys_ofPairs_append`: a name that came too late is not held later on either.
* `ofPairs_holds`: the tier after any list of pairs.
-/
namespace ErrorHints.Tier

variable {t : Tier} {past : List (String × Value)}

/-- What a tier holds after the pairs of `past` were bound in it, one after the other: the first
different names, and their last values. -/
structure Holds (past : List (String × Value)) (t : Tier) : Prop where
  keys_eq : t.slots.keys = (past.map Prod.fst).eraseDups.take maxBindings
  get?_eq : ∀ n ∈ t.slots.keys, t.get? n = past.reverse.lookup n

theorem holds_empty (level : Level) : Holds [] (empty level) where
  keys_eq := by simp [empty, slots, Slots.keys]
  get?_eq := by simp [empty, slots, Slots.keys]

/-! ## One more pair -/

/-- A name that is held, or for which there is room, is held with its new value. -/
theorem get?_bind (t : Tier) (n m : String) (v : Value) (hm : m ∈ (t.bind n v).slots.keys) :
    (t.bind n v).get? m = if n = m then some v else t.get? m := by
  rw [slots_bind] at hm
  rw [get?_eq, get?_eq, slots_bind]
  split
  · exact Slots.get?_put n m v t.slots
  · next h =>
    rw [if_neg h] at hm
    have hne : n ≠ m := fun heq => h (.inl (heq ▸ hm))
    rw [if_neg hne]

theorem keys_bind (t : Tier) (n : String) (v : Value) :
    (t.bind n v).slots.keys =
      if n ∈ t.slots.keys ∨ maxBindings ≤ t.slots.keys.length then t.slots.keys
      else t.slots.keys ++ [n] := by
  have hsize : t.slots.keys.length = t.size := by simp [Slots.keys, slots, size]
  rw [slots_bind, hsize]
  by_cases hn : n ∈ t.slots.keys
  · rw [if_pos (.inl hn), if_pos (.inl hn), Slots.keys_put, if_pos hn]
  · by_cases hroom : t.size < maxBindings
    · rw [if_pos (.inr hroom), Slots.keys_put, if_neg hn,
        if_neg (not_or.2 ⟨hn, Nat.not_le_of_lt hroom⟩)]
    · rw [if_neg (not_or.2 ⟨hn, hroom⟩), if_pos (.inr (Nat.not_lt.1 hroom))]

theorem Holds.bind (h : Holds past t) (n : String) (v : Value) :
    Holds (past ++ [(n, v)]) (t.bind n v) where
  keys_eq := by
    rw [keys_bind, h.keys_eq, List.map_append, List.map_singleton, take_eraseDups_concat]
  get?_eq := by
    intro m hm
    rw [get?_bind t n m v hm, List.reverse_concat, List.lookup_cons]
    by_cases hn : n = m
    · simp [hn]
    · have hbeq : (m == n) = false := by simpa using Ne.symm hn
      rw [if_neg hn, hbeq]
      refine h.get?_eq m ?_
      rw [keys_bind] at hm
      split at hm
      · exact hm
      · exact (List.mem_append.1 hm).resolve_right (by simpa using Ne.symm hn)

/-- Any number of pairs. -/
theorem Holds.run (h : Holds past t) (pairs : List (String × Value)) :
    Holds (past ++ pairs) (pairs.foldl (fun t p => t.bind p.1 p.2) t) := by
  induction pairs generalizing past t with
  | nil => simpa using h
  | cons p pairs ih =>
    have hrest := ih (h.bind p.1 p.2)
    rw [List.append_assoc] at hrest
    exact hrest

/-! ## The whole tier -/

variable {level : Level} {pairs : List (String × Value)}

theorem holds_ofPairs (level : Level) (pairs : List (String × Value)) :
    Holds pairs (ofPairs level pairs) := (holds_empty level).run pairs

/-- A tier that drops a name is full, and holds the same names ever after. -/
theorem keys_ofPairs_append {n : String} (hn : n ∈ pairs.map Prod.fst)
    (hdropped : n ∉ (ofPairs level pairs).slots.keys) (later : List (String × Value)) :
    (ofPairs level (pairs ++ later)).slots.keys = (ofPairs level pairs).slots.keys := by
  rw [(holds_ofPairs level pairs).keys_eq] at hdropped ⊢
  rw [(holds_ofPairs level (pairs ++ later)).keys_eq, List.map_append]
  refine take_eraseDups_append (Nat.not_lt.1 fun hroom => hdropped ?_) _
  rw [take_eraseDups_of_room hroom]
  exact List.mem_eraseDups.2 hn

/-- Whatever pairs are bound in a new tier: the index gives a name the place in which the name
stands, which is a place that exists, and no name stands in two places. The names are the first
4096 different ones, in the order in which they came. Each of them has the value that it
was bound to last, be it after the tier was full, and no other name has a value. A name that came
too late is not held later on either, however often it is bound again. -/
theorem ofPairs_holds (level : Level) (pairs : List (String × Value)) :
    let t := ofPairs level pairs
    let names := (pairs.map Prod.fst).eraseDups.take 4096
    (∀ (n : String) (i : Nat), t.index[n]? = some i ↔ ∃ v, t.entries[i]? = some (n, v)) ∧
    (∀ (n : String) (i : Nat), t.index[n]? = some i → i < t.entries.size) ∧
    t.slots.keys.Nodup ∧
    t.slots.keys = names ∧
    (∀ n, t.get? n = if n ∈ names then pairs.reverse.lookup n else none) ∧
    (∀ n, t.contains n = true ↔ n ∈ names) ∧
    ∀ n ∈ pairs.map Prod.fst, n ∉ names → ∀ later,
      (ofPairs level (pairs ++ later)).contains n = false := by
  intro t names
  have h : Holds pairs t := holds_ofPairs level pairs
  have hnames : t.slots.keys = names := h.keys_eq
  refine ⟨fun n i => ?_, fun n i => t.index_lt, t.nodup_keys_slots, hnames, fun n => ?_,
    fun n => ?_, fun n hn hdropped later => ?_⟩
  · rw [t.index_eq, Option.map_eq_some_iff]
    constructor
    · rintro ⟨⟨n', v⟩, hi, rfl⟩
      exact ⟨v, hi⟩
    · rintro ⟨v, hi⟩
      exact ⟨(n, v), hi, rfl⟩
  · split
    · next hn => exact h.get?_eq n (hnames ▸ hn)
    · next hn =>
      rw [← Option.not_isSome_iff_eq_none, t.get?_eq, Slots.get?_isSome_iff, hnames]
      exact hn
  · rw [t.contains_iff, hnames]
  · rw [← hnames] at hdropped
    rw [Bool.eq_false_iff, ne_eq, contains_iff, keys_ofPairs_append hn hdropped]
    exact hdropped

end ErrorHints.Tier

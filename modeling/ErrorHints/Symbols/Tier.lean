import ErrorHints.Slots
import ErrorHints.Symbols.Value
import Std.Data.HashMap

/-!
# Tiers of bindings

The names visible where a failure happened come in tiers, one per level of
visibility. A tier keeps its bindings in order of first insertion and finds a
name through a hash index; it holds at most `maxBindings` names, and a new name
that comes after those is dropped. The view `slots` is what the lemmas speak of.

Results:
* `get?_eq`: a look-up through the index answers from the slots.
* `slots_bind`: a bound name keeps its place, a new one goes to the end while
  there is room.
-/
namespace ErrorHints

/-- Levels of visibility, nearest first. -/
inductive Level where
  | localNames | globalNames | builtinNames
  deriving DecidableEq, Repr, Inhabited

namespace Level

def all : List Level := [localNames, globalNames, builtinNames]

def tag : Level → String
  | localNames => "local"
  | globalNames => "global"
  | builtinNames => "builtin"

def ofTag? (t : String) : Option Level := all.find? (·.tag == t)

theorem ofTag?_tag (l : Level) : ofTag? l.tag = some l := by cases l <;> decide

end Level

/-- A name, the level it is visible on, and its value. -/
structure Binding where
  name : String
  level : Level
  value : Value

/-- Names kept in one tier, at most. -/
def maxBindings : Nat := 4096

/-- The bindings of one level. -/
structure Tier where
  level : Level
  /-- The bindings, in order of first insertion. -/
  entries : Array (String × Value) := #[]
  /-- The place of each bound name. -/
  index : Std.HashMap String Nat := ∅
  /-- The index gives the places where the names stand. -/
  index_eq : ∀ (n : String) (i : Nat), index[n]? = some i ↔ entries[i]?.map Prod.fst = some n := by
    intros; simp

namespace Tier

/-- A tier without bindings. -/
def empty (level : Level) : Tier := { level }

/-- The bindings as slots. -/
def slots (t : Tier) : Slots String Value := t.entries.toList

def size (t : Tier) : Nat := t.entries.size

def isEmpty (t : Tier) : Bool := t.entries.isEmpty

theorem index_lt (t : Tier) {n : String} {i : Nat} (h : t.index[n]? = some i) :
    i < t.entries.size := by
  have := (t.index_eq n i).1 h
  rw [Option.map_eq_some_iff] at this
  obtain ⟨_, hi, _⟩ := this
  exact (Array.getElem?_eq_some_iff.1 hi).1

/-- The value bound to a name. -/
def get? (t : Tier) (name : String) : Option Value :=
  t.index[name]?.bind fun i => t.entries[i]?.map Prod.snd

def contains (t : Tier) (name : String) : Bool := t.index.contains name

/-- Bind a name: in place if it is bound already, else at the end if there is room. -/
def bind (t : Tier) (name : String) (value : Value) : Tier :=
  match h : t.index[name]? with
  | some i =>
    have hi := t.index_lt h
    { t with
      entries := t.entries.set i (name, value)
      index_eq := by
        intro n j
        rw [t.index_eq, Array.getElem?_set]
        have hn := (t.index_eq name i).1 h
        split
        · rename_i e; subst e; simp [hn]
        · rfl }
  | none =>
    if t.entries.size < maxBindings then
      { t with
        entries := t.entries.push (name, value)
        index := t.index.insert name t.entries.size
        index_eq := by
          intro n j
          rw [Std.HashMap.getElem?_insert, Array.getElem?_push]
          by_cases hn : name = n
          · subst hn
            by_cases hj : j = t.entries.size
            · simp [hj]
            · have := t.index_eq name j
              simp only [h, reduceCtorEq, false_iff] at this
              simp [hj, this, Ne.symm hj]
          · by_cases hj : j = t.entries.size
            · subst hj
              have := t.index_eq n t.entries.size
              simp [hn, this]
            · simp [hn, hj, t.index_eq] }
    else t

/-- The tier after binding pairs one after the other. -/
def ofPairs (level : Level) (pairs : List (String × Value)) : Tier :=
  pairs.foldl (fun t p => t.bind p.1 p.2) (empty level)

/-- The binding of a name. -/
def binding? (t : Tier) (name : String) : Option Binding :=
  (t.get? name).map fun value => { name, level := t.level, value }

/-- The bindings, in order of first insertion. -/
def bindings (t : Tier) : List Binding :=
  t.slots.map fun p => { name := p.1, level := t.level, value := p.2 }

/-! ## The view by slots -/

theorem contains_iff (t : Tier) (n : String) : t.contains n = true ↔ n ∈ Slots.keys t.slots := by
  rw [contains, Std.HashMap.contains_eq_isSome_getElem?, Option.isSome_iff_exists]
  simp only [t.index_eq, Slots.keys, slots, List.mem_map, Option.map_eq_some_iff]
  constructor
  · rintro ⟨i, p, hi, rfl⟩
    exact ⟨p, Array.mem_toList_iff.2 (Array.mem_of_getElem? hi), rfl⟩
  · rintro ⟨p, hp, rfl⟩
    obtain ⟨i, hi⟩ := Array.getElem?_of_mem (Array.mem_toList_iff.1 hp)
    exact ⟨i, p, hi, rfl⟩

/-- No name stands at two places. -/
theorem nodup_keys_slots (t : Tier) : (Slots.keys t.slots).Nodup := by
  rw [List.Nodup, List.pairwise_iff_getElem]
  intro i j hi hj hij e
  simp only [Slots.keys, slots, List.getElem_map, Array.getElem_toList, List.length_map,
    Array.length_toList] at e hi hj
  have h₁ := (t.index_eq t.entries[i].1 i).2 (by simp [hi])
  have h₂ := (t.index_eq t.entries[i].1 j).2 (by simp [hj, e])
  rw [h₁] at h₂
  exact absurd (Option.some.inj h₂) (by omega)

theorem get?_eq (t : Tier) (n : String) : t.get? n = Slots.get? n t.slots := by
  ext v
  rw [Slots.get?_eq_some_iff t.nodup_keys_slots, get?, Option.bind_eq_some_iff]
  simp only [t.index_eq, Option.map_eq_some_iff, slots, Array.mem_toList_iff,
    Array.mem_iff_getElem?]
  constructor
  · rintro ⟨i, ⟨p, hp, rfl⟩, q, hq, rfl⟩
    rw [hp] at hq
    cases hq
    exact ⟨i, hp⟩
  · rintro ⟨i, hi⟩
    exact ⟨i, ⟨_, hi, rfl⟩, _, hi, rfl⟩

/-- A bound name gets its value in place; a new one goes to the end while there is room. -/
theorem slots_bind (t : Tier) (n : String) (v : Value) :
    (t.bind n v).slots =
      if n ∈ Slots.keys t.slots ∨ t.size < maxBindings then t.slots.put n v else t.slots := by
  unfold bind
  split
  · rename_i i h
    have hn := (t.index_eq n i).1 h
    rw [Option.map_eq_some_iff] at hn
    obtain ⟨p, hp, rfl⟩ := hn
    have hm : p.1 ∈ Slots.keys t.slots :=
      List.mem_map.2 ⟨p, Array.mem_toList_iff.2 (Array.mem_of_getElem? hp), rfl⟩
    rw [if_pos (Or.inl hm), Slots.put_of_getElem? v t.nodup_keys_slots
      (by rw [slots, Array.getElem?_toList]; exact hp)]
    simp [slots]
  · rename_i h
    have hm : n ∉ Slots.keys t.slots := by
      rw [← contains_iff, contains, Std.HashMap.contains_eq_isSome_getElem?, h]
      simp
    simp only [hm, false_or, size]
    split
    · rw [Slots.put_of_notMem v hm]
      simp [slots]
    · rfl

theorem slots_bind_empty (level : Level) (n : String) (v : Value) :
    ((empty level).bind n v).slots = [(n, v)] := by
  have hroom : (empty level).size < maxBindings := Nat.zero_lt_succ _
  rw [slots_bind, if_pos (.inr hroom)]
  rfl

@[simp]
theorem level_bind (t : Tier) (n : String) (v : Value) : (t.bind n v).level = t.level := by
  unfold bind
  split
  · rfl
  · split <;> rfl

end Tier

end ErrorHints

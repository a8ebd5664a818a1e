import ErrorHints.Kind
import Std.Data.HashMap

/-!
# Index by kind

Things that are kept in a list and filed under kinds are found through the
places they have in that list. Places are filed in the order in which they are
added, so a look-up keeps the order of the list.

Results:
* `places_add`: a place goes to the end of its own kind's places and of no other's.
-/
namespace ErrorHints

/-- The places filed under each kind. -/
structure KindIndex where
  byKind : Std.HashMap Kind (Array Nat) := ∅

namespace KindIndex

/-- Nothing filed. -/
def empty : KindIndex := {}

/-- The places filed under `k`, in order. -/
def places (idx : KindIndex) (k : Kind) : List Nat := (idx.byKind.getD k #[]).toList

/-- File a place under `k`. -/
def add (idx : KindIndex) (k : Kind) (place : Nat) : KindIndex :=
  ⟨idx.byKind.insert k ((idx.byKind.getD k #[]).push place)⟩

/-- Whether anything is filed under `k`. -/
def contains (idx : KindIndex) (k : Kind) : Bool := idx.byKind.contains k

/-- The number of kinds with something filed under them. -/
def kindCount (idx : KindIndex) : Nat := idx.byKind.size

@[simp]
theorem places_empty (k : Kind) : empty.places k = [] := by simp [empty, places]

@[simp]
theorem contains_empty (k : Kind) : empty.contains k = false := by simp [empty, contains]

theorem places_add (idx : KindIndex) (k k' : Kind) (place : Nat) :
    (idx.add k place).places k' = if k = k' then idx.places k ++ [place] else idx.places k' := by
  by_cases h : k = k'
  · subst h; simp [places, add]
  · simp [places, add, Std.HashMap.getD_insert, h]

theorem contains_add (idx : KindIndex) (k k' : Kind) (place : Nat) :
    (idx.add k place).contains k' = (decide (k = k') || idx.contains k') := by
  rw [Bool.eq_iff_iff]
  simp [contains, add, Std.HashMap.contains_insert]

/-- Adding to the end of an array changes nothing at places that it has already. -/
theorem filterMap_push {α : Type} (places : List Nat) (xs : Array α) (x : α)
    (h : ∀ i ∈ places, i < xs.size) :
    places.filterMap ((xs.push x)[·]?) = places.filterMap (xs[·]?) := by
  induction places with
  | nil => rfl
  | cons i is ih =>
    have hi := h i List.mem_cons_self
    have := ih fun j hj => h j (List.mem_cons_of_mem _ hj)
    rw [List.filterMap_cons, List.filterMap_cons, this, Array.getElem?_push,
      if_neg (Nat.ne_of_lt hi)]

end KindIndex

end ErrorHints

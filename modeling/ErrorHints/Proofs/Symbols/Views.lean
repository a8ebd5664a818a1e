import ErrorHints.Symbols.Environment
import Mathlib.Data.List.Basic

/-!
# The views of an environment

What is bound can be seen in two ways: as the list of all bindings, tier after tier, and name by
name. A look-up goes through the index of each tier and the list through its places, but both show
the same bindings in the same order. So the nearest binding of a name is the first in the list
that has it, and its level is the one that the name is listed with.

Results:
* `lookup_eq_filter`: a look-up finds the bindings that have the name.
* `nearest?_eq_find?`: the nearest binding is the first of them.
* `mem_boundNames_iff`: a bound name is listed with the level of its nearest binding.
* `forall₂_lookup`: a look-up goes through the tiers that bind the name.
* `views_agree`: all views of an environment agree.
-/
namespace ErrorHints

/-- The binding of a name is the only one in its tier that has the name. -/
theorem Tier.filter_bindings (t : Tier) (n : String) :
    t.bindings.filter (·.name = n) = (t.binding? n).toList := by
  have hslots := Slots.filter_key t.nodup_keys_slots n
  rw [bindings, List.filter_map, binding?, get?_eq]
  show List.map _ (t.slots.filter (·.1 = n)) = _
  rw [hslots]
  cases Slots.get? n t.slots <;> rfl

/-- The index knows the names that the tier lists. -/
theorem Tier.contains_iff_mem_bindings (t : Tier) (n : String) :
    t.contains n = true ↔ n ∈ t.bindings.map Binding.name := by
  rw [contains_iff, bindings, List.map_map]
  rfl

/-- What a function finds in a list, beside the elements in which it finds something. -/
theorem forall₂_filter_filterMap {α β : Type} {r : α → β → Prop} {f : α → Option β}
    (h : ∀ x y, f x = some y → r x y) (xs : List α) :
    List.Forall₂ r (xs.filter fun x => (f x).isSome) (xs.filterMap f) := by
  induction xs with
  | nil => exact .nil
  | cons x xs ih =>
    cases hx : f x with
    | none =>
      rw [List.filter_cons_of_neg (by simp [hx]), List.filterMap_cons_none hx]
      exact ih
    | some y =>
      rw [List.filter_cons_of_pos (by simp [hx]), List.filterMap_cons_some hx]
      exact .cons (h x y hx) ih

namespace Environment

variable (env : Environment) (n : String)

theorem lookup_eq_filter : env.lookup n = env.bindings.filter (·.name = n) := by
  rw [lookup, bindings, List.filter_flatMap, List.filterMap_eq_flatMap_toList]
  simp only [Tier.filter_bindings]

theorem nearest?_eq_find? : env.nearest? n = env.bindings.find? (·.name = n) := by
  rw [nearest?, lookup_eq_filter, List.head?_filter]

theorem mem_boundNames_iff (l : Level) :
    (n, l) ∈ env.boundNames ↔ ∃ b, env.nearest? n = some b ∧ b.level = l := by
  simp only [boundNames, List.mem_map, mem_distinctOn_iff, nearest?_eq_find?, Prod.mk.injEq]
  constructor
  · rintro ⟨b, hb, rfl, rfl⟩
    exact ⟨b, hb, rfl⟩
  · rintro ⟨b, hb, rfl⟩
    obtain rfl : b.name = n := by simpa using List.find?_some hb
    exact ⟨b, hb, rfl, rfl⟩

/-- A look-up goes through the tiers that bind the name, and finds in each of them the only
binding listed there that has the name. -/
theorem forall₂_lookup :
    List.Forall₂ (fun t b => t.bindings.filter (·.name = n) = [b])
      (env.tiers.filter (·.contains n)) (env.lookup n) := by
  have hfound : ∀ (t : Tier) (b : Binding), t.binding? n = some b →
      t.bindings.filter (·.name = n) = [b] := by
    intro t b hb
    rw [t.filter_bindings, hb, Option.toList_some]
  have h := forall₂_filter_filterMap hfound env.tiers
  simp only [binding?_isSome] at h
  exact h

theorem isBound_iff_lookup_ne_nil : env.isBound n = true ↔ env.lookup n ≠ [] := by
  rw [ne_eq, lookup_eq_nil_iff, Bool.not_eq_false]

theorem isBound_iff_mem_boundNames :
    env.isBound n = true ↔ n ∈ env.boundNames.map Prod.fst := by
  rw [mem_boundNames, isBound, List.any_eq_true, bindings, List.map_flatMap, List.mem_flatMap]
  simp only [Tier.contains_iff_mem_bindings]

/-- Whatever is bound in the tiers, and on whatever levels these are: a look-up finds one binding
for each tier that binds the name, in the order of the tiers, and it is the one that the tier
lists for the name. A name is bound exactly if a look-up finds something, and exactly if it is
among the bound names. The bound names are the different names of all bindings in the order of
their first appearance, and each is listed with the level of the first binding that a look-up
finds. -/
theorem views_agree :
    (∀ t ∈ env.tiers, (t.contains n = true ↔ n ∈ t.bindings.map Binding.name)) ∧
    List.Forall₂ (fun t b => t.bindings.filter (·.name = n) = [b])
      (env.tiers.filter (·.contains n)) (env.lookup n) ∧
    (env.isBound n = true ↔ env.lookup n ≠ []) ∧
    (env.isBound n = true ↔ n ∈ env.boundNames.map Prod.fst) ∧
    (env.boundNames.map Prod.fst).Nodup ∧
    env.boundNames.map Prod.fst = (env.bindings.map Binding.name).eraseDups ∧
    ∀ l, (n, l) ∈ env.boundNames ↔ (env.lookup n).head?.map Binding.level = some l := by
  refine ⟨fun t _ => t.contains_iff_mem_bindings n, env.forall₂_lookup n,
    env.isBound_iff_lookup_ne_nil n, env.isBound_iff_mem_boundNames n, env.nodup_boundNames,
    ?_, fun l => ?_⟩
  · rw [boundNames, List.map_map]
    exact map_distinctOn Binding.name env.bindings
  · rw [mem_boundNames_iff, nearest?, Option.map_eq_some_iff]

end Environment

end ErrorHints

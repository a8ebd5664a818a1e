import ErrorHints.Knowledge.Basic
import Mathlib.Data.List.Basic
import Mathlib.Data.List.Induction

/-!
# Synonyms

Sets of synonyms may overlap, repeat one another and repeat their members. Two attributes are
synonyms if they differ and some set has both. That does not depend on which of the two is asked
for, nor on the order of the sets. The answer goes by the order of the sets.

Results:
* `pairwise_idxOf_distinct`: elements that are kept are in the order of their first occurrences.
* `synonymsOf_spec`: the synonyms of an attribute, and their order.
-/
namespace ErrorHints

/-- Of some elements of a list, each different one is kept where the list has it first. -/
theorem pairwise_idxOf_distinct {κ : Type} [DecidableEq κ] [Hashable κ]
    (keep : κ → Bool) (xs : List κ) :
    (distinct (xs.filter keep)).Pairwise fun a b => xs.idxOf a < xs.idxOf b := by
  -- one more element at the end does not move the ones before it
  induction xs using List.reverseRecOn with
  | nil => exact List.Pairwise.nil
  | append_singleton xs x ih =>
    have hmem {a : κ} (ha : a ∈ distinct (xs.filter keep)) : a ∈ xs :=
      List.mem_of_mem_filter ((mem_distinct _ a).1 ha)
    have hold : (distinct (xs.filter keep)).Pairwise fun a b =>
        (xs ++ [x]).idxOf a < (xs ++ [x]).idxOf b := by
      refine ih.imp_of_mem fun {a b} ha hb h => ?_
      rwa [List.idxOf_append_of_mem (hmem ha), List.idxOf_append_of_mem (hmem hb)]
    rw [List.filter_append, List.filter_singleton]
    by_cases hx : keep x
    · have hconcat := distinctOn_concat id (xs.filter keep) x
      rw [List.map_id] at hconcat
      rw [hx, cond_true, distinct, hconcat]
      split
      · rwa [List.append_nil]
      · rename_i hnew
        have hx : x ∉ xs := fun h => hnew (List.contains_iff_mem.2 (List.mem_filter.2 ⟨h, hx⟩))
        refine List.pairwise_append.2 ⟨hold, List.pairwise_singleton _ _, fun a ha b hb => ?_⟩
        obtain rfl := List.mem_singleton.1 hb
        rw [List.idxOf_append_of_mem (hmem ha), List.idxOf_append_of_notMem hx]
        have := List.idxOf_lt_length_of_mem (hmem ha)
        omega
    · rw [Bool.not_eq_true] at hx
      rwa [hx, cond_false, List.append_nil]

namespace Knowledge

/-- The members of the sets that an attribute belongs to, one set after the other. -/
def associates (k : Knowledge) (attr : String) : List String :=
  (k.synonymSets.filter (·.contains attr)).flatten

/-- Whether two attributes are synonyms is for the sets to say, in whatever order they are. -/
theorem mem_synonymsOf_congr {k k' : Knowledge}
    (h : ∀ set, set ∈ k.synonymSets ↔ set ∈ k'.synonymSets) (attr other : String) :
    other ∈ k.synonymsOf attr ↔ attr ∈ k'.synonymsOf other := by
  simp only [mem_synonymsOf, h]
  exact and_congr ne_comm (exists_congr fun _ => and_congr_right fun _ => and_comm)

/-- The synonyms of an attribute are the other members of its sets, each once, in the order in which
the sets have them first. It is a synonym of them in turn, also if the sets are put in another
order. -/
theorem synonymsOf_spec (k : Knowledge) (attr : String) :
    attr ∉ k.synonymsOf attr ∧
    (k.synonymsOf attr).Nodup ∧
    (∀ other, other ∈ k.synonymsOf attr ↔
      other ≠ attr ∧ ∃ set ∈ k.synonymSets, attr ∈ set ∧ other ∈ set) ∧
    (k.synonymsOf attr).Pairwise (fun a b =>
      (k.associates attr).idxOf a < (k.associates attr).idxOf b) ∧
    ∀ k' : Knowledge, k'.synonymSets.Perm k.synonymSets →
      ∀ other, other ∈ k.synonymsOf attr ↔ attr ∈ k'.synonymsOf other := by
  refine ⟨fun h => ((k.mem_synonymsOf attr attr).1 h).1 rfl, k.nodup_synonymsOf attr,
    k.mem_synonymsOf attr, pairwise_idxOf_distinct (· != attr) (k.associates attr),
    fun k' hperm other => ?_⟩
  exact mem_synonymsOf_congr (fun set => hperm.mem_iff.symm) attr other

end Knowledge

end ErrorHints

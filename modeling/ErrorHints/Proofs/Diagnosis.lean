import ErrorHints.Engine

/-!
# Diagnosis

What an engine does to a report, whatever its grammar, its strategies and its knowledge are
and however the strategies end: it puts one suffix at the end of every text and moves the
report on, or it leaves an annotated report alone. The suffix depends on the kind and the
message of the report and on nothing else of it, so a second diagnosis finds nothing to add.

Results:
* `diagnose_diagnose`: a second diagnosis adds nothing.
* `diagnose_appends`: diagnosis appends one suffix, can be undone, and is done once.
-/
namespace ErrorHints

namespace Engine

variable (e : Engine) (r : Report) (symbols : Environment) (host : Host)

/-- The suffix is chosen by the kind and the message. -/
theorem suffix_congr {r r' : Report} (hk : r.kind = r'.kind) (hm : r.message = r'.message) :
    e.suffix r symbols host = e.suffix r' symbols host := by
  unfold suffix
  rw [hk, hm]

variable {r}

/-- A diagnosis marks the report, or has found nothing to add and changes the stage only. -/
theorem diagnose_marks_or_keeps :
    (e.diagnose r symbols host).stage = .annotated ∨
      e.suffix r symbols host = "" ∧
        e.diagnose r symbols host = { r with stage := .suggested } := by
  by_cases h : r.stage = .annotated
  · rw [e.diagnose_of_annotated symbols host h]
    exact .inl h
  · rw [e.diagnose_eq symbols host h]
    by_cases hs : e.suffix r symbols host = ""
    · rw [hs, if_pos rfl, Report.appendToFacets_empty]
      exact .inr ⟨rfl, rfl⟩
    · rw [if_neg hs]
      exact .inl rfl

/-- A second diagnosis by the same engine, among the same symbols and files, adds nothing. -/
theorem diagnose_diagnose :
    e.diagnose (e.diagnose r symbols host) symbols host = e.diagnose r symbols host := by
  rcases e.diagnose_marks_or_keeps (r := r) symbols host with h | ⟨hs, h⟩
  · exact e.diagnose_of_annotated symbols host h
  · have hs' : e.suffix { r with stage := .suggested } symbols host = "" :=
      (e.suffix_congr symbols host rfl rfl).trans hs
    have hst : Stage.suggested ≠ .annotated := by decide
    rw [h, e.diagnose_eq symbols host hst, hs', if_pos rfl, Report.appendToFacets_empty]

theorem strip_facets_diagnose (h : r.stage ≠ .annotated) :
    (e.diagnose r symbols host).facets.map (Suffix.strip · (e.suffix r symbols host)) =
      r.facets := by
  rw [e.facets_diagnose symbols host h, List.map_map]
  exact (List.map_congr_left fun t _ => Suffix.strip_append t _).trans (List.map_id _)

variable (r)

/-- Diagnosis leaves an annotated report alone. Any other report gets one suffix at the end of
every text, which can be stripped off again, and is annotated exactly if the suffix is not
empty. Nothing is left to do for a second diagnosis, nor for any other engine after an
annotation. -/
theorem diagnose_appends :
    (r.stage = .annotated → e.diagnose r symbols host = r) ∧
    (r.stage ≠ .annotated → ∃ s : String,
      (e.diagnose r symbols host).message = r.message ++ s ∧
      (e.diagnose r symbols host).auxiliary = r.auxiliary.map (fun a => (a.1, a.2 ++ s)) ∧
      (e.diagnose r symbols host).auxiliary.keys = r.auxiliary.keys ∧
      (e.diagnose r symbols host).kind = r.kind ∧
      (e.diagnose r symbols host).stage = (if s = "" then .suggested else .annotated) ∧
      (e.diagnose r symbols host).facets.map (Suffix.strip · s) = r.facets) ∧
    e.diagnose (e.diagnose r symbols host) symbols host = e.diagnose r symbols host ∧
    ((e.diagnose r symbols host).stage = .annotated →
      ∀ (e' : Engine) (symbols' : Environment) (host' : Host),
        e'.diagnose (e.diagnose r symbols host) symbols' host' = e.diagnose r symbols host) := by
  refine ⟨e.diagnose_of_annotated symbols host, fun h => ⟨e.suffix r symbols host, ?_⟩,
    e.diagnose_diagnose symbols host, fun h e' symbols' host' =>
      e'.diagnose_of_annotated symbols' host' h⟩
  have hstrip := e.strip_facets_diagnose symbols host h
  rw [e.diagnose_eq symbols host h] at hstrip ⊢
  refine ⟨rfl, rfl, ?_, rfl, rfl, hstrip⟩
  simp only [Slots.keys, Report.appendToFacets, List.map_map, Function.comp_def]

end Engine

end ErrorHints

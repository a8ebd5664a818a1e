import ErrorHints.Kind
import ErrorHints.Slots

/-!
# Reports

A report is one captured failure: its kind and every text that shows it (the
message and any number of auxiliary texts, its facets). It moves through the
stages `raw`, `classified`, `suggested` and `annotated`, never back, and it is
annotated at most once.

Results:
* `advance?_eq_some_iff`: a report moves exactly to a later stage.
* `annotate?_eq_some_iff`: a suffix is refused when it is empty or the report
  has one, and goes to the end of every facet otherwise.
-/
namespace ErrorHints

/-- How far a report has come. -/
inductive Stage where
  | raw | classified | suggested | annotated
  deriving DecidableEq, Repr, Inhabited

namespace Stage

/-- Place of a stage in the order. -/
def rank : Stage → Nat
  | raw => 0
  | classified => 1
  | suggested => 2
  | annotated => 3

instance : LT Stage := ⟨fun a b => a.rank < b.rank⟩
instance : LE Stage := ⟨fun a b => a.rank ≤ b.rank⟩

instance (a b : Stage) : Decidable (a < b) := inferInstanceAs (Decidable (a.rank < b.rank))
instance (a b : Stage) : Decidable (a ≤ b) := inferInstanceAs (Decidable (a.rank ≤ b.rank))

theorem lt_def (a b : Stage) : a < b ↔ a.rank < b.rank := Iff.rfl

theorem le_def (a b : Stage) : a ≤ b ↔ a.rank ≤ b.rank := Iff.rfl

theorem le_annotated (s : Stage) : s ≤ annotated := by cases s <;> decide

def all : List Stage := [raw, classified, suggested, annotated]

/-- How a stage is written. -/
def tag : Stage → String
  | raw => "raw"
  | classified => "classified"
  | suggested => "suggested"
  | annotated => "mutated"

def ofTag? (t : String) : Option Stage := all.find? (·.tag == t)

theorem ofTag?_tag (s : Stage) : ofTag? s.tag = some s := by cases s <;> decide

end Stage

/-- A captured failure. -/
structure Report where
  kind : Kind
  /-- The primary message. -/
  message : String
  /-- Further texts that show the failure, by name. -/
  auxiliary : Slots String String := []
  stage : Stage := .raw
  deriving DecidableEq, Repr, Inhabited

namespace Report

/-- A fresh report. -/
def new (kind : Kind) (message : String) : Report := { kind, message }

/-- Add an auxiliary text, or replace the one of that name in place. -/
def withAuxiliary (r : Report) (name text : String) : Report :=
  { r with auxiliary := r.auxiliary.put name text }

/-- The auxiliary text of a given name. -/
def auxiliary? (r : Report) (name : String) : Option String := Slots.get? name r.auxiliary

/-- Every text of the report: the message, then the auxiliary texts in order. -/
def facets (r : Report) : List String := r.message :: r.auxiliary.map Prod.snd

/-- Put `text` at the end of every facet. -/
def appendToFacets (r : Report) (text : String) : Report :=
  { r with
    message := r.message ++ text
    auxiliary := r.auxiliary.map fun slot => (slot.1, slot.2 ++ text) }

def isAnnotated (r : Report) : Bool := r.stage = .annotated

/-- Move on to `next`; refused unless `next` is strictly later. -/
def advance? (r : Report) (next : Stage) : Option Report :=
  if r.stage < next then some { r with stage := next } else none

/-- Move on to `next` if that is later. -/
def advance (r : Report) (next : Stage) : Report := (r.advance? next).getD r

/-- Put `suffix` at the end of every facet and mark the report; refused when
the suffix is empty or the report is marked already. -/
def annotate? (r : Report) (suffix : String) : Option Report :=
  if suffix.isEmpty || r.isAnnotated then none
  else some ((r.appendToFacets suffix).advance .annotated)

/-- Annotate the report if that is possible. -/
def annotate (r : Report) (suffix : String) : Report := (r.annotate? suffix).getD r

/-! ## What the operations do -/

@[simp]
theorem facets_appendToFacets (r : Report) (text : String) :
    (r.appendToFacets text).facets = r.facets.map (· ++ text) := by
  simp [facets, appendToFacets, List.map_map, Function.comp_def]

@[simp]
theorem kind_advance (r : Report) (s : Stage) : (r.advance s).kind = r.kind := by
  unfold advance advance?; split <;> rfl

@[simp]
theorem facets_advance (r : Report) (s : Stage) : (r.advance s).facets = r.facets := by
  unfold advance advance?; split <;> rfl

@[simp]
theorem auxiliary_advance (r : Report) (s : Stage) : (r.advance s).auxiliary = r.auxiliary := by
  unfold advance advance?; split <;> rfl

theorem stage_advance (r : Report) (s : Stage) :
    (r.advance s).stage = if r.stage < s then s else r.stage := by
  unfold advance advance?; split <;> rfl

theorem advance?_eq_some_iff {r r' : Report} {s : Stage} :
    r.advance? s = some r' ↔ r.stage < s ∧ r' = { r with stage := s } := by
  unfold advance?; split <;> simp_all [eq_comm]

theorem annotate?_eq_some_iff {r r' : Report} {suffix : String} :
    r.annotate? suffix = some r' ↔
      suffix ≠ "" ∧ r.stage ≠ .annotated ∧ r' = { r.appendToFacets suffix with stage := .annotated } := by
  have later : r.stage ≠ .annotated → r.stage < Stage.annotated := by
    cases r.stage <;> decide
  unfold annotate?
  by_cases h : suffix = ""
  · simp [h]
  by_cases h' : r.stage = .annotated
  · simp [h', isAnnotated]
  have e : (r.appendToFacets suffix).advance .annotated =
      { r.appendToFacets suffix with stage := .annotated } := by
    simp [advance, advance?, appendToFacets, later h']
  simp only [String.isEmpty_iff, h, isAnnotated, h', decide_false, Bool.or_false, if_false, e,
    Option.some.injEq, ne_eq, not_false_eq_true, true_and]
  exact eq_comm

theorem appendToFacets_empty (r : Report) : r.appendToFacets "" = r := by
  simp [appendToFacets]

/-- A report that is not annotated takes every suffix, but an empty one does not mark it. -/
theorem annotate_eq {r : Report} (h : r.stage ≠ .annotated) (s : String) :
    r.annotate s =
      { r.appendToFacets s with stage := if s = "" then r.stage else .annotated } := by
  unfold annotate
  by_cases hs : s = ""
  · subst hs
    have hnone : r.annotate? "" = none := by simp [annotate?]
    rw [hnone, appendToFacets_empty, if_pos rfl]
    rfl
  · rw [annotate?_eq_some_iff.2 ⟨hs, h, rfl⟩, if_neg hs]
    rfl

/-- Before they are annotated, reports of all stages are moved to the same stage. -/
theorem advance_advance {r : Report} (h : r.stage ≠ .annotated) :
    (r.advance .classified).advance .suggested = { r with stage := .suggested } := by
  obtain ⟨kind, message, auxiliary, stage⟩ := r
  cases stage with
  | raw | classified | suggested => rfl
  | annotated => exact absurd rfl h

end Report

end ErrorHints

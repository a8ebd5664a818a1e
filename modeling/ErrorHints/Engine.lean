import ErrorHints.Grammar.Table
import ErrorHints.Knowledge.Settings
import ErrorHints.Registry
import ErrorHints.Report
import ErrorHints.Suffix

/-!
# The engine

The engine reads the message of a report by its grammar, runs the strategies
for the report's kind, and appends what they propose to every text of the
report, once. A candidate that says what the message already hints at is left
out.

Results:
* `suggest_eq`: the proposals are those of the strategies that finish, in order.
* `diagnose_of_annotated`: a report that is annotated stays as it is.
* `diagnose_eq`: any other report is moved on and receives a suffix.
* `facets_diagnose`: all texts of any other report receive the same suffix.
-/
namespace ErrorHints

structure Engine where
  grammar : Grammar := .standard
  registry : Registry := .standard
  knowledge : Knowledge := .standard
  /-- Suggestions that a report receives, at most. -/
  maxSuggestions : Option Nat := none

namespace Engine

/-- The engine of the standard grammar, strategies and knowledge. -/
def standard : Engine := {}

theorem grammar_standard : standard.grammar = .standard := by rw [standard]

/-! ## Options -/

/-- A cap in JSON: null for none, or an unsigned number. -/
def capOfJson? : Json → Option (Option Nat)
  | .null => some none
  | j => j.unsigned?.map some

/-- The cap in the JSON of an engine's options: an object with no other key, or an
array of at most the cap. -/
def maxSuggestionsOfJson? : Json → Option (Option Nat)
  | .object [] => some none
  | .object [(key, j)] => if key = "max_suggestions" then capOfJson? j else none
  | .array [] => some none
  | .array [j] => capOfJson? j
  | _ => none

/-! ## Suggestions -/

/-- What the strategies see of a failure. -/
def context (e : Engine) (kind : Kind) (fields : Fields) (symbols : Environment) (host : Host) :
    Context :=
  { kind, fields, symbols, knowledge := e.knowledge, host }

/-- The candidates of the strategies for a kind, in order. One that does not finish
adds nothing. -/
def suggest (e : Engine) (kind : Kind) (fields : Fields) (symbols : Environment) (host : Host) :
    List Candidate :=
  (e.registry.strategiesFor kind).flatMap fun s =>
    (s.generate (e.context kind fields symbols host)).candidates

/-- Whether a text says what the hint says, perhaps with a remark in parentheses. -/
def repeatsHint (hint text : String) : Bool :=
  text == hint || (hint ++ " (").toList.isPrefixOf text.toList

/-- The candidates for a message with the given fields that it does not hint at already. -/
def newCandidates (e : Engine) (kind : Kind) (fields : Fields) (symbols : Environment)
    (host : Host) : List Candidate :=
  (e.suggest kind fields symbols host).filter fun c =>
    !(fields.get? .hint).any (repeatsHint · c.text)

/-- The suffix for a report. -/
def suffix (e : Engine) (report : Report) (symbols : Environment) (host : Host) : String :=
  let fields := e.grammar.classify report.kind report.message
  Suffix.compose ((e.newCandidates report.kind fields symbols host).map Candidate.text)
    e.maxSuggestions

/-- Append suggestions to every text of a report that has none yet. -/
def diagnose (e : Engine) (report : Report) (symbols : Environment) (host : Host) : Report :=
  if report.isAnnotated then report
  else ((report.advance .classified).advance .suggested).annotate (e.suffix report symbols host)

/-! ## What the engine does -/

theorem suggest_eq (ss : List Strategy) (e : Engine) (kind : Kind) (fields : Fields)
    (symbols : Environment) (host : Host) (h : e.registry = .ofStrategies ss) :
    e.suggest kind fields symbols host =
      ss.flatMap fun s => (List.replicate (s.kinds.count kind)
        (s.generate (e.context kind fields symbols host)).candidates).flatten := by
  rw [suggest, h, Registry.strategiesFor_ofStrategies, List.flatMap_assoc]
  congr 1
  funext s
  induction s.kinds.count kind with
  | zero => rfl
  | succ n ih => simp [List.replicate_succ, ih]

theorem diagnose_of_annotated (e : Engine) {report : Report} (symbols : Environment) (host : Host)
    (h : report.stage = .annotated) : e.diagnose report symbols host = report := by
  simp [diagnose, Report.isAnnotated, h]

/-- The report that a diagnosis gives back, field by field. -/
theorem diagnose_eq (e : Engine) {r : Report} (symbols : Environment) (host : Host)
    (h : r.stage ≠ .annotated) :
    e.diagnose r symbols host =
      { r.appendToFacets (e.suffix r symbols host) with
        stage := if e.suffix r symbols host = "" then .suggested else .annotated } := by
  have hr : r.isAnnotated = false := by simp [Report.isAnnotated, h]
  have hs : Stage.suggested ≠ .annotated := by decide
  rw [diagnose, hr, if_neg Bool.false_ne_true, Report.advance_advance h, Report.annotate_eq hs]
  rfl

theorem facets_diagnose (e : Engine) {report : Report} (symbols : Environment) (host : Host)
    (h : report.stage ≠ .annotated) :
    (e.diagnose report symbols host).facets =
      report.facets.map (· ++ e.suffix report symbols host) := by
  rw [diagnose_eq e symbols host h]
  exact Report.facets_appendToFacets report _

end Engine

end ErrorHints

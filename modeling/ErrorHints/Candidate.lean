import ErrorHints.Similarity.Score

/-!
# Candidates

One proposed fix: its text, the strategy that found it, and a score when it
was found by similarity. Scores never reorder the candidates of different
strategies; the order of registration does.
-/
namespace ErrorHints

structure Candidate where
  text : String
  /-- Name of the strategy that proposed the text. -/
  source : String
  /-- Similarity to the failing name, for matches by likeness. -/
  score : Option Score := none
  deriving DecidableEq, Repr

/-- `text` between single quotes, nothing escaped. -/
def quoted (text : String) : String := "'" ++ text ++ "'"

end ErrorHints

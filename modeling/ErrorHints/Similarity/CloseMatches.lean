import ErrorHints.Similarity.Matching

/-!
# The closest matches

`closeMatches` scores candidates against a target and keeps the best: those
that reach the cutoff, by falling score, candidates of equal score in the order
given. The two cheap bounds are tried before the ratio itself.

Results:
* `of_mem_closeMatches`: a match is one of the candidates and not the target.
-/
namespace ErrorHints.Similarity

/-- How many matches to keep and how close they must be. -/
structure MatchBounds where
  maxResults : Nat
  cutoff : Cutoff
  deriving DecidableEq, Repr

namespace MatchBounds

/-- Bounds for names and attributes: three matches of at least 0.7. -/
def default : MatchBounds := ⟨3, .ofBits 0x3fe6666666666666⟩

/-- Bounds for listings of modules, whose names are short: five of at least 0.6. -/
def loose : MatchBounds := ⟨5, .ofBits 0x3fe3333333333333⟩

end MatchBounds

/-- A candidate that was close enough, with its score. -/
structure CloseMatch where
  text : String
  score : Score
  deriving DecidableEq, Repr

/-- At most this many candidates are looked at. -/
def maxCandidates : Nat := 4096

-- characters are hashed by their code, whatever other ways are known
attribute [local instance (high)] instHashableChar

/-- The score of a candidate that reaches the cutoff. -/
def closeScore? (cutoff : Cutoff) (candidate target : List Char) : Option Score :=
  if cutoff.admits (lengthRatio candidate target) && cutoff.admits (sharedRatio candidate target) then
    let score := ratio candidate target
    if cutoff.admits score then some score else none
  else none

/-- Whether a match comes before another one of the same listing. -/
def CloseMatch.atLeast (m n : CloseMatch) : Bool := n.score ≤ m.score

/-- The candidates close to `target`, best first; never `target` itself. -/
def closeMatches (target : String) (candidates : List String) (bounds : MatchBounds) :
    List CloseMatch :=
  if bounds.maxResults = 0 then []
  else
    let considered := (candidates.take maxCandidates).filter (· ≠ target)
    let close := considered.filterMap fun text =>
      (closeScore? bounds.cutoff text.toList target.toList).map fun score => ⟨text, score⟩
    (close.mergeSort CloseMatch.atLeast).take bounds.maxResults

theorem of_mem_closeMatches {target : String} {candidates : List String} {bounds : MatchBounds}
    {m : CloseMatch} (h : m ∈ closeMatches target candidates bounds) :
    m.text ∈ candidates ∧ m.text ≠ target := by
  unfold closeMatches at h
  split at h
  · cases h
  · have hclose := List.mem_mergeSort.1 (List.mem_of_mem_take h)
    obtain ⟨text, htext, hscore⟩ := List.mem_filterMap.1 hclose
    obtain ⟨hmem, hne⟩ := List.mem_filter.1 htext
    obtain ⟨score, -, rfl⟩ := Option.map_eq_some_iff.1 hscore
    exact ⟨List.mem_of_mem_take hmem, of_decide_eq_true hne⟩

end ErrorHints.Similarity

import ErrorHints.Pattern.Basic

/-!
# Putting patterns together

How the parts of a written pattern make one pattern. Sequences and choices are
flat, neighbouring texts are one text, and a choice of single characters is a
set. A choice whose branches all begin with the same parts reads those parts
first and chooses after them: `\w*a|\w*b` is `\w*` and then `a` or `b`. This
belongs to the meaning of written patterns, since the reading of the common
parts is then settled before the choice between the branches is.
-/
namespace ErrorHints.Pattern

variable {ν : Type}

/-- One character of a set; a set of one character is that character. -/
def oneOf (set : CharSet) : Pattern ν :=
  match set.only? with
  | some c => text [c]
  | none => one set

/-! ## Sequences -/

/-- The parts of a sequence. -/
def parts : Pattern ν → List (Pattern ν)
  | seq p q => p.parts ++ q.parts
  | text [] => []
  | p => [p]

/-- Make one text of neighbouring ones. -/
def fuseTexts : List (Pattern ν) → List (Pattern ν)
  | [] => []
  | p :: ps =>
    match p, fuseTexts ps with
    | text cs, text ds :: rest => text (cs ++ ds) :: rest
    | p, rest => p :: rest

/-- The patterns one after the other. -/
def join (ps : List (Pattern ν)) : Pattern ν := all (fuseTexts (ps.flatMap parts))

/-! ## Repetitions -/

/-- Whether the pattern can read nothing but the empty text. -/
def readsNothing : Pattern ν → Bool
  | text chars => chars.isEmpty
  | one _ => false
  | place _ => true
  | seq p q | alt p q => p.readsNothing && q.readsNothing
  | repeated .atMostOne _ p => p.readsNothing
  | repeated _ _ _ => false
  | group _ p => p.readsNothing

/-- Rounds of a pattern; one round of nothing is as good as many. -/
def rounds (r : Rounds) (eager : Bool) (p : Pattern ν) : Pattern ν :=
  if p.readsNothing then
    match r with
    | .atLeastOne => p
    | .anyNumber | .atMostOne => repeated .atMostOne eager p
  else repeated r eager p

/-! ## Choices -/

/-- The branches of a choice. -/
def branches : Pattern ν → List (Pattern ν)
  | alt p q => p.branches ++ q.branches
  | p => [p]

/-- The set of a text of a single character. -/
def singleton? : Pattern ν → Option CharSet
  | text [c] => some (.single c)
  | _ => none

/-- The set that a pattern accepts one character of. -/
def oneOf? : Pattern ν → Option CharSet
  | one set => some set
  | _ => none

/-- The characters of some sets. -/
def oneOfAny (sets : List CharSet) : Pattern ν := oneOf (sets.foldr CharSet.union .empty)

/-- Any of the branches: a set if all of them are characters, or all of them sets. -/
def anyOf (ps : List (Pattern ν)) : Pattern ν :=
  match ps.flatMap branches with
  | [p] => p
  | bs => (((bs.mapM singleton?).or (bs.mapM oneOf?)).map oneOfAny).getD (any bs)

/-! ## Common parts -/

/-- The parts of a pattern that is a sequence of several. -/
def sequence : Pattern ν → List (Pattern ν)
  | seq p q => p.parts ++ q.parts
  | _ => []

variable [DecidableEq ν]

/-- The longest list that two lists begin with; a part that captures ends it. -/
def commonParts : List (Pattern ν) → List (Pattern ν) → List (Pattern ν)
  | p :: ps, q :: qs => if p = q && p.groups.isEmpty then p :: commonParts ps qs else []
  | _, _ => []

/-- The parts with which all of the branches begin. -/
def commonStart : List (Pattern ν) → List (Pattern ν)
  | [] => []
  | b :: bs => bs.foldl (fun start b => commonParts start b.sequence) b.sequence

/-- Any of the branches, after the parts with which all of them begin. -/
def choose (ps : List (Pattern ν)) : Pattern ν :=
  match ps.flatMap branches with
  | [p] => p
  | bs =>
    match commonStart bs with
    | [] => anyOf bs
    | start => join (start ++ [anyOf (bs.map fun b => join (b.sequence.drop start.length))])

end ErrorHints.Pattern

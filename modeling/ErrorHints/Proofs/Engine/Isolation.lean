import ErrorHints.Engine

/-!
# Strategies do not disturb each other

An engine runs its strategies one after the other, and each of them may find that it does not
apply or break down half way. Whatever becomes of one strategy, the others are heard in full:
the suggestions are the complete outputs of the strategies that finish, in order of
registration, and it makes no difference whether the others are registered at all.

Results:
* `suggest_withStrategies`: the suggestions are the complete outputs, one after the other.
* `outputs_of_thinned`: strategies that have nothing to say can be left out.
* `suggest_isolated`: both, for every list of strategies.
-/
namespace ErrorHints

namespace Strategy

variable (cx : Context)

/-- The complete output of a strategy, unless it does not apply or breaks down. -/
def output? (s : Strategy) : Option (List Candidate) :=
  match s.generate cx with
  | .finished candidates => some candidates
  | .inapplicable _ => none
  | .crashed _ => none

/-- The complete outputs of the strategies that declare the kind of the failure, in order and
once per declaration. -/
def outputs (ss : List Strategy) : List (List Candidate) :=
  (ss.flatMap fun s => List.replicate (s.kinds.count cx.kind) s).filterMap (output? cx)

/-- A strategy that has nothing to say about a failure: it does not declare the kind, it does
not apply, or it breaks down. -/
inductive Idle (s : Strategy) : Prop where
  | undeclared (h : cx.kind ∉ s.kinds)
  | inapplicable (why : Inapplicable) (h : s.generate cx = .inapplicable why)
  | crashed (yielded : List Candidate) (h : s.generate cx = .crashed yielded)

/-- A list of strategies, and the list that is left when some of the idle ones are removed. -/
inductive Thinned : List Strategy → List Strategy → Prop where
  | nil : Thinned [] []
  | keep (s : Strategy) {ss kept : List Strategy} (h : Thinned ss kept) :
      Thinned (s :: ss) (s :: kept)
  | drop {s : Strategy} {ss kept : List Strategy} (idle : s.Idle cx) (h : Thinned ss kept) :
      Thinned (s :: ss) kept

variable {cx}

/-- What counts of an outcome is the complete output, or nothing. -/
theorem candidates_generate (s : Strategy) :
    (s.generate cx).candidates = (s.output? cx).getD [] := by
  unfold output?
  cases s.generate cx with
  | finished candidates => rfl
  | inapplicable why => rfl
  | crashed yielded => rfl

theorem outputs_cons (s : Strategy) (ss : List Strategy) :
    outputs cx (s :: ss) =
      (List.replicate (s.kinds.count cx.kind) s).filterMap (output? cx) ++ outputs cx ss := by
  rw [outputs, List.flatMap_cons, List.filterMap_append]
  rfl

theorem flatten_outputs (ss : List Strategy) :
    (outputs cx ss).flatten = ss.flatMap fun s =>
      (List.replicate (s.kinds.count cx.kind) (s.generate cx).candidates).flatten := by
  have hrep (s : Strategy) (n : Nat) : ((List.replicate n s).filterMap (output? cx)).flatten =
      (List.replicate n (s.generate cx).candidates).flatten := by
    induction n with
    | zero => rfl
    | succ n ih =>
      rw [List.replicate_succ, List.replicate_succ, List.flatten_cons, ← ih, candidates_generate]
      cases h : s.output? cx with
      | none => rw [List.filterMap_cons_none h, Option.getD_none, List.nil_append]
      | some candidates => rw [List.filterMap_cons_some h, Option.getD_some, List.flatten_cons]
  induction ss with
  | nil => rfl
  | cons s ss ih => rw [outputs_cons, List.flatten_append, hrep, ih, List.flatMap_cons]

theorem outputs_cons_of_idle {s : Strategy} (idle : s.Idle cx) (ss : List Strategy) :
    outputs cx (s :: ss) = outputs cx ss := by
  have hfails (h : s.output? cx = none) (n : Nat) :
      (List.replicate n s).filterMap (output? cx) = [] := by
    rw [List.filterMap_eq_nil_iff]
    intro s' hs'
    rw [List.eq_of_mem_replicate hs', h]
  have hmine : (List.replicate (s.kinds.count cx.kind) s).filterMap (output? cx) = [] := by
    cases idle with
    | undeclared h => rw [List.count_eq_zero.2 h]; rfl
    | inapplicable why h => exact hfails (by rw [output?, h]) _
    | crashed yielded h => exact hfails (by rw [output?, h]) _
  rw [outputs_cons, hmine, List.nil_append]

/-- Strategies that have nothing to say can be left out. -/
theorem outputs_of_thinned {ss kept : List Strategy} (h : Thinned cx ss kept) :
    outputs cx kept = outputs cx ss := by
  induction h with
  | nil => rfl
  | keep s h ih => rw [outputs_cons, outputs_cons, ih]
  | drop idle h ih => rw [outputs_cons_of_idle idle, ih]

end Strategy

namespace Engine

/-- The engine with the given strategies instead of its own. -/
def withStrategies (e : Engine) (ss : List Strategy) : Engine :=
  { e with registry := .ofStrategies ss }

variable (e : Engine) (ss : List Strategy) (kind : Kind) (fields : Fields)
  (symbols : Environment) (host : Host)

theorem suggest_withStrategies :
    (e.withStrategies ss).suggest kind fields symbols host =
      (Strategy.outputs (e.context kind fields symbols host) ss).flatten := by
  rw [suggest_eq ss (e.withStrategies ss) kind fields symbols host rfl, Strategy.flatten_outputs]
  rfl

/-- The suggestions are the complete outputs of the strategies that declare the kind and
finish, in order of registration and once per declaration; a strategy that does not apply or
breaks down adds nothing, whatever it had produced. So the suggestions stay the same if
strategies are removed that do not declare the kind, do not apply or break down. -/
theorem suggest_isolated :
    (e.withStrategies ss).suggest kind fields symbols host =
      (Strategy.outputs (e.context kind fields symbols host) ss).flatten ∧
    ∀ kept : List Strategy, Strategy.Thinned (e.context kind fields symbols host) ss kept →
      (e.withStrategies kept).suggest kind fields symbols host =
        (e.withStrategies ss).suggest kind fields symbols host := by
  constructor
  · exact suggest_withStrategies e ss kind fields symbols host
  · intro kept h
    rw [suggest_withStrategies, suggest_withStrategies, Strategy.outputs_of_thinned h]

/-- A strategy that declares a kind twice, behind one that breaks down after a candidate and
one that is meant for another kind. -/
theorem suggest_isolated_repeated :
    let c : Candidate := ⟨"itertools.count()", "example", none⟩
    let partly : Strategy := ⟨"partly", [.overflow], fun _ => .crashed [c]⟩
    let other : Strategy := ⟨"other", [.unhashable], fun _ => .finished [c]⟩
    let twice : Strategy := ⟨"twice", [.overflow, .overflow], fun _ => .finished [c]⟩
    let cx := standard.context .overflow .empty .empty (.ofVariables ⟨⟨.empty, []⟩⟩ [])
    let run := fun ss => (standard.withStrategies ss).suggest cx.kind cx.fields cx.symbols cx.host
    Strategy.Thinned cx [partly, other, twice] [twice] ∧
      run [partly, other, twice] = [c, c] ∧ run [twice] = [c, c] := by
  intro c partly other twice cx run
  have hthin : Strategy.Thinned cx [partly, other, twice] [twice] :=
    .drop (.crashed [c] rfl) (.drop (.undeclared (by decide)) (.keep twice .nil))
  obtain ⟨hall, hkept⟩ :=
    suggest_isolated standard [partly, other, twice] cx.kind cx.fields cx.symbols cx.host
  have hvalue : run [partly, other, twice] = [c, c] := hall.trans rfl
  exact ⟨hthin, hvalue, (hkept [twice] hthin).trans hvalue⟩

end Engine

end ErrorHints

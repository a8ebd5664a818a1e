import ErrorHints.Engine

/-!
# Where suggestions come from

Each candidate has the name of a strategy as its source. The standard strategies put their own
names there, no two of them have the same, and each is run once for a kind that it declares. So
what is suggested can be taken apart by source, and the part of each strategy is what it proposes
in the context of the failure: no other strategy adds to it or takes from it.

Results:
* `Strategy.filter_source_flatMap`: the candidates of one strategy among those of several.
* `Registry.strategiesFor_of_orderly`: how often a strategy is run for a kind.
* `Engine.filter_source_suggest`: the part of a standard strategy in what is suggested.
-/
namespace ErrorHints

namespace Strategy

/-! ## Orderly strategies -/

/-- A strategy that puts its own name on every candidate and declares no kind twice. -/
structure Orderly (s : Strategy) : Prop where
  source_eq : ∀ cx, ∀ c ∈ (s.generate cx).candidates, c.source = s.name
  nodup_kinds : s.kinds.Nodup

theorem orderly_of (name : String) {kinds : List Kind} (hkinds : kinds.Nodup) (find : Finder) :
    (of name kinds find).Orderly where
  source_eq := by
    intro cx c hc
    rw [candidates_of] at hc
    split at hc
    · obtain ⟨found, -, rfl⟩ := List.mem_map.1 hc
      rfl
    · cases hc
  nodup_kinds := hkinds

variable {cx : Context} {s : Strategy} {ss : List Strategy}

/-- Either all candidates of a strategy have a source, or none has. -/
theorem Orderly.filter_source (h : s.Orderly) (cx : Context) (source : String) :
    (s.generate cx).candidates.filter (·.source = source) =
      if s.name = source then (s.generate cx).candidates else [] := by
  split
  · next hname =>
    exact List.filter_eq_self.2 fun c hc => decide_eq_true ((h.source_eq cx c hc).trans hname)
  · next hname =>
    exact List.filter_eq_nil_iff.2 fun c hc => by simpa [h.source_eq cx c hc] using hname

/-- Among the candidates of strategies with different names, those with one of the names as their
source are the ones that its strategy proposes. -/
theorem filter_source_flatMap (h : ∀ s ∈ ss, s.Orderly) (hnames : (ss.map Strategy.name).Nodup)
    (hs : s ∈ ss) :
    (ss.flatMap fun s => (s.generate cx).candidates).filter (·.source = s.name) =
      (s.generate cx).candidates := by
  induction ss with
  | nil => cases hs
  | cons s' ss ih =>
    rw [List.forall_mem_cons] at h
    rw [List.map_cons, List.nodup_cons] at hnames
    rw [List.flatMap_cons, List.filter_append, h.1.filter_source]
    rcases List.mem_cons.1 hs with rfl | hs
    · have hothers : (ss.flatMap fun s => (s.generate cx).candidates).filter
          (·.source = s.name) = [] := by
        rw [List.filter_flatMap, List.flatMap_eq_nil_iff]
        intro s' hs'
        have hne : s'.name ≠ s.name := fun heq => hnames.1 (heq ▸ List.mem_map_of_mem hs')
        rw [(h.2 s' hs').filter_source, if_neg hne]
      rw [if_pos rfl, hothers, List.append_nil]
    · have hne : s'.name ≠ s.name := fun heq => hnames.1 (heq ▸ List.mem_map_of_mem hs)
      rw [if_neg hne, List.nil_append]
      exact ih h.2 hnames.2 hs

/-! ## The standard strategies -/

theorem orderly_standard : ∀ s ∈ standardStrategies, s.Orderly := by
  simp only [standardStrategies, List.forall_mem_cons, List.not_mem_nil, false_imp_iff,
    implies_true, and_true]
  and_intros
  all_goals exact orderly_of _ (by decide) _

theorem nodup_names_standard : (standardStrategies.map Strategy.name).Nodup := by decide

end Strategy

/-- Orderly strategies are run once for each of their kinds. -/
theorem Registry.strategiesFor_of_orderly {ss : List Strategy} (h : ∀ s ∈ ss, s.Orderly)
    (k : Kind) : (ofStrategies ss).strategiesFor k = ss.filter (k ∈ ·.kinds) := by
  rw [strategiesFor_ofStrategies]
  induction ss with
  | nil => rfl
  | cons s ss ih =>
    rw [List.forall_mem_cons] at h
    rw [List.flatMap_cons, ih h.2, h.1.nodup_kinds.count]
    by_cases hk : k ∈ s.kinds
    · rw [if_pos hk, List.filter_cons, if_pos (decide_eq_true hk)]
      rfl
    · rw [if_neg hk, List.filter_cons, if_neg (by simpa using hk)]
      rfl

namespace Engine

variable {e : Engine} {k : Kind} {s : Strategy}

/-- What a standard strategy for a kind proposes is what is suggested under its name. -/
theorem filter_source_suggest (he : e.registry = .standard) (hs : s ∈ standardStrategies)
    (hk : k ∈ s.kinds) (fields : Fields) (symbols : Environment) (host : Host) :
    (e.suggest k fields symbols host).filter (·.source = s.name) =
      (s.generate (e.context k fields symbols host)).candidates := by
  rw [suggest, he, Registry.standard, Registry.strategiesFor_of_orderly Strategy.orderly_standard]
  refine Strategy.filter_source_flatMap (fun s' hs' => ?_) ?_ ?_
  · exact Strategy.orderly_standard s' (List.mem_filter.1 hs').1
  · exact Strategy.nodup_names_standard.sublist (List.filter_sublist.map Strategy.name)
  · exact List.mem_filter.2 ⟨hs, decide_eq_true hk⟩

end Engine

end ErrorHints

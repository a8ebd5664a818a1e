import ErrorHints.Strategy.Curated

/-!
# What a captured receiver has

A value can be asked whether it answers to an attribute, and it declares a list of attributes. What
is suggested for a missing attribute of a captured value goes by the list. As long as the two agree
on the attributes that are asked for, this is no difference. Where the value answers to more than it
declares, a replacement may be suggested for an attribute that is still there, and a synonym that it
has may be missed.

Results:
* `candidates_removedAttribute`, `candidates_attributeSynonym`: what is suggested, by the list.
* `candidates_of_captured_receiver`: the same, and by what the value answers to where the two agree.
-/
namespace ErrorHints

/-- Whether the value lists an attribute. -/
def Value.declares (v : Value) (attr : String) : Bool := v.attributes.contains attr

theorem Value.snapshot_declares (typeName : String) (attributes : List String)
    (parameters : Option (List String)) (attr : String) :
    (snapshot typeName attributes parameters).hasAttribute attr =
      (snapshot typeName attributes parameters).declares attr := by
  rw [Bool.eq_iff_iff, snapshot_hasAttribute, declares, List.contains_iff_mem]

namespace Strategy

/-- What is to be suggested for a removed attribute of a value that `has` some attributes. -/
def replacementsFor (has : String → Bool) (knowledge : Knowledge) (typeName attr : String) :
    List Candidate :=
  match knowledge.removedAttributes[attr]? with
  | none => []
  | some removed =>
    if has attr = false ∧ ∀ required ∈ removed.requires, has required then
      [⟨quoted (removed.render typeName) ++ " (" ++ attr ++ " is removed)", "removed-attribute", none⟩]
    else []

/-- The synonyms of an attribute that are to be suggested for a value that `has` some attributes. -/
def synonymsFor (has : String → Bool) (knowledge : Knowledge) (attr : String) : List Candidate :=
  ((knowledge.synonymsOf attr).filter has).map fun s => ⟨quoted s, "attribute-synonym", none⟩

/-- The attributes that a value is asked for when one is missing. -/
def asked (knowledge : Knowledge) (attr : String) : List String :=
  attr :: (knowledge.removedAttributes[attr]?.bind RemovedAttribute.requires).toList ++
    knowledge.synonymsOf attr

section

variable {has has' : String → Bool} {knowledge : Knowledge} {attr : String}

theorem replacementsFor_congr (typeName : String)
    (h : ∀ a ∈ asked knowledge attr, has a = has' a) :
    replacementsFor has knowledge typeName attr = replacementsFor has' knowledge typeName attr := by
  unfold replacementsFor
  split
  · rfl
  · rename_i removed hremoved
    have hattr : has attr = has' attr := h attr (by simp [asked])
    have hrequired : ∀ required ∈ removed.requires, has required = has' required := fun r hr =>
      h r (by simp [asked, hremoved, Option.mem_def.1 hr])
    have hcond : (has attr = false ∧ ∀ required ∈ removed.requires, has required) ↔
        has' attr = false ∧ ∀ required ∈ removed.requires, has' required := by
      rw [hattr]
      exact and_congr_right fun _ => forall₂_congr fun r hr => by rw [hrequired r hr]
    simp only [hcond]

theorem synonymsFor_congr (h : ∀ a ∈ asked knowledge attr, has a = has' a) :
    synonymsFor has knowledge attr = synonymsFor has' knowledge attr := by
  unfold synonymsFor
  rw [List.filter_congr fun s hs => h s (by simp [asked, hs])]

end

section Captured

variable {cx : Context} {v : Value} {attr : String}

theorem receiver_of_captured (hv : cx.symbols.receiver = some v) :
    cx.receiver = .ok (.ofValue v) := by
  simp [Context.receiver, Context.receiver?, hv]

theorem candidates_removedAttribute (hv : cx.symbols.receiver = some v)
    (hattr : cx.fields.get? .attr = some attr) :
    (removedAttribute.generate cx).candidates =
      replacementsFor v.declares cx.knowledge v.typeName attr := by
  refine (candidates_of_field hattr).trans ?_
  unfold replacementsFor
  rw [receiver_of_captured hv]
  cases cx.knowledge.removedAttributes[attr]? with
  | none => rfl
  | some removed =>
    have hcond : removed.requires.all (Receiver.ofValue v).has && !(Receiver.ofValue v).has attr ↔
        v.declares attr = false ∧ ∀ required ∈ removed.requires, v.declares required := by
      rw [Bool.and_eq_true, Bool.not_eq_true', Option.all_eq_true, and_comm]
      rfl
    dsimp only [bind, Except.bind]
    by_cases h : v.declares attr = false ∧ ∀ required ∈ removed.requires, v.declares required
    · rw [if_pos h, if_pos (hcond.2 h)]
      rfl
    · rw [if_neg h, if_neg (mt hcond.1 h)]
      rfl

theorem candidates_attributeSynonym (hv : cx.symbols.receiver = some v)
    (hattr : cx.fields.get? .attr = some attr) :
    (attributeSynonym.generate cx).candidates = synonymsFor v.declares cx.knowledge attr := by
  refine (candidates_of_field hattr).trans ?_
  unfold synonymsFor
  rw [receiver_of_captured hv]
  cases cx.knowledge.synonymsOf attr with
  | nil => rfl
  | cons s ss =>
    show (((s :: ss).filter v.declares).map _).map _ = _
    rw [List.map_map]
    rfl

/-- What is suggested for a missing attribute of a captured value goes by the attributes that the
value declares. It goes by those that it answers to if it declares these of the attributes that are
asked for, and no others. -/
theorem candidates_of_captured_receiver (hv : cx.symbols.receiver = some v)
    (hattr : cx.fields.get? .attr = some attr) :
    ((removedAttribute.generate cx).candidates =
        replacementsFor v.declares cx.knowledge v.typeName attr ∧
      (attributeSynonym.generate cx).candidates = synonymsFor v.declares cx.knowledge attr) ∧
    ((∀ a ∈ asked cx.knowledge attr, v.hasAttribute a = v.declares a) →
      (removedAttribute.generate cx).candidates =
          replacementsFor v.hasAttribute cx.knowledge v.typeName attr ∧
        (attributeSynonym.generate cx).candidates =
          synonymsFor v.hasAttribute cx.knowledge attr) := by
  rw [candidates_removedAttribute hv hattr, candidates_attributeSynonym hv hattr]
  exact ⟨⟨rfl, rfl⟩, fun h => ⟨(replacementsFor_congr _ h).symm, (synonymsFor_congr h).symm⟩⟩

end Captured

/-- `has_key` was looked up on a captured value. -/
def missingHasKey (v : Value) : Context where
  kind := .attributeMissing
  fields := (Fields.matched "attr.object").insert .attr "has_key"
  symbols := { receiver := some v }
  knowledge := .standard
  host := .ofVariables ⟨⟨.empty, []⟩⟩ []

/-- A value that still has an attribute without declaring it, and one that declares all it has. -/
theorem candidates_removedAttribute_has_key :
    let legacy : Value :=
      { typeName := "T", attributes := ["__contains__"]
        hasAttribute := (["__contains__", "has_key"].contains ·) }
    let plain := Value.snapshot "T" ["__contains__"] none
    (removedAttribute.generate (missingHasKey legacy)).candidates =
        [⟨"'key in T' (has_key is removed)", "removed-attribute", none⟩] ∧
      replacementsFor legacy.hasAttribute .standard "T" "has_key" = [] ∧
      (removedAttribute.generate (missingHasKey plain)).candidates =
        replacementsFor plain.hasAttribute .standard "T" "has_key" := by
  intro legacy plain
  obtain ⟨⟨hlegacy, -⟩, -⟩ :=
    @candidates_of_captured_receiver (missingHasKey legacy) _ "has_key" rfl rfl
  obtain ⟨-, hplain⟩ :=
    @candidates_of_captured_receiver (missingHasKey plain) _ "has_key" rfl rfl
  exact ⟨hlegacy.trans (by decide +kernel), by decide +kernel,
    (hplain fun a _ => Value.snapshot_declares _ _ _ a).1⟩

end Strategy

end ErrorHints

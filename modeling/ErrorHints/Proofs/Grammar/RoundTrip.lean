import ErrorHints.Grammar.Standard
import ErrorHints.Proofs.Pattern.Splitting
import Mathlib.Data.List.Basic

/-!
# Messages and their fields

A phrasing reads back what it was filled in with: the fields of a message that is written
after it are the values that stand in its groups, and only such messages have fields. For
this a phrasing has to be exact, that is, a determined pattern for whole messages with one
group for each field. All standard phrasings are.

Results:
* `captures?_eq_some_iff`: the fields of a message, for every exact phrasing.
* `Grammar.captures?_standard`: a standard phrasing reads a message back exactly.
-/
namespace ErrorHints

/-! ## Looking up captures -/

/-- The values of groups, as texts. -/
def textsOf (vs : List (FieldName × List Char)) : Slots FieldName String :=
  vs.map fun v => (v.1, String.ofList v.2)

theorem keys_textsOf (vs : List (FieldName × List Char)) :
    (textsOf vs).keys = vs.map Prod.fst := by
  simp [textsOf, Slots.keys, Function.comp_def]

/-- What a matcher gives under the tag of a field is looked up among the captures. -/
theorem find?_tag_eq_get? (cs : List (Capture FieldName)) (f : FieldName) :
    ((cs.find? (some ·.name.tag = some f.tag)).map fun c => String.ofList c.chars) =
      Slots.get? f (textsOf (cs.map Pattern.valueOf)) := by
  induction cs with
  | nil => rfl
  | cons c cs ih =>
    simp only [List.map_cons, textsOf, Slots.get?, Pattern.valueOf, Option.some_inj,
      FieldName.tag_inj] at ih ⊢
    by_cases hc : c.name = f
    · rw [List.find?_cons_of_pos (by simpa using hc), if_pos hc]; rfl
    · rw [List.find?_cons_of_neg (by simpa using hc), if_neg hc, ih]

/-- Where no name is repeated, the order of the slots does not matter to a look-up. -/
theorem get?_of_perm {s s' : Slots FieldName String} (h : s.Perm s') (hs : s.keys.Nodup)
    (f : FieldName) : Slots.get? f s = Slots.get? f s' := by
  have hs' : s'.keys.Nodup := (h.map Prod.fst).nodup_iff.1 hs
  ext v
  rw [Slots.get?_eq_some_iff hs, Slots.get?_eq_some_iff hs', h.mem_iff]

/-- What is found under each name is filed at the end. -/
theorem foldl_insert {s : Slots FieldName String} {step : Fields → FieldName → Fields}
    (hstep : ∀ out f, step out f = (Slots.get? f s).elim out (out.insert f))
    {names : List FieldName} (hn : names.Nodup) (out : Fields)
    (ho : ∀ f ∈ names, f ∉ out.values.keys) :
    names.foldl step out =
    { out with values := out.values ++ names.filterMap fun f => (Slots.get? f s).map (f, ·) } := by
  induction names generalizing out with
  | nil => simp
  | cons f names ih =>
    obtain ⟨hf, hn⟩ := List.nodup_cons.1 hn
    have hnames : ∀ g ∈ names, g ∉ out.values.keys := fun g hg => ho g (List.mem_cons_of_mem f hg)
    rw [List.foldl_cons, List.filterMap_cons, hstep]
    cases hv : Slots.get? f s with
    | none => exact ih hn out hnames
    | some v =>
      have hput : (out.insert f v).values = out.values ++ [(f, v)] :=
        Slots.put_of_notMem v (ho f List.mem_cons_self)
      have hkeys : ∀ g ∈ names, g ∉ (out.insert f v).values.keys := by
        intro g hg
        rw [hput, Slots.keys, List.map_append, List.mem_append, not_or]
        exact ⟨hnames g hg, fun h => hf ((List.mem_singleton.1 h : g = f) ▸ hg)⟩
      simp only [Option.map_some, Option.elim_some]
      rw [ih hn (out.insert f v) hkeys, hput, List.append_assoc]
      rfl

/-- Looked up name by name, slots come back as they are. -/
theorem filterMap_get? {s : Slots FieldName String} {names : List FieldName}
    (hs : s.keys.Sublist names) (hn : names.Nodup) :
    (names.filterMap fun f => (Slots.get? f s).map (f, ·)) = s := by
  generalize hk : s.keys = keys at hs
  induction hs generalizing s with
  | slnil => rw [List.map_eq_nil_iff.1 hk, List.filterMap_nil]
  | @cons keys names f h ih =>
    obtain ⟨hf, hn⟩ := List.nodup_cons.1 hn
    have hnone : Slots.get? f s = none := by
      rw [← Option.not_isSome_iff_eq_none, Slots.get?_isSome_iff, hk]
      exact fun hm => hf (h.mem hm)
    rw [List.filterMap_cons, hnone]
    exact ih hn hk
  | @cons_cons keys names f h ih =>
    obtain ⟨hf, hnames⟩ := List.nodup_cons.1 hn
    obtain ⟨⟨k, v⟩, s, rfl, rfl, htail⟩ := List.map_eq_cons_iff.1 hk
    rw [List.filterMap_cons, Slots.get?, if_pos rfl, Option.map_some]
    refine congrArg _ (Eq.trans (List.filterMap_congr fun g hg => ?_) (ih hnames htail))
    have hk : k ≠ g := fun e => hf (show k ∈ names from e ▸ hg)
    rw [Slots.get?, if_neg hk]

/-! ## Exact phrasings -/

namespace Phrasing

/-- The fields of a message that is written after the phrasing with these values. -/
def fieldsOf (p : Phrasing) (vs : List (FieldName × List Char)) : Fields :=
  { entry := some p.id, values := textsOf vs }

/-- Whether a phrasing is a determined pattern for whole messages that captures each of its
fields in one group, and at most once. -/
def isExact (p : Phrasing) : Bool :=
  match p.pattern with
  | .seq (.place .textStart) (.seq q (.place .textEnd)) =>
    q.isPlaceless && q.capturesOnce && q.isDetermined && decide q.groups.Nodup
  | _ => false

/-- What an exact phrasing is. -/
structure Exact (p : Phrasing) (q : Pattern FieldName) : Prop where
  pattern_eq : p.pattern = q.whole
  isPlaceless : q.isPlaceless
  capturesOnce : q.capturesOnce
  isDetermined : q.isDetermined
  nodup : q.groups.Nodup

theorem exists_exact {p : Phrasing} (h : p.isExact) : ∃ q, p.Exact q := by
  unfold isExact at h
  split at h
  · rename_i q hp
    simp only [Bool.and_eq_true, decide_eq_true_eq] at h
    exact ⟨q, hp, h.1.1.1, h.1.1.2, h.1.2, h.2⟩
  · cases h

namespace Exact

variable {p : Phrasing} {q : Pattern FieldName} {m : String} {vs : List (FieldName × List Char)}

theorem fields_eq (h : p.Exact q) : p.fields = q.groups := by
  rw [fields, h.pattern_eq, Pattern.groups_whole]

theorem renders_iff (h : p.Exact q) {w : List Char} : p.pattern.Renders w vs ↔ q.Renders w vs := by
  rw [h.pattern_eq, Pattern.renders_whole_iff]

theorem names_sublist (h : p.Exact q) {w : List Char} (hr : p.pattern.Renders w vs) :
    (vs.map Prod.fst).Sublist p.fields := by
  rw [h.fields_eq]
  exact Pattern.names_sublist h.capturesOnce (h.renders_iff.1 hr)

/-- What is captured while a message is read gives the fields that it was written with. -/
theorem captures?_of_perm (h : p.Exact q) {cs : List (Capture FieldName)}
    (hc : p.pattern.captures? m.toList = some cs) (hr : p.pattern.Renders m.toList vs)
    (hp : vs.Perm (cs.map Pattern.valueOf)) : p.captures? m = some (p.fieldsOf vs) := by
  have hn : p.fields.Nodup := h.fields_eq ▸ h.nodup
  have hs : (textsOf vs).keys.Sublist p.fields := keys_textsOf vs ▸ h.names_sublist hr
  have hget : ∀ f : FieldName, ((cs.find? (some ·.name.tag = some f.tag)).map fun c =>
      String.ofList c.chars) = Slots.get? f (textsOf vs) := fun f => by
    rw [find?_tag_eq_get?]
    exact (get?_of_perm (hp.map _) (hs.nodup hn) f).symm
  rw [captures?_eq, hc, Option.map_some]
  rw [foldl_insert (s := textsOf vs) (fun out f => ?_) hn _ fun _ _ => List.not_mem_nil,
    filterMap_get? hs hn]
  · rfl
  · rw [hget]
    cases Slots.get? f (textsOf vs) <;> rfl

theorem captures?_of_renders (h : p.Exact q) (hr : p.pattern.Renders m.toList vs) :
    p.captures? m = some (p.fieldsOf vs) := by
  have hq := h.renders_iff.1 hr
  obtain ⟨cs, hcs⟩ := Option.isSome_iff_exists.1 (Pattern.isSome_captures?_of_renders h.isPlaceless hq)
  obtain ⟨vs', hvs', hp⟩ := Pattern.renders_of_captures? hcs
  obtain rfl := hq.values_eq h.isDetermined hvs'
  exact h.captures?_of_perm (h.pattern_eq ▸ hcs) hr hp

theorem renders_of_captures? (h : p.Exact q) {f : Fields} (hf : p.captures? m = some f) :
    ∃ vs, p.pattern.Renders m.toList vs ∧ f = p.fieldsOf vs := by
  obtain ⟨cs, hcs, -⟩ := Option.map_eq_some_iff.1 ((captures?_eq p m).symm.trans hf)
  obtain ⟨vs, hvs, hp⟩ := Pattern.renders_of_captures? (h.pattern_eq ▸ hcs)
  have hr := h.renders_iff.2 hvs
  exact ⟨vs, hr, Option.some.inj (hf.symm.trans (h.captures?_of_perm hcs hr hp))⟩

end Exact

/-- The fields of a message, for every exact phrasing. -/
theorem captures?_eq_some_iff {p : Phrasing} (h : p.isExact) {m : String} {f : Fields} :
    p.captures? m = some f ↔ ∃ vs, p.pattern.Renders m.toList vs ∧ f = p.fieldsOf vs := by
  obtain ⟨q, hq⟩ := exists_exact h
  constructor
  · exact hq.renders_of_captures?
  · intro h
    obtain ⟨vs, hr, rfl⟩ := h
    exact hq.captures?_of_renders hr

theorem accepts_iff {p : Phrasing} (h : p.isExact) {m : String} :
    p.accepts m ↔ ∃ vs, p.pattern.Renders m.toList vs := by
  rw [accepts_eq_isSome_captures?, Option.isSome_iff_exists]
  simp only [captures?_eq_some_iff h]
  constructor
  · intro h
    obtain ⟨_, vs, hr, -⟩ := h
    exact ⟨vs, hr⟩
  · intro h
    obtain ⟨vs, hr⟩ := h
    exact ⟨_, vs, hr, rfl⟩

end Phrasing

/-! ## The standard phrasings -/

namespace Grammar

open Pattern

theorem isExact_standard {p : Phrasing} (hp : p ∈ standardPhrasings) : p.isExact := by
  have h : standardPhrasings.all Phrasing.isExact := by decide +kernel
  exact List.all_eq_true.1 h p hp

/-- A standard phrasing gives to a message written after it exactly the values it was written
with, in the order of its groups, and gives fields to no other message. -/
theorem captures?_standard {p : Phrasing} (hp : p ∈ standardPhrasings) (m : String) :
    (∀ vs, p.pattern.Renders m.toList vs →
      p.captures? m = some ⟨some p.id, vs.map fun v => (v.1, String.ofList v.2)⟩ ∧
        (vs.map Prod.fst).Sublist p.fields) ∧
    (∀ f, p.captures? m = some f →
      ∃ vs, p.pattern.Renders m.toList vs ∧
        f = ⟨some p.id, vs.map fun v => (v.1, String.ofList v.2)⟩) := by
  obtain ⟨q, hq⟩ := Phrasing.exists_exact (isExact_standard hp)
  constructor
  · intro vs hr
    exact ⟨hq.captures?_of_renders hr, hq.names_sublist hr⟩
  · intro f hf
    exact hq.renders_of_captures? hf

/-- A hint of the runtime is read together with the name that the message is about. -/
theorem captures?_standard_hinted :
    ∃ p ∈ standardPhrasings,
      p.captures? "name 'prnt' is not defined. Did you mean: 'print'?" =
        some ⟨some "name.not_defined", [(.name, "prnt"), (.hint, "'print'")]⟩ := by
  have hmem : standardPhrasings[0]? = some (nameNotDefined.head (List.cons_ne_nil _ _)) := rfl
  have hp := List.mem_of_getElem? hmem
  have hname : (name .name).Renders "prnt".toList [(.name, "prnt".toList)] :=
    .group (renders_run (by decide) (List.all_eq_true.1 (by decide +kernel)) (by decide))
  have hlead : (Pattern.all [say ". Did you ", any [say "mean:", say "forget to import"],
      say " "]).Renders ". Did you mean: ".toList [] :=
    .seq (.text _) (.seq (.left (.text _)) (.text _))
  have hprint : dotted.Renders "print".toList [] :=
    renders_run (by decide) (List.all_eq_true.1 (by decide +kernel)) (by decide)
  have hhint : (Pattern.group .hint (.all [say "'", dotted, say "'"])).Renders "'print'".toList
      [(.hint, "'print'".toList)] :=
    .group (.seq (.text _) (.seq hprint (.text _)))
  refine ⟨_, hp, ((captures?_standard hp _).1
    [(.name, "prnt".toList), (.hint, "'print'".toList)] (renders_whole_iff.2 ?_)).1⟩
  exact .seq (.text _) (.seq hname (.seq (.text _) (.once (.seq hlead (.seq hhint (.text _))))))

end Grammar

end ErrorHints

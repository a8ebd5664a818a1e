import ErrorHints.Distinct
import ErrorHints.Report

/-!
# The life of a report

A report is annotated, moved to other stages, given auxiliary texts and written to from outside,
in any order and as often as its owner likes. The log of these edits says which of them the
report took, at most one annotation among them. Two things follow from the log alone: which
auxiliary texts there are and in what order, and every text, letter by letter.

What one edit preserves is `Tells.edit`. An edit either names an auxiliary text (`Edit.slot?`) or
puts something, perhaps nothing, at the end of every facet (`edit_eq`), so the step has two cases
and not one per edit.

Results:
* `Report.Tells.run`: a report tells its log, whatever is done to it.
* `Report.run_new`: the life of a report from its message on.
-/
namespace ErrorHints

namespace Report

/-! ## Edits and their log -/

/-- What can be done to a report. Writing to the facets goes by their places: `texts 0` goes to
the end of the message, `texts (i + 1)` to the end of the auxiliary text in place `i`. -/
inductive Edit where
  | annotate (suffix : String)
  | advance (next : Stage)
  | withAuxiliary (name text : String)
  | append (texts : Nat → String)

/-- The name under which an edit files a text. -/
def Edit.slot? : Edit → Option String
  | .withAuxiliary name _ => some name
  | _ => none

/-- An edit, and whether the report took it. -/
structure Event where
  edit : Edit
  taken : Bool

namespace Event

/-- What an event puts at the end of the facet in `place`. -/
def adds (ev : Event) (place : Nat) : String :=
  match ev.edit with
  | .annotate suffix => if ev.taken then suffix else ""
  | .append texts => texts place
  | .advance _ | .withAuxiliary .. => ""

/-- Whether an event annotates the report. -/
def marks (ev : Event) : Bool :=
  match ev.edit with
  | .annotate _ => ev.taken
  | _ => false

end Event

/-- What the events of a log put at the end of the facet in `place`. -/
def added (place : Nat) (log : List Event) : String := String.join (log.map (·.adds place))

/-- The names under which the events of a log file texts, in order. -/
def filed (log : List Event) : List String := log.filterMap (·.edit.slot?)

/-- Put a text at the end of every facet, by places. -/
def appendEach (r : Report) (texts : Nat → String) : Report :=
  { r with
    message := r.message ++ texts 0
    auxiliary := r.auxiliary.mapIdx fun i slot => (slot.1, slot.2 ++ texts (i + 1)) }

/-- The report after an edit, if it takes it. -/
def edit? (r : Report) : Edit → Option Report
  | .annotate suffix => r.annotate? suffix
  | .advance next => r.advance? next
  | .withAuxiliary name text => some (r.withAuxiliary name text)
  | .append texts => some (r.appendEach texts)

/-- Whether a report takes an edit. -/
def takes (r : Report) (e : Edit) : Bool := (r.edit? e).isSome

/-- A report after an edit. -/
def edit (r : Report) (e : Edit) : Report := (r.edit? e).getD r

/-- A report after a list of edits. -/
def run (r : Report) (es : List Edit) : Report := es.foldl edit r

/-- The events that edits make of a report. -/
def log (r : Report) : List Edit → List Event
  | [] => []
  | e :: es => ⟨e, r.takes e⟩ :: (r.edit e).log es

variable {r : Report} {e : Edit} {ev : Event} {past : List Event} {kind : Kind}
  {message name text : String} {place : Nat}

theorem added_concat (place : Nat) (past : List Event) (ev : Event) :
    added place (past ++ [ev]) = added place past ++ ev.adds place := by
  simp [added, String.join_append]

theorem filed_concat (past : List Event) (ev : Event) :
    filed (past ++ [ev]) = filed past ++ ev.edit.slot?.toList := by
  rw [filed, List.filterMap_append, List.filterMap_cons]
  cases ev.edit.slot? <;> rfl

/-! ## One edit -/

theorem appendToFacets_eq_appendEach (r : Report) (text : String) :
    r.appendToFacets text = r.appendEach fun _ => text := by
  have hslots : (r.auxiliary.map fun slot => (slot.1, slot.2 ++ text)) =
      r.auxiliary.mapIdx fun _ slot => (slot.1, slot.2 ++ text) :=
    List.ext_getElem? fun i => by rw [List.getElem?_map, List.getElem?_mapIdx]
  rw [appendToFacets, hslots]
  rfl

theorem appendEach_empty (r : Report) : (r.appendEach fun _ => "") = r :=
  (r.appendToFacets_eq_appendEach "").symm.trans r.appendToFacets_empty

theorem keys_appendEach (r : Report) (texts : Nat → String) :
    (r.appendEach texts).auxiliary.keys = r.auxiliary.keys := by
  refine List.ext_getElem? fun i => ?_
  rw [Slots.keys, Slots.keys, List.getElem?_map, List.getElem?_map, appendEach,
    List.getElem?_mapIdx, Option.map_map]
  rfl

theorem takes_annotate_iff {suffix : String} :
    r.takes (.annotate suffix) = true ↔ suffix ≠ "" ∧ r.stage ≠ .annotated := by
  rw [takes, Option.isSome_iff_exists]
  simp [edit?, annotate?_eq_some_iff]

theorem takes_advance_iff {next : Stage} : r.takes (.advance next) = true ↔ r.stage < next := by
  rw [takes, Option.isSome_iff_exists]
  simp [edit?, advance?_eq_some_iff]

theorem edit_of_not_takes (h : r.takes e = false) : r.edit e = r := by
  rw [takes, Option.isSome_eq_false_iff, Option.isNone_iff_eq_none] at h
  rw [edit, h, Option.getD_none]

/-- An edit that files no text puts what its event says at the end of every facet, and may move
the report on. -/
theorem edit_eq (r : Report) (h : e.slot? = none) :
    ∃ stage, r.edit e = { r.appendEach (Event.mk e (r.takes e)).adds with stage := stage } := by
  cases e with
  | withAuxiliary name text => cases h
  | append texts => exact ⟨r.stage, rfl⟩
  | advance next =>
    have hadds : (Event.mk (.advance next) (r.takes (.advance next))).adds = fun _ => "" := rfl
    refine ⟨(r.advance next).stage, ?_⟩
    rw [hadds, appendEach_empty]
    show r.advance next = { r with stage := (r.advance next).stage }
    unfold advance advance?
    split <;> rfl
  | annotate suffix =>
    cases ht : r.takes (.annotate suffix) with
    | false =>
      have hadds : (Event.mk (.annotate suffix) false).adds = fun _ => "" := rfl
      refine ⟨r.stage, ?_⟩
      rw [hadds, appendEach_empty]
      exact edit_of_not_takes ht
    | true =>
      have hadds : (Event.mk (.annotate suffix) true).adds = fun _ => suffix := rfl
      obtain ⟨hs, hr⟩ := takes_annotate_iff.1 ht
      refine ⟨.annotated, ?_⟩
      have hann : r.annotate suffix = { r.appendToFacets suffix with stage := .annotated } := by
        rw [annotate_eq hr, if_neg hs]
      rw [hadds, ← appendToFacets_eq_appendEach]
      exact hann

/-- An annotated report takes no annotation and no stage. -/
theorem edit_of_annotated (h : r.stage = .annotated) :
    (∀ suffix, r.edit (.annotate suffix) = r) ∧ ∀ next, r.edit (.advance next) = r := by
  constructor
  · intro suffix
    refine edit_of_not_takes (Bool.eq_false_iff.2 fun ht => ?_)
    exact (takes_annotate_iff.1 ht).2 h
  · intro next
    refine edit_of_not_takes (Bool.eq_false_iff.2 fun ht => ?_)
    have hlt : r.stage < next := takes_advance_iff.1 ht
    rw [h] at hlt
    exact Nat.not_lt.2 (Stage.le_annotated next) hlt

theorem stage_of_annotated (e : Edit) (h : r.stage = .annotated) :
    (r.edit e).stage = .annotated := by
  cases e with
  | withAuxiliary | append => exact h
  | annotate suffix => rw [(edit_of_annotated h).1, h]
  | advance next => rw [(edit_of_annotated h).2, h]

/-- Annotating is leaving the stages in which annotations are taken. -/
theorem stage_of_marks (h : (Event.mk e (r.takes e)).marks = true) :
    r.stage ≠ .annotated ∧ (r.edit e).stage = .annotated := by
  cases e with
  | withAuxiliary | append | advance => cases h
  | annotate suffix =>
    obtain ⟨r', hr'⟩ := Option.isSome_iff_exists.1 h
    obtain ⟨-, hbefore, rfl⟩ := annotate?_eq_some_iff.1 hr'
    rw [edit, hr']
    exact ⟨hbefore, rfl⟩

theorem stage_le_edit (r : Report) (e : Edit) : r.stage ≤ (r.edit e).stage := by
  cases e with
  | withAuxiliary | append => exact Nat.le_refl _
  | advance next =>
    show r.stage ≤ (r.advance next).stage
    rw [stage_advance]
    split
    · exact Nat.le_of_lt ‹_›
    · exact Nat.le_refl _
  | annotate suffix =>
    cases ht : r.takes (.annotate suffix) with
    | false =>
      rw [edit_of_not_takes ht]
      exact Nat.le_refl _
    | true =>
      have hmarks : (Event.mk (.annotate suffix) (r.takes (.annotate suffix))).marks = true := ht
      rw [(stage_of_marks hmarks).2]
      exact Stage.le_annotated _

theorem stage_le_run (r : Report) (es : List Edit) : r.stage ≤ (r.run es).stage := by
  induction es generalizing r with
  | nil => exact Nat.le_refl _
  | cons e es ih => exact Nat.le_trans (r.stage_le_edit e) (ih _)

/-! ## What a report tells about its log -/

/-- A log annotates at most once, and not before the report is annotated. -/
def MarkedOnce (past : List Event) (r : Report) : Prop :=
  past.countP Event.marks ≤ 1 ∧ (r.stage ≠ .annotated → past.countP Event.marks = 0)

theorem MarkedOnce.edit (h : MarkedOnce past r) (e : Edit) :
    MarkedOnce (past ++ [⟨e, r.takes e⟩]) (r.edit e) := by
  obtain ⟨hle, hzero⟩ := h
  have hcount : (past ++ [Event.mk e (r.takes e)]).countP Event.marks =
      past.countP Event.marks + if (Event.mk e (r.takes e)).marks then 1 else 0 := by
    rw [List.countP_append, List.countP_singleton]
  rw [MarkedOnce, hcount]
  by_cases hm : (Event.mk e (r.takes e)).marks = true
  · obtain ⟨hbefore, hafter⟩ := stage_of_marks hm
    rw [hzero hbefore, if_pos hm]
    exact ⟨Nat.le_refl _, fun hne => absurd hafter hne⟩
  · rw [if_neg hm, Nat.add_zero]
    refine ⟨hle, fun hne => hzero fun heq => hne ?_⟩
    exact stage_of_annotated e heq

/-- A text is the latest that was filed under its name, and what was added in its place since. -/
def Written (place : Nat) (name text : String) (past : List Event) : Prop :=
  ∃ before base after, past = before ++ ⟨.withAuxiliary name base, true⟩ :: after ∧
    (∀ ev ∈ after, ev.edit.slot? ≠ some name) ∧ text = base ++ added place after

theorem Written.concat (h : Written place name text past) (hev : ev.edit.slot? ≠ some name) :
    Written place name (text ++ ev.adds place) (past ++ [ev]) := by
  obtain ⟨before, base, after, rfl, hafter, rfl⟩ := h
  refine ⟨before, base, after ++ [ev], by simp, ?_, ?_⟩
  · intro ev' hmem
    rcases List.mem_append.1 hmem with hmem | hmem
    · exact hafter ev' hmem
    · rw [List.mem_singleton.1 hmem]
      exact hev
  · rw [added_concat, String.append_assoc]

/-- What a report tells about the events since its first message. -/
structure Tells (kind : Kind) (message : String) (past : List Event) (r : Report) : Prop where
  kind_eq : r.kind = kind
  message_eq : r.message = message ++ added 0 past
  names_eq : r.auxiliary.keys = (filed past).eraseDups
  names_nodup : r.auxiliary.keys.Nodup
  written : ∀ i name text, r.auxiliary[i]? = some (name, text) → Written (i + 1) name text past
  markedOnce : MarkedOnce past r

theorem tells_new (kind : Kind) (message : String) : Tells kind message [] (new kind message) where
  kind_eq := rfl
  message_eq := String.append_empty.symm
  names_eq := rfl
  names_nodup := List.nodup_nil
  written := by simp [new]
  markedOnce := ⟨Nat.zero_le _, fun _ => rfl⟩

/-- Filing a text gives its name a place at the end, unless the name has one, and leaves all
other facets alone. -/
theorem Tells.file (h : Tells kind message past r) (name text : String) :
    Tells kind message (past ++ [⟨.withAuxiliary name text, true⟩])
      (r.withAuxiliary name text) where
  kind_eq := h.kind_eq
  message_eq := by
    rw [added_concat, ← String.append_assoc, ← h.message_eq]
    exact String.append_empty.symm
  names_eq := by
    have hmem : name ∈ r.auxiliary.keys ↔ name ∈ filed past := by
      rw [h.names_eq, List.mem_eraseDups]
    have hkeys : (r.withAuxiliary name text).auxiliary.keys =
        (r.auxiliary.put name text).keys := rfl
    rw [filed_concat, hkeys, Slots.keys_put]
    split
    · next hknown =>
      rw [h.names_eq, eraseDups_append_of_subset]
      simpa [Edit.slot?] using hmem.1 hknown
    · next hnew =>
      rw [h.names_eq]
      exact (eraseDups_concat fun hm => hnew (hmem.2 hm)).symm
  names_nodup := Slots.keys_put_nodup h.names_nodup
  written := by
    intro i name' text' hi
    rcases Slots.getElem?_put h.names_nodup hi with ⟨rfl, rfl⟩ | ⟨hne, hi'⟩
    · exact ⟨past, text', [], rfl, nofun, String.append_empty.symm⟩
    · have hother : some name ≠ some name' := fun heq => hne (Option.some.inj heq).symm
      rw [← String.append_empty (s := text')]
      exact (h.written i name' text' hi').concat hother
  markedOnce := h.markedOnce.edit (.withAuxiliary name text)

/-- Any other edit leaves the names alone and adds what its event says. -/
theorem Tells.add (h : Tells kind message past r) (hslot : e.slot? = none) :
    Tells kind message (past ++ [⟨e, r.takes e⟩]) (r.edit e) := by
  obtain ⟨stage, heq⟩ := r.edit_eq hslot
  have hkeys : (r.edit e).auxiliary.keys = r.auxiliary.keys := by
    rw [heq]
    exact r.keys_appendEach _
  refine ⟨?_, ?_, ?_, hkeys ▸ h.names_nodup, ?_, h.markedOnce.edit e⟩
  · rw [heq]
    exact h.kind_eq
  · rw [heq, added_concat, ← String.append_assoc, ← h.message_eq]
    rfl
  · rw [hkeys, filed_concat, hslot, h.names_eq]
    exact congrArg List.eraseDups (List.append_nil _).symm
  · intro i name text hi
    rw [heq, appendEach, List.getElem?_mapIdx] at hi
    obtain ⟨⟨name₀, text₀⟩, hi₀, hslot₀⟩ := Option.map_eq_some_iff.1 hi
    cases hslot₀
    exact (h.written i name₀ text₀ hi₀).concat (hslot ▸ nofun)

theorem Tells.edit (h : Tells kind message past r) (e : Edit) :
    Tells kind message (past ++ [⟨e, r.takes e⟩]) (r.edit e) := by
  cases e with
  | withAuxiliary name text => exact h.file name text
  | annotate | advance | append => exact h.add rfl

/-- A report tells its log, whatever is done to it. -/
theorem Tells.run (h : Tells kind message past r) (es : List Edit) :
    Tells kind message (past ++ r.log es) (r.run es) := by
  induction es generalizing past r with
  | nil => simpa [log, Report.run] using h
  | cons e es ih =>
    have hstep := ih (h.edit e)
    rw [List.append_assoc] at hstep
    exact hstep

/-! ## The whole life -/

/-- From a message on, and whatever is done to the report: its kind stays, and its stage never
goes back. At most one annotation is taken; the next one is exactly if it is not empty and the
report is not annotated, and an annotated report takes no stage either. The names of the auxiliary
texts are all different, in the order in which they were first filed. The message is what it was,
and an auxiliary text what was last filed under its name, followed by what was added since: the
annotations that were taken and what was written to it, in order. -/
theorem run_new (kind : Kind) (message : String) (es : List Edit) :
    let r := (new kind message).run es
    let log := (new kind message).log es
    r.kind = kind ∧
    (∀ later, r.stage ≤ (r.run later).stage) ∧
    log.countP Event.marks ≤ 1 ∧
    (∀ suffix, r.takes (.annotate suffix) = true ↔ suffix ≠ "" ∧ r.stage ≠ .annotated) ∧
    (r.stage = .annotated →
      (∀ suffix, r.edit (.annotate suffix) = r) ∧ ∀ next, r.edit (.advance next) = r) ∧
    r.auxiliary.keys.Nodup ∧
    r.auxiliary.keys = (filed log).eraseDups ∧
    r.message = message ++ added 0 log ∧
    ∀ i name text, r.auxiliary[i]? = some (name, text) → ∃ before base after,
      log = before ++ ⟨.withAuxiliary name base, true⟩ :: after ∧
      (∀ ev ∈ after, ev.edit.slot? ≠ some name) ∧
      text = base ++ added (i + 1) after := by
  intro r log
  have h : Tells kind message log r := (tells_new kind message).run es
  exact ⟨h.kind_eq, r.stage_le_run, h.markedOnce.1, fun _ => takes_annotate_iff, edit_of_annotated,
    h.names_nodup, h.names_eq, h.message_eq, h.written⟩

/-- An annotation reaches the texts that are there, and is gone with them. -/
example :
    ((new .nameNotDefined "m").run
      [.withAuxiliary "a" "x", .withAuxiliary "b" "y", .annotate "?", .annotate "!",
       .withAuxiliary "a" "z", .append fun i => toString i]).facets = ["m?0", "z1", "y?2"] := by
  decide +kernel

end Report

end ErrorHints

import ErrorHints.Grammar.Table
import Mathlib.Data.Set.List

/-!
# Tables made from rows

A table is made from rows of any origin, with any compiler: a row may have a pattern that the
compiler refuses or groups that are no fields, and its id may be taken. Such rows are passed over,
so the table holds what the other rows describe, and of several with one id the first. It is read
in two ways. The entries of a kind are found through the index, those that accept a message by
going through all of them; the fields of a message are the same either way. For this a matcher has
to capture something exactly from the messages that it accepts, and nothing else is asked of it.

Adding rows is adding what they describe (`addRows_eq`), so what is known of adding entries one by
one holds of them.

Results:
* `Row.compile_eq_ok_iff`: which entry a row describes.
* `Row.exists_compile_iff`: which rows describe one.
* `toList_addRows`: which entries a table made from rows holds, and in what order.
* `classify_of_find?`: both ways of reading a table agree.
* `addRows_empty`: what is in a table made from rows, and how it is read.
-/
namespace ErrorHints

/-! ## Rows that describe an entry -/

namespace Row

variable {compiler : Matcher.Compiler} {row : Row} {e : Entry}

/-- The entry with the matcher of the row's pattern, whose fields are those that the groups with a
name are named after. -/
structure Describes (compiler : Matcher.Compiler) (row : Row) (e : Entry) : Prop where
  id_eq : e.id = row.id
  kind_eq : e.kind = row.kind
  matcher_eq : compiler row.wholePattern = .ok e.matcher
  tags_eq : e.fields.map FieldName.tag = e.matcher.names

/-- A row is in order if the compiler takes its pattern and the names of its groups are those of
fields. -/
def InOrder (compiler : Matcher.Compiler) (row : Row) : Prop :=
  ∃ matcher, compiler row.wholePattern = .ok matcher ∧
    ∀ name ∈ matcher.names, ∃ f : FieldName, f.tag = name

theorem field?_eq_ok_iff {group : String} {f : FieldName} :
    row.field? group = .ok f ↔ f.tag = group := by
  unfold field?
  constructor
  · intro h
    split at h
    · next f' hf' =>
      cases h
      exact FieldName.tag_of_ofTag? hf'
    · cases h
  · rintro rfl
    rw [FieldName.ofTag?_tag]

theorem mapM_field?_eq_ok_iff {names : List String} {fs : List FieldName} :
    names.mapM row.field? = .ok fs ↔ fs.map FieldName.tag = names := by
  induction names generalizing fs with
  | nil => cases fs <;> simp [pure, Except.pure]
  | cons name names ih =>
    rw [List.mapM_cons]
    cases fs with
    | nil =>
      cases row.field? name <;> cases names.mapM row.field? <;>
        simp [bind, Except.bind, pure, Except.pure]
    | cons f fs =>
      rw [List.map_cons, List.cons.injEq, ← ih, ← @field?_eq_ok_iff row]
      cases row.field? name <;> cases names.mapM row.field? <;>
        simp [bind, Except.bind, pure, Except.pure]

/-- Which entry a row describes. -/
theorem compile_eq_ok_iff : row.compile compiler = .ok e ↔ row.Describes compiler e := by
  unfold compile
  constructor
  · intro h
    split at h
    · cases h
    · next matcher hmatcher =>
      cases hfs : matcher.names.mapM row.field? with
      | error fault => rw [hfs] at h; cases h
      | ok fs =>
        rw [hfs] at h
        cases h
        exact ⟨rfl, rfl, hmatcher, mapM_field?_eq_ok_iff.1 hfs⟩
  · intro h
    rw [h.matcher_eq]
    simp only [mapM_field?_eq_ok_iff.2 h.tags_eq, ← h.id_eq, ← h.kind_eq]
    rfl

/-- Which rows describe an entry. -/
theorem exists_compile_iff : (∃ e, row.compile compiler = .ok e) ↔ row.InOrder compiler := by
  simp only [compile_eq_ok_iff]
  constructor
  · rintro ⟨e, h⟩
    refine ⟨e.matcher, h.matcher_eq, fun name hname => ?_⟩
    obtain ⟨f, -, hf⟩ := List.mem_map.1 (h.tags_eq ▸ hname)
    exact ⟨f, hf⟩
  · rintro ⟨matcher, hmatcher, hnames⟩
    obtain ⟨fs, hfs⟩ := (Set.ext_iff.1 (Set.range_list_map FieldName.tag) matcher.names).2 hnames
    exact ⟨⟨row.id, row.kind, matcher, fs⟩, rfl, rfl, hmatcher, hfs⟩

instance : Decidable (row.InOrder compiler) :=
  decidable_of_iff ((row.compile compiler).toOption.isSome) <| by
    rw [← exists_compile_iff]
    cases row.compile compiler <;> simp [Except.toOption]

end Row

/-! ## Tables -/

namespace Grammar

variable {compiler : Matcher.Compiler} {g : Grammar}

/-- The entries that rows describe, in order. -/
def described (compiler : Matcher.Compiler) (rows : List Row) : List Entry :=
  rows.filterMap fun row => (row.compile compiler).toOption

theorem addRows_cons (g : Grammar) (row : Row) (rows : List Row) :
    g.addRows compiler (row :: rows) =
      match row.compile compiler with
      | .ok e => (g.add e).addRows compiler rows
      | .error _ => g.addRows compiler rows := by
  rw [addRows, List.foldl_cons, addRow]
  cases row.compile compiler <;> rfl

theorem described_cons (row : Row) (rows : List Row) :
    described compiler (row :: rows) =
      match row.compile compiler with
      | .ok e => e :: described compiler rows
      | .error _ => described compiler rows := by
  rw [described, List.filterMap_cons]
  cases row.compile compiler <;> rfl

theorem described_of_not_inOrder {row : Row} (h : ¬ row.InOrder compiler) (rows : List Row) :
    described compiler (row :: rows) = described compiler rows := by
  rw [← Row.exists_compile_iff] at h
  rw [described_cons]
  cases hrow : row.compile compiler with
  | ok e => exact absurd ⟨e, hrow⟩ h
  | error fault => rfl

/-- Adding rows is adding what they describe. -/
theorem addRows_eq (g : Grammar) (rows : List Row) :
    g.addRows compiler rows = (described compiler rows).foldl add g := by
  induction rows generalizing g with
  | nil => rfl
  | cons row rows ih =>
    rw [addRows_cons, described_cons]
    cases row.compile compiler with
    | ok e => exact ih (g.add e)
    | error fault => exact ih g

theorem filed_addRows (h : g.Filed) (rows : List Row) : (g.addRows compiler rows).Filed := by
  rw [addRows_eq]
  exact filed_foldl_add h _

theorem addRows_append (g : Grammar) (rows more : List Row) :
    g.addRows compiler (rows ++ more) = (g.addRows compiler rows).addRows compiler more :=
  List.foldl_append

theorem toList_addRows (rows : List Row) :
    (empty.addRows compiler rows).phrasings.toList =
      distinctOn Entry.id (described compiler rows) := by
  have hempty : empty.phrasings.toList = distinctOn Entry.id [] := rfl
  rw [addRows_eq]
  exact toList_foldl_add hempty (described compiler rows)

/-- A row that is not in order is refused, and may as well not be there. -/
theorem addRows_of_not_inOrder {row : Row} (h : ¬ row.InOrder compiler) (g : Grammar) :
    (∃ fault, g.addRow compiler row = .error fault) ∧
      ∀ rows, g.addRows compiler (row :: rows) = g.addRows compiler rows := by
  constructor
  · rw [← Row.exists_compile_iff] at h
    cases hrow : row.compile compiler with
    | ok e => exact absurd ⟨e, hrow⟩ h
    | error fault => exact ⟨fault, by rw [addRow, hrow]; rfl⟩
  · intro rows
    rw [addRows_eq, addRows_eq, described_of_not_inOrder h]

/-- The fields of a message are those that the first entry of its kind captures, among all that
accept the message. -/
theorem classify_of_find? (h : g.Filed) (k : Kind) (message : String) :
    match (g.matching message).find? (·.kind = k) with
    | some e => e.captures? message = some (g.classify k message)
    | none => g.classify k message = .empty := by
  rw [classify_eq h, List.head?_filter]
  cases hfirst : (g.matching message).find? (·.kind = k) with
  | none => rfl
  | some e =>
    have haccepts := (List.mem_filter.1 (List.mem_of_find?_eq_some hfirst)).2
    rw [e.accepts_eq_isSome_captures?] at haccepts
    obtain ⟨fields, hfields⟩ := Option.isSome_iff_exists.1 haccepts
    show e.captures? message = some ((e.captures? message).getD .empty)
    rw [hfields, Option.getD_some]

/-- With any compiler, a table made from any rows holds what the rows in order describe, and of
several with one id the first, in the order of the rows. Adding many rows is adding one after the
other and going on where one is refused; those that are refused leave no trace. The entries of a
kind are those of the table that have it, in table order, and the fields of a message are what the
first of them captures that accepts it: none if there is no such entry. -/
theorem addRows_empty (compiler : Matcher.Compiler) (rows : List Row) :
    let g := empty.addRows compiler rows
    (∀ row : Row, row.InOrder compiler ↔ ∃ e, row.compile compiler = .ok e) ∧
    (∀ (row : Row) (e : Entry), row.compile compiler = .ok e ↔ row.Describes compiler e) ∧
    g.phrasings.toList = distinctOn Entry.id (described compiler rows) ∧
    (∀ id, g.find? id = (described compiler rows).find? (·.id == id)) ∧
    (∀ row, empty.addRows compiler (rows ++ [row]) =
      match g.addRow compiler row with
      | .ok g' => g'
      | .error _ => g) ∧
    (∀ row : Row, ¬ row.InOrder compiler → (∃ fault, g.addRow compiler row = .error fault) ∧
      ∀ more, empty.addRows compiler (rows ++ row :: more) =
        empty.addRows compiler (rows ++ more)) ∧
    (∀ k, g.phrasingsFor k = g.phrasings.toList.filter (·.kind = k)) ∧
    ∀ k message,
      match (g.matching message).find? (·.kind = k) with
      | some e => e.captures? message = some (g.classify k message)
      | none => g.classify k message = .empty := by
  intro g
  have hlist : g.phrasings.toList = distinctOn Entry.id (described compiler rows) :=
    toList_addRows rows
  have hfiled : g.Filed := filed_addRows filed_empty rows
  refine ⟨fun row => Row.exists_compile_iff.symm, fun row e => Row.compile_eq_ok_iff, hlist,
    fun id => ?_, fun row => ?_, fun row hrow => ?_, fun k => (hfiled k).2,
    classify_of_find? hfiled⟩
  · rw [find?_eq, hlist, find?_distinctOn]
  · rw [addRows_append]
    rfl
  · obtain ⟨hrefused, hskipped⟩ := addRows_of_not_inOrder hrow g
    refine ⟨hrefused, fun more => ?_⟩
    rw [addRows_append, addRows_append]
    exact hskipped more

/-- Of a row that is not closed, one with a group that is no field and two with one id, the third
is kept. -/
theorem addRows_empty_reader :
    let broken : Row := ⟨"broken", .nameNotDefined, "name '(?P<name>[a-z]+"⟩
    let unknown : Row := ⟨"unknown", .keyLookupFailed, "(?P<colour>[a-z]+)"⟩
    let first : Row := ⟨"name", .nameNotDefined, "name '(?P<name>[a-z]+)' is not defined"⟩
    let second : Row := ⟨"name", .overflow, "(?P<name>[a-z]+) is too large"⟩
    let g := empty.addRows Matcher.reader [broken, unknown, first, second]
    ¬ broken.InOrder Matcher.reader ∧ ¬ unknown.InOrder Matcher.reader ∧
    (∃ e, first.Describes Matcher.reader e ∧ g.phrasings.toList = [e]) ∧
    g.classify .nameNotDefined "name 'babar' is not defined" =
      ⟨some "name", [(.name, "babar")]⟩ ∧
    g.classify .overflow "babar is too large" = .empty := by
  intro broken unknown first second g
  obtain ⟨horder, hdescribes, hlist, -, -, -, -, hread⟩ :=
    addRows_empty Matcher.reader [broken, unknown, first, second]
  have hbroken : ¬ broken.InOrder Matcher.reader := by decide +kernel
  have hunknown : ¬ unknown.InOrder Matcher.reader := by decide +kernel
  -- what the other two rows describe, by what is needed of it here
  obtain ⟨e, he⟩ := (horder first).1 (by decide +kernel)
  obtain ⟨e', he'⟩ := (horder second).1 (by decide +kernel)
  have hfirst : (first.compile Matcher.reader).toOption.map
      (fun e => (e.id, e.kind, e.captures? "name 'babar' is not defined")) =
        some ("name", .nameNotDefined, some ⟨some "name", [(.name, "babar")]⟩) := by
    decide +kernel
  have hsecond : (second.compile Matcher.reader).toOption.map (·.id) = some "name" := by
    decide +kernel
  simp only [he, he', Except.toOption, Option.map_some, Option.some_inj, Prod.mk.injEq]
    at hfirst hsecond
  obtain ⟨hid, hkind, hcaptures⟩ := hfirst
  have hkept : g.phrasings.toList = [e] := by
    rw [hlist, described_of_not_inOrder hbroken, described_of_not_inOrder hunknown,
      described_cons, he, described_cons, he']
    simp [described, distinctOn_cons, hid, hsecond]
  have haccepts : e.accepts "name 'babar' is not defined" := by
    rw [e.accepts_eq_isSome_captures?, hcaptures]
    rfl
  have hname : (g.matching "name 'babar' is not defined").find? (·.kind = .nameNotDefined) =
      some e := by
    simp [matching, hkept, haccepts, hkind]
  have hlarge : (g.matching "babar is too large").find? (·.kind = .overflow) = none := by
    simp [matching, hkept, hkind]
  have hread_name := hread .nameNotDefined "name 'babar' is not defined"
  have hread_large := hread .overflow "babar is too large"
  rw [hname] at hread_name
  rw [hlarge] at hread_large
  exact ⟨hbroken, hunknown, ⟨e, (hdescribes first e).1 he, hkept⟩,
    Option.some.inj (hread_name.symm.trans hcaptures), hread_large⟩

end Grammar

end ErrorHints

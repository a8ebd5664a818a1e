import ErrorHints.Distinct
import ErrorHints.Grammar.Standard
import ErrorHints.KindIndex

/-!
# Tables of phrasings

A grammar is a table of entries with different ids, filed under their kinds.
A message of some kind is classified by the first entry of that kind which
accepts it. Entries come from phrasings or from rows, by way of a compiler.

Results:
* `phrasings_add`: an entry is added at the end unless its id is known.
* `toList_foldl_add`: of the entries with one id the first is kept.
* `filed_foldl_add`: whatever entries are added, those of a kind are the ones of
  the table that have it, in table order.
* `classify_eq`: a message is read by the first entry of its kind that accepts it.
-/
namespace ErrorHints

/-- A table of phrasings, in the form in which they are looked up. -/
structure Grammar where
  phrasings : Array Entry := #[]
  index : KindIndex := .empty

namespace Grammar

/-- The table without phrasings. -/
def empty : Grammar := {}

/-- The phrasing with a given id. -/
def find? (g : Grammar) (id : String) : Option Entry := g.phrasings.find? (·.id == id)

/-- Add an entry at the end; one with a known id changes nothing. -/
def add (g : Grammar) (e : Entry) : Grammar :=
  if (g.find? e.id).isSome then g
  else { phrasings := g.phrasings.push e, index := g.index.add e.kind g.phrasings.size }

/-- Add the entry that a row describes. -/
def addRow (compiler : Matcher.Compiler) (g : Grammar) (row : Row) : Except RowFault Grammar :=
  (row.compile compiler).map g.add

/-- Add the rows that describe an entry and skip the others. -/
def addRows (compiler : Matcher.Compiler) (g : Grammar) (rows : List Row) : Grammar :=
  rows.foldl (fun g row => match g.addRow compiler row with
    | .ok g' => g'
    | .error _ => g) g

/-- The table of some phrasings. -/
def ofPhrasings (ps : List Phrasing) : Grammar := (ps.map Phrasing.entry).foldl add empty

/-- The table of the standard phrasings. -/
def standard : Grammar := ofPhrasings standardPhrasings

/-- The phrasings of a kind, in table order. -/
def phrasingsFor (g : Grammar) (k : Kind) : List Entry :=
  (g.index.places k).filterMap (g.phrasings[·]?)

/-- The fields of a message of kind `k`: those of the first phrasing of that
kind which accepts it, none if there is no such phrasing. -/
def classify (g : Grammar) (k : Kind) (message : String) : Fields :=
  ((g.phrasingsFor k).findSome? (·.captures? message)).getD .empty

/-- Every phrasing, of any kind, that accepts a message. -/
def matching (g : Grammar) (message : String) : List Entry :=
  g.phrasings.toList.filter (·.accepts message)

def size (g : Grammar) : Nat := g.phrasings.size

def isEmpty (g : Grammar) : Bool := g.phrasings.isEmpty

/-- The table in one line. -/
def summary (g : Grammar) : String :=
  "GrammarTable \x7b entry_count: " ++ toString g.size ++ ", kinds: " ++
    toString g.index.kindCount ++ ", .. \x7d"

/-! ## What the index gives back -/

theorem phrasings_add (g : Grammar) (e : Entry) :
    (g.add e).phrasings.toList =
      if (g.find? e.id).isSome then g.phrasings.toList else g.phrasings.toList ++ [e] := by
  unfold add; split <;> simp

/-- A table whose index points into its phrasings and gives those of each kind. -/
def Filed (g : Grammar) : Prop :=
  ∀ k, (∀ i ∈ g.index.places k, i < g.phrasings.size) ∧
    g.phrasingsFor k = g.phrasings.toList.filter (·.kind = k)

theorem filed_empty : empty.Filed := by
  intro k
  simp [empty, phrasingsFor]

theorem filed_add {g : Grammar} (h : g.Filed) (e : Entry) : (g.add e).Filed := by
  unfold add
  split
  · exact h
  intro k
  obtain ⟨hlt, heq⟩ := h k
  have hplaces := KindIndex.places_add g.index e.kind k g.phrasings.size
  by_cases hk : e.kind = k
  · rw [if_pos hk, hk] at hplaces
    constructor
    · intro i hi
      simp only [hk, hplaces, List.mem_append, List.mem_singleton, Array.size_push] at hi ⊢
      rcases hi with hi | hi
      · exact Nat.lt_succ_of_lt (hlt i hi)
      · rw [hi]; exact Nat.lt_succ_self _
    · simp only [phrasingsFor, hk, hplaces, List.filterMap_append, Array.toList_push,
        List.filter_append]
      rw [KindIndex.filterMap_push _ _ e hlt]
      congr 1
      simp [hk]
  · rw [if_neg hk] at hplaces
    constructor
    · intro i hi
      simp only [hplaces, Array.size_push] at hi ⊢
      exact Nat.lt_succ_of_lt (hlt i hi)
    · simp only [phrasingsFor, hplaces, Array.toList_push, List.filter_append]
      rw [KindIndex.filterMap_push _ _ e hlt]
      simpa [hk, phrasingsFor] using heq

theorem filed_foldl_add {g : Grammar} (h : g.Filed) (es : List Entry) : (es.foldl add g).Filed := by
  induction es generalizing g with
  | nil => exact h
  | cons e es ih => exact ih (filed_add h e)

theorem filed_ofPhrasings (ps : List Phrasing) : (ofPhrasings ps).Filed :=
  filed_foldl_add filed_empty _

/-! ## Ids -/

section Ids

variable {g : Grammar} {past : List Entry}

theorem find?_eq (g : Grammar) (id : String) :
    g.find? id = g.phrasings.toList.find? (·.id == id) := by
  rw [find?, Array.find?_toList]

theorem isSome_find? (g : Grammar) (id : String) :
    (g.find? id).isSome = (g.phrasings.toList.map Entry.id).contains id := by
  rw [Bool.eq_iff_iff, find?_eq, List.find?_isSome, List.contains_iff_mem, List.mem_map]
  simp

/-- One more entry is kept if its id is new. -/
theorem toList_add (h : g.phrasings.toList = distinctOn Entry.id past) (e : Entry) :
    (g.add e).phrasings.toList = distinctOn Entry.id (past ++ [e]) := by
  have hknown : (g.find? e.id).isSome = (past.map Entry.id).contains e.id := by
    rw [isSome_find?, h, Bool.eq_iff_iff, List.contains_iff_mem, List.contains_iff_mem,
      mem_map_distinctOn]
  rw [phrasings_add, hknown, h, distinctOn_concat]
  split
  · exact (List.append_nil _).symm
  · rfl

/-- Of the entries with one id the first is kept. -/
theorem toList_foldl_add (h : g.phrasings.toList = distinctOn Entry.id past) (es : List Entry) :
    (es.foldl add g).phrasings.toList = distinctOn Entry.id (past ++ es) := by
  induction es generalizing g past with
  | nil => simpa using h
  | cons e es ih =>
    have hrest := ih (toList_add h e)
    rw [List.append_assoc] at hrest
    exact hrest

end Ids

/-- Phrasings with different ids are all kept, in order. -/
theorem toList_ofPhrasings {ps : List Phrasing} (h : (ps.map (·.id)).Nodup) :
    (ofPhrasings ps).phrasings.toList = ps.map Phrasing.entry := by
  have hempty : empty.phrasings.toList = distinctOn Entry.id [] := rfl
  have hids : ((ps.map Phrasing.entry).map Entry.id).Nodup := by
    rw [List.map_map]
    exact h
  exact (toList_foldl_add hempty _).trans (distinctOn_of_nodup hids)

/-! ## Reading a message -/

theorem matching_ofPhrasings {ps : List Phrasing} (h : (ps.map (·.id)).Nodup) (message : String) :
    (ofPhrasings ps).matching message =
      (ps.filter (·.accepts message)).map Phrasing.entry := by
  rw [matching, toList_ofPhrasings h, List.filter_map]
  rfl

/-- A message is read by the first entry of its kind that accepts it. -/
theorem classify_eq {g : Grammar} (h : g.Filed) (k : Kind) (message : String) :
    g.classify k message =
      (((g.matching message).filter (·.kind = k)).head?.bind (·.captures? message)).getD .empty := by
  have hcomm : (g.matching message).filter (·.kind = k) =
      (g.phrasings.toList.filter (·.kind = k)).filter (·.accepts message) := by
    rw [matching, List.filter_filter, List.filter_filter]
    exact List.filter_congr fun p _ => Bool.and_comm _ _
  rw [classify, (h k).2, hcomm]
  congr 1
  induction g.phrasings.toList.filter (·.kind = k) with
  | nil => rfl
  | cons e es ih =>
    have he := e.accepts_eq_isSome_captures? message
    rw [List.findSome?_cons]
    cases hc : e.captures? message with
    | some f => rw [List.filter_cons_of_pos (by rw [he, hc]; rfl)]; exact hc.symm
    | none => rw [List.filter_cons_of_neg (by rw [he, hc]; simp)]; exact ih

theorem entry_classify {g : Grammar} (h : g.Filed) (k : Kind) (message : String) :
    (g.classify k message).entry =
      ((g.matching message).filter (·.kind = k)).head?.map (·.id) := by
  rw [classify_eq h]
  cases he : ((g.matching message).filter (·.kind = k)).head? with
  | none => rfl
  | some e =>
    have hm := (List.mem_filter.1 (List.mem_filter.1 (List.mem_of_head? he)).1).2
    rw [e.accepts_eq_isSome_captures?] at hm
    obtain ⟨f, hf⟩ := Option.isSome_iff_exists.1 hm
    rw [Option.bind_some, hf]
    exact Entry.entry_captures? hf

end Grammar

end ErrorHints

import ErrorHints.Proofs.SourceLine.Cuts
import ErrorHints.Strategy.SourceCode

/-!
# Called names

A line is searched for names with an opening parenthesis behind them. A name goes on with word
characters of any script and with points, but starts with an ASCII letter or an underscore. So a
stretch of such characters before a parenthesis is not always a name as a whole: it is one from the
first character on that a name may start with. What is before that character are points, digits and
letters of other scripts.

Results:
* `namesFrom_eq`: what the search finds, cut by cut.
* `calledNames_eq`: the names that are found are those of the calls of a line.
* `IsCall.before`: what may be directly before the name of a call.
* `candidates_footprintAlternative_of_line`: what is suggested for the calls of a line.
-/
namespace ErrorHints

namespace SourceLine

/-- Characters of dotted names. -/
def isNameChar (c : Char) : Bool := Unicode.isWord c || c = '.'

/-- Characters that a called name may start with. -/
def isNameStart (c : Char) : Bool := c.isAlpha || c = '_'

theorem isNameChar_of_isNameStart {c : Char} (h : isNameStart c) : isNameChar c := by
  simp only [isNameStart, Bool.or_eq_true, decide_eq_true_eq] at h
  rcases h with h | rfl
  · have hascii : c.toNat < 128 := by
      have hv : c.val.toNat = c.toNat := rfl
      have hZ : 'Z'.val.toNat = 90 := rfl
      have hz : 'z'.val.toNat = 122 := rfl
      simp only [Unicode.isAlpha_eq, ge_iff_le, UInt32.le_iff_toNat_le, hv, Bool.or_eq_true,
        Bool.and_eq_true, decide_eq_true_eq] at h
      omega
    simp [isNameChar, Unicode.isWord, hascii, Char.isAlphanum, h]
  · decide

theorem isNameChar_eq_false_of_isSpace {c : Char} (h : Unicode.isSpace c) :
    isNameChar c = false := by
  have hpoint : c ≠ '.' := by
    rintro rfl
    exact absurd h (by decide)
  simp [isNameChar, Unicode.isWord_eq_false_of_isSpace h, hpoint]

theorem contains_nameStarts (c : Char) : nameStarts.contains c = isNameStart c := by
  rw [nameStarts, CharSet.contains_union, CharSet.contains_union, CharSet.contains_range,
    CharSet.contains_range, CharSet.contains_single, isNameStart, Unicode.isAlpha_eq,
    Bool.eq_iff_iff]
  have hv (d : Char) : d.val.toNat = d.toNat := rfl
  simp only [ge_iff_le, UInt32.le_iff_toNat_le, hv, Bool.or_eq_true, Bool.and_eq_true,
    decide_eq_true_eq]
  rw [or_assoc, or_comm (a := c = '_')]

/-! ## Calls -/

/-- A name with blanks and an opening parenthesis behind it. -/
structure Call where
  front : List Char
  name : List Char
  blanks : List Char
  back : List Char
  deriving DecidableEq

/-- A call of a name in a text. The name cannot be made longer: it goes on to the blanks, and no
character that belongs to it could start a name further to the left. -/
structure IsCall (text : List Char) (k : Call) : Prop where
  whole : k.front ++ (k.name ++ (k.blanks ++ '(' :: k.back)) = text
  starts : ∃ c ∈ k.name.head?, isNameStart c
  inside : ∀ c ∈ k.name, isNameChar c
  blank : ∀ c ∈ k.blanks, Unicode.isSpace c
  first : ∀ x y, k.front = x ++ y → (∀ c ∈ y, isNameChar c) → ∀ c ∈ y, isNameStart c = false

/-- Only a digit or a letter of another script can belong to the same word as the name and not to
the name. -/
theorem IsCall.before {text : List Char} {k : Call} (h : IsCall text k) {b : Char}
    (hb : k.front.getLast? = some b) (hw : Unicode.isWord b) : isNameStart b = false := by
  obtain ⟨x, hx⟩ := List.getLast?_eq_some_iff.1 hb
  exact h.first x [b] hx (by simp [isNameChar, hw]) b (List.mem_singleton_self b)

/-- Whether a name has started before the end of a text and goes on there. -/
def inName (front : List Char) : Bool := (front.reverse.takeWhile isNameChar).any isNameStart

theorem inName_concat (front : List Char) (c : Char) :
    inName (front ++ [c]) = (isNameChar c && (isNameStart c || inName front)) := by
  rw [inName, List.reverse_append, List.reverse_singleton, List.singleton_append,
    List.takeWhile_cons]
  cases isNameChar c <;> simp [inName]

theorem inName_append {front x : List Char} (h : inName front) (hx : ∀ c ∈ x, isNameChar c) :
    inName (front ++ x) := by
  induction x generalizing front with
  | nil => simpa using h
  | cons c x ih =>
    rw [List.append_cons]
    refine ih ?_ fun d hd => hx d (List.mem_cons_of_mem c hd)
    rw [inName_concat, hx c List.mem_cons_self, h]
    simp

/-- No name goes on if and only if no character before could start one. -/
theorem inName_eq_false_iff (front : List Char) :
    inName front = false ↔
      ∀ x y, front = x ++ y → (∀ c ∈ y, isNameChar c) → ∀ c ∈ y, isNameStart c = false := by
  rw [inName, List.any_eq_false]
  constructor
  · rintro h x y rfl hy c hc
    rw [List.reverse_append, List.takeWhile_append_of_pos (by simpa using hy)] at h
    simpa using h c (List.mem_append_left _ (List.mem_reverse.2 hc))
  · intro h c hc
    have hsplit : front = (front.reverse.dropWhile isNameChar).reverse ++
        (front.reverse.takeWhile isNameChar).reverse := by
      rw [← List.reverse_append, List.takeWhile_append_dropWhile, List.reverse_reverse]
    have hin : ∀ d ∈ (front.reverse.takeWhile isNameChar).reverse, isNameChar d := fun d hd =>
      List.mem_takeWhile_imp (List.mem_reverse.1 hd)
    simpa using h _ _ hsplit hin c (List.mem_reverse.2 hc)

/-- What follows on a name, blanks and an opening parenthesis. -/
def behindParenthesis? (back : List Char) : Option (List Char) :=
  match (back.dropWhile isNameChar).dropWhile Unicode.isSpace with
  | '(' :: rest => some rest
  | _ => none

/-- The call whose name starts at a cut, if one does. -/
def Cut.call? (k : Cut) : Option Call :=
  if k.back.head?.any isNameStart && !inName k.front then
    (behindParenthesis? k.back).map fun back =>
      ⟨k.front, k.back.takeWhile isNameChar,
        (k.back.dropWhile isNameChar).takeWhile Unicode.isSpace, back⟩
  else none

theorem behindParenthesis?_eq_some_iff {back rest : List Char} :
    behindParenthesis? back = some rest ↔
      (back.dropWhile isNameChar).dropWhile Unicode.isSpace = '(' :: rest := by
  unfold behindParenthesis?
  split
  · rename_i heq
    simp [heq]
  · rename_i hne
    simpa using hne rest

theorem eq_of_behindParenthesis? {back rest : List Char} (h : behindParenthesis? back = some rest) :
    back = back.takeWhile isNameChar ++
      ((back.dropWhile isNameChar).takeWhile Unicode.isSpace ++ '(' :: rest) := by
  rw [← behindParenthesis?_eq_some_iff.1 h, List.takeWhile_append_dropWhile,
    List.takeWhile_append_dropWhile]

/-- The calls of a text. -/
def calls (text : List Char) : List Call := (cuts text).filterMap Cut.call?

theorem call?_eq_some_iff {k : Cut} {a : Call} :
    k.call? = some a ↔
      k.back.head?.any isNameStart ∧ inName k.front = false ∧
        ∃ rest, behindParenthesis? k.back = some rest ∧
          a = ⟨k.front, k.back.takeWhile isNameChar,
            (k.back.dropWhile isNameChar).takeWhile Unicode.isSpace, rest⟩ := by
  unfold Cut.call?
  split
  · rename_i h
    rw [Bool.and_eq_true, Bool.not_eq_true'] at h
    rw [Option.map_eq_some_iff]
    constructor
    · rintro ⟨rest, hrest, rfl⟩
      exact ⟨h.1, h.2, rest, hrest, rfl⟩
    · rintro ⟨-, -, rest, hrest, rfl⟩
      exact ⟨rest, hrest, rfl⟩
  · rename_i h
    rw [Bool.and_eq_true, Bool.not_eq_true'] at h
    simp only [reduceCtorEq, false_iff]
    rintro ⟨hstart, hfirst, -⟩
    exact h ⟨hstart, hfirst⟩

/-- No call starts within a name, nor where no name may start. -/
theorem call?_eq_none {k : Cut} (h : inName k.front ∨ k.back.head?.any isNameStart = false) :
    k.call? = none := by
  rcases h with h | h <;> simp [Cut.call?, h]

theorem isCall_of_call? {k : Cut} {a : Call} (h : k.call? = some a) :
    IsCall (k.front ++ k.back) a ∧ a.front = k.front := by
  obtain ⟨hstart, hfirst, rest, hrest, rfl⟩ := call?_eq_some_iff.1 h
  obtain ⟨c, hc, hstart⟩ := (Option.any_eq_true ..).1 hstart
  obtain ⟨cs, hcs⟩ := List.head?_eq_some_iff.1 hc
  refine ⟨⟨?_, ⟨c, ?_, hstart⟩, ?_, ?_, ?_⟩, rfl⟩
  · rw [← eq_of_behindParenthesis? hrest]
  · simp [hcs, isNameChar_of_isNameStart hstart]
  · exact fun d hd => List.mem_takeWhile_imp hd
  · exact fun d hd => List.mem_takeWhile_imp hd
  · exact (inName_eq_false_iff k.front).1 hfirst

theorem IsCall.exists_cut {text : List Char} {a : Call} (h : IsCall text a) :
    ∃ k : Cut, k.front ++ k.back = text ∧ k.call? = some a := by
  obtain ⟨c, hc, hstart⟩ := h.starts
  obtain ⟨cs, hcs⟩ := List.head?_eq_some_iff.1 hc
  have hend : ∀ d ∈ (a.blanks ++ '(' :: a.back).head?, isNameChar d = false := by
    cases hb : a.blanks with
    | nil => simpa using by decide
    | cons d ds =>
      simpa using isNameChar_eq_false_of_isSpace (h.blank d (by simp [hb]))
  obtain ⟨hname, htail⟩ := span_append h.inside hend
  obtain ⟨hblanks, hback⟩ := span_append (y := '(' :: a.back) h.blank (by simpa using by decide)
  refine ⟨⟨a.front, a.name ++ (a.blanks ++ '(' :: a.back)⟩, h.whole, ?_⟩
  refine call?_eq_some_iff.2 ⟨by simp [hcs, hstart], ?_, a.back, ?_, ?_⟩
  · exact (inName_eq_false_iff a.front).2 h.first
  · rw [behindParenthesis?_eq_some_iff, htail, hback]
  · rw [hname, htail, hblanks]

theorem lists_calls (text : List Char) : Lists (IsCall text) Call.front (calls text) :=
  lists_filterMap_cuts (fun hk ha => hk ▸ isCall_of_call? ha) IsCall.exists_cut

/-! ## What the search finds -/

/-- `\s*\(`. -/
def parenthesis : Pattern Nat := .seq (.star (.one .space)) (.text ['('])

theorem called_eq :
    called = .seq (.group 1 (.seq (.one nameStarts) (.star (.one (.wordOr ['.']))))) parenthesis :=
  rfl

theorem ways_parenthesis (s : Spot) :
    parenthesis.ways s = Pattern.oneWays (· = '(') (s.skip Unicode.isSpace) := by
  have hset : CharSet.space.contains = Unicode.isSpace := funext CharSet.contains_space
  rw [parenthesis, Pattern.ways_seq, Pattern.flatMap_star ?_ s, hset, Pattern.ways_text_singleton]
  intro t c rest ht hc
  rw [Pattern.ways_text_singleton, Pattern.oneWays_of_cons ht, if_neg]
  rintro h
  obtain rfl := of_decide_eq_true h
  exact absurd hc (by decide)

/-- Within a name there is no blank and no parenthesis. -/
theorem ways_parenthesis_of_nameChar {s : Spot} {c : Char} {rest : List Char}
    (hs : s.after = c :: rest) (hc : isNameChar c) : parenthesis.ways s = [] := by
  have hspace : ¬ Unicode.isSpace c := fun h =>
    absurd hc (by rw [isNameChar_eq_false_of_isSpace h]; exact Bool.false_ne_true)
  have hparen : c ≠ '(' := by
    rintro rfl
    exact absurd hc (by decide)
  rw [ways_parenthesis, Spot.skip_of_neg (by simpa [hs] using hspace), Pattern.oneWays_of_cons hs]
  simp [hparen]

/-- A name is read from a character on that may start one, as far as it goes. -/
theorem ways_called (s : Spot) :
    called.ways s = if s.after.head?.any isNameStart then
      Way.capturing 1 s parenthesis.ways (s.skip isNameChar) else [] := by
  have hset : (CharSet.wordOr ['.']).contains = isNameChar := by
    funext c
    rw [CharSet.contains_wordOr]
    simp [isNameChar]
  rw [called_eq, Pattern.ways_seq, Pattern.flatMap_group, Pattern.ways_seq,
    Way.flatMap_flatMap_followedBy, Pattern.ways_one]
  cases hs : s.after with
  | nil => simp [Pattern.oneWays, hs]
  | cons c rest =>
    rw [Pattern.oneWays_of_cons hs, contains_nameStarts, List.head?_cons, Option.any_some]
    split
    · rename_i hc
      rw [List.flatMap_singleton, Way.nil_followedBy, Pattern.flatMap_star ?_, hset,
        Spot.skip_of_pos hs (isNameChar_of_isNameStart hc)]
      intro t d rest ht hd
      rw [hset] at hd
      rw [Way.capturing, ways_parenthesis_of_nameChar ht hd, List.map_nil]
    · rfl

/-- Behind a name the blanks and the parenthesis are read, if they are there. -/
theorem ways_parenthesis_skip (k : Cut) :
    parenthesis.ways (k.spot.skip isNameChar) =
      (behindParenthesis? k.back).toList.map fun rest =>
        ⟨(Cut.mk (k.front ++ k.back.takeWhile isNameChar ++
          (k.back.dropWhile isNameChar).takeWhile Unicode.isSpace ++ ['(']) rest).spot, []⟩ := by
  rw [ways_parenthesis, Cut.skip_spot, Cut.skip_spot]
  cases hb : behindParenthesis? k.back with
  | some rest =>
    rw [behindParenthesis?_eq_some_iff.1 hb, Pattern.oneWays_of_cons rfl, Cut.past_spot]
    rfl
  | none =>
    cases htail : (k.back.dropWhile isNameChar).dropWhile Unicode.isSpace with
    | nil => rfl
    | cons c rest =>
      have hc : c ≠ '(' := by
        rintro rfl
        rw [behindParenthesis?_eq_some_iff.2 htail] at hb
        cases hb
      rw [Pattern.oneWays_of_cons rfl]
      simp [hc]

/-- The search reads the call that starts at a cut. -/
theorem ways_called_of_call {k : Cut} {a : Call} (h : k.call? = some a) :
    called.ways k.spot =
      [⟨(Cut.mk (a.front ++ a.name ++ a.blanks ++ ['(']) a.back).spot,
        [⟨1, k.back, a.name.length⟩]⟩] := by
  obtain ⟨hstart, -, rest, hrest, rfl⟩ := call?_eq_some_iff.1 h
  have hhere : k.spot.after.head?.any isNameStart := hstart
  rw [ways_called, if_pos hhere, Way.capturing, ways_parenthesis_skip, hrest, Spot.before_skip]
  simp [Cut.spot]

/-- Where a name but no call starts, no parenthesis follows, if the search has not gone past the
start of a call whose name goes on there. -/
theorem behindParenthesis?_eq_none {k : Cut} (h : k.call? = none)
    (hgap : inName k.front → behindParenthesis? k.back = none)
    (hstart : k.back.head?.any isNameStart) : behindParenthesis? k.back = none := by
  by_cases hin : inName k.front
  · exact hgap hin
  · rw [Bool.not_eq_true] at hin
    by_contra hsome
    obtain ⟨rest, hrest⟩ := Option.ne_none_iff_exists'.1 hsome
    rw [call?_eq_some_iff.2 ⟨hstart, hin, rest, hrest, rfl⟩] at h
    cases h

/-- Then nothing is read. -/
theorem ways_called_eq_nil {k : Cut} (h : k.call? = none)
    (hgap : inName k.front → behindParenthesis? k.back = none) : called.ways k.spot = [] := by
  rw [ways_called]
  split
  · rename_i hstart
    rw [Way.capturing, ways_parenthesis_skip, behindParenthesis?_eq_none h hgap hstart]
    rfl
  · rfl

/-- Behind the first character of a name no other name starts before it ends. -/
theorem call?_within_name {front name : List Char} {c : Char} (hstart : isNameStart c)
    (hname : ∀ e ∈ name, isNameChar e) (back : List Char) :
    (Cut.mk (front ++ [c] ++ name) back).call? = none := by
  refine call?_eq_none (.inl (inName_append ?_ hname))
  rw [inName_concat, hstart, isNameChar_of_isNameStart hstart]
  rfl

/-- No name starts with a blank or a parenthesis. -/
theorem isNameStart_eq_false {d : Char} (h : Unicode.isSpace d ∨ d = '(') :
    isNameStart d = false := by
  rcases h with h | rfl
  · by_contra hs
    rw [Bool.not_eq_false] at hs
    have hchar := isNameChar_eq_false_of_isSpace h
    rw [isNameChar_of_isNameStart hs] at hchar
    cases hchar
  · decide

/-- Behind a call the next one is looked for behind its parenthesis. -/
theorem filterMap_cutsAfter_of_call {k : Cut} {a : Call} (h : k.call? = some a) :
    (cutsAfter k.front k.back).filterMap Cut.call? = a ::
      (cutsAfter (a.front ++ a.name ++ a.blanks ++ ['(']) a.back).filterMap Cut.call? := by
  obtain ⟨hcall, hfront⟩ := isCall_of_call? h
  obtain ⟨front, back⟩ := k
  obtain ⟨front', name, blanks, rest⟩ := a
  obtain rfl : front' = front := hfront
  obtain ⟨c, hc, hstart⟩ := hcall.starts
  obtain ⟨name, rfl⟩ := List.head?_eq_some_iff.1 hc
  obtain rfl : c :: name ++ (blanks ++ '(' :: rest) = back :=
    List.append_cancel_left hcall.whole
  obtain ⟨ks, hks, hmem⟩ := cutsAfter_append (front' ++ [c]) name (y := blanks ++ '(' :: rest)
  have hname : ks.filterMap Cut.call? = [] := by
    refine List.filterMap_eq_nil_iff.2 fun k hk => ?_
    obtain ⟨x, d, y, rfl, rfl⟩ := hmem k hk
    exact call?_within_name hstart (fun e he => hcall.inside e (by simp [he])) _
  obtain ⟨ls, hls, hmem⟩ :=
    cutsAfter_append (front' ++ [c] ++ name) (blanks ++ ['(']) (y := rest)
  have hblanks : ls.filterMap Cut.call? = [] := by
    refine List.filterMap_eq_nil_iff.2 fun k hk => call?_eq_none (.inr ?_)
    obtain ⟨x, d, y, hx, rfl⟩ := hmem k hk
    have hd : d ∈ blanks ++ ['('] := hx ▸ List.mem_append_right x List.mem_cons_self
    have hd : Unicode.isSpace d ∨ d = '(' :=
      (List.mem_append.1 hd).imp (hcall.blank d) List.mem_singleton.1
    simpa using isNameStart_eq_false hd
  have hrest : blanks ++ '(' :: rest = blanks ++ ['('] ++ rest := by simp
  show (⟨front', c :: name ++ (blanks ++ '(' :: rest)⟩ ::
    cutsAfter (front' ++ [c]) (name ++ (blanks ++ '(' :: rest))).filterMap Cut.call? = _
  rw [List.filterMap_cons_some h, hks, List.filterMap_append, hname, List.nil_append, hrest, hls,
    List.filterMap_append, hblanks, List.nil_append]
  simp

/-- The names that are found from a spot on. -/
def namesFrom (s : Spot) : List (List Char) :=
  ((Pattern.group 0 called).automaton.findsFrom s).filterMap (·.part? 1)

theorem roundsRead_called : called.roundsRead := by decide

theorem readsSomething_called : called.readsSomething := by decide

/-- The call that starts at a cut is found, and the search goes on behind its parenthesis. -/
theorem namesFrom_of_call {k : Cut} {a : Call} (h : k.call? = some a) :
    namesFrom k.spot =
      a.name :: namesFrom (Cut.mk (a.front ++ a.name ++ a.blanks ++ ['(']) a.back).spot := by
  rw [namesFrom, Pattern.findsFrom_of_ways roundsRead_called readsSomething_called
    (ways_called_of_call h)]
  obtain ⟨-, -, rest, -, rfl⟩ := call?_eq_some_iff.1 h
  have hname : k.back.take (k.back.takeWhile isNameChar).length = k.back.takeWhile isNameChar :=
    (List.prefix_iff_eq_take.1 (List.takeWhile_prefix _)).symm
  exact List.filterMap_cons_some (congrArg some hname)

theorem length_back_lt {k : Cut} {a : Call} (h : k.call? = some a) :
    a.back.length < k.back.length := by
  obtain ⟨-, -, rest, hrest, rfl⟩ := call?_eq_some_iff.1 h
  have hlen := congrArg List.length (eq_of_behindParenthesis? hrest)
  simp only [List.length_append, List.length_cons] at hlen
  show rest.length < k.back.length
  omega

/-- What a name goes on with is followed by the same. -/
theorem behindParenthesis?_cons {c : Char} (hc : isNameChar c) (rest : List Char) :
    behindParenthesis? (c :: rest) = behindParenthesis? rest := by
  rw [behindParenthesis?, List.dropWhile_cons_of_pos hc]
  rfl

/-- From a cut on, the search finds the calls that start there and later, if it has not gone past
the start of one whose name goes on there. -/
theorem namesFrom_eq (front back : List Char)
    (hgap : inName front → behindParenthesis? back = none) :
    namesFrom (Cut.mk front back).spot =
      ((cutsAfter front back).filterMap Cut.call?).map Call.name := by
  induction hn : back.length using Nat.strongRecOn generalizing front back with
  | ind n ih =>
    subst hn
    cases hk : (Cut.mk front back).call? with
    | some a =>
      have hparen : inName (a.front ++ a.name ++ a.blanks ++ ['(']) = false := by
        rw [inName_concat]
        rfl
      have hrest := ih _ (length_back_lt hk) (a.front ++ a.name ++ a.blanks ++ ['(']) a.back
        (fun hin => by rw [hparen] at hin; cases hin) rfl
      have hcuts := filterMap_cutsAfter_of_call hk
      rw [namesFrom_of_call hk, hrest, hcuts, List.map_cons]
    | none =>
      have hways := ways_called_eq_nil hk hgap
      rw [namesFrom]
      cases back with
      | nil =>
        rw [Pattern.findsFrom_of_nil roundsRead_called readsSomething_called rfl, cutsAfter,
          List.filterMap_cons_none hk]
        rfl
      | cons c rest =>
        rw [Pattern.findsFrom_of_no_ways roundsRead_called readsSomething_called hways rfl,
          Cut.past_spot, cutsAfter, List.filterMap_cons_none hk]
        refine ih _ (Nat.lt_succ_self _) _ _ (fun hin => ?_) rfl
        rw [inName_concat, Bool.and_eq_true, Bool.or_eq_true] at hin
        rw [← behindParenthesis?_cons hin.1]
        rcases hin.2 with hstart | hin
        · exact behindParenthesis?_eq_none hk hgap (by simpa using hstart)
        · exact hgap hin

/-- The names that are found in a line are those of its calls. -/
theorem calledNames_eq (line : String) :
    calledNames line = (calls line.toList).map (String.ofList ·.name) := by
  have hspot : Spot.first line.toList = (Cut.mk [] line.toList).spot := rfl
  show (namesFrom (Spot.first line.toList)).map String.ofList = _
  rw [hspot, namesFrom_eq [] _ (by simp [inName]), calls, cuts, List.map_map]
  rfl

end SourceLine

namespace Strategy

open SourceLine

theorem candidates_footprintAlternative_eq {cx : Context} {line : String} {table : Table String}
    (htable : costlyCalls cx.knowledge cx.kind = some table)
    (hline : cx.symbols.sourceLine = some line) :
    (footprintAlternative.generate cx).candidates =
      ((calledNames line).filterMap (alternativeTo? table)).eraseDups.map fun text =>
        ⟨text, "footprint-alternative", none⟩ := by
  rw [footprintAlternative, candidates_of, htable, hline]
  show ((distinct ((calledNames line).filterMap (alternativeTo? table))).map Suggestion.plain).map
    (·.toCandidate "footprint-alternative") = _
  rw [distinct_eq_eraseDups, List.map_map]
  rfl

/-- What is suggested for a line that needs too much memory or overflows: the different alternatives
to what is called on it, by the full name or else by its last segment, in the order of the calls. A
call is of a name as a whole, unless it comes directly behind a word character with which no name
may start. -/
theorem candidates_footprintAlternative_of_line {cx : Context} {line : String} {table : Table String}
    (htable : cx.kind = .outOfMemory ∧ table = cx.knowledge.memoryAlternatives ∨
      cx.kind = .overflow ∧ table = cx.knowledge.overflowAlternatives)
    (hline : cx.symbols.sourceLine = some line) :
    ∃ found, Lists (IsCall line.toList) Call.front found ∧
      (∀ k ∈ found, ∀ b ∈ k.front.getLast?, Unicode.isWord b → ¬ b.isAlpha ∧ b ≠ '_') ∧
      let texts := (found.filterMap fun k =>
        let name := String.ofList k.name
        (table[name]?).or (table[DottedName.leaf name]?)).eraseDups
      texts.Nodup ∧
        (footprintAlternative.generate cx).candidates =
          texts.map fun text => ⟨text, "footprint-alternative", none⟩ := by
  have hcostly : costlyCalls cx.knowledge cx.kind = some table := by
    rcases htable with ⟨hkind, rfl⟩ | ⟨hkind, rfl⟩ <;> rw [hkind] <;> rfl
  refine ⟨calls line.toList, lists_calls _, fun k hk b hb hw => ?_, ?_, ?_⟩
  · have hnot := (((lists_calls _).mem_iff k).1 hk).before hb hw
    simpa [isNameStart] using hnot
  · rw [← distinct_eq_eraseDups]
    exact nodup_distinct _
  · rw [candidates_footprintAlternative_eq hcostly hline, calledNames_eq, List.filterMap_map]
    rfl

/-- Behind a letter of another script, what looks like the rest of a name is taken for a name. -/
theorem candidates_footprintAlternative_accent :
    let line := "épow(2)"
    let cx : Context :=
      { kind := .overflow, fields := .empty, symbols := { sourceLine := some line }
        knowledge := .standard, host := .ofVariables ⟨⟨.empty, []⟩⟩ [] }
    (footprintAlternative.generate cx).candidates =
        [⟨"'pow(base, exp, mod)'", "footprint-alternative", none⟩] ∧
      ∃ found, Lists (IsCall line.toList) Call.front found ∧
        ⟨['é'], ['p', 'o', 'w'], [], ['2', ')']⟩ ∈ found ∧
        ∀ k ∈ found, ∀ b ∈ k.front.getLast?, Unicode.isWord b → ¬ b.isAlpha ∧ b ≠ '_' := by
  intro line cx
  obtain ⟨found, hlists, hbefore, -⟩ :=
    @candidates_footprintAlternative_of_line cx line _ (.inr ⟨rfl, rfl⟩) rfl
  have hcall : Cut.call? ⟨['é'], ['p', 'o', 'w', '(', '2', ')']⟩ =
      some ⟨['é'], ['p', 'o', 'w'], [], ['2', ')']⟩ := by decide +kernel
  have hfound : (calledNames line).filterMap
      (alternativeTo? Knowledge.standard.overflowAlternatives) = ["'pow(base, exp, mod)'"] := by
    decide +kernel
  have hcostly : costlyCalls cx.knowledge cx.kind =
      some Knowledge.standard.overflowAlternatives := rfl
  have hline : line.toList = ['é', 'p', 'o', 'w', '(', '2', ')'] := by decide
  refine ⟨?_, found, hlists, (hlists.mem_iff _).2 ?_, hbefore⟩
  · rw [candidates_footprintAlternative_eq hcostly rfl, hfound]
    rfl
  · rw [hline]
    exact (isCall_of_call? hcall).1

end Strategy

end ErrorHints

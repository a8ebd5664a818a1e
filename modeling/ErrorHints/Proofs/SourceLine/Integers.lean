import ErrorHints.Proofs.SourceLine.Cuts
import ErrorHints.Strategy.SourceCode

/-!
# Integers with leading zeros

A line is searched for zeros with digits behind them up to the end of a word. What is found are the
words of decimal digits that start with a zero and have one more digit, if no point is before them.
The search takes the character before such a word with it, but as it never takes the one behind, the
next word may follow at once.

Results:
* `shows_integer`: what the search can read where a word starts.
* `zeroLedIntegers_eq`: the integers that are found, by the words of the line.
* `candidates_octalLiteral_of_line`: what is suggested for them.
-/
namespace ErrorHints

namespace SourceLine

/-- Digits without the zeros at the front; one zero stays if there is nothing else. -/
def withoutLeadingZeros (digits : List Char) : List Char :=
  match digits.dropWhile (· = '0') with
  | [] => ['0']
  | ds => ds

/-- The digits of a word that is an integer with leading zeros, without those. -/
def zeroLed? (word : List Char) : Option (List Char) :=
  if word.all Unicode.isDigit && word.head? = some '0' && 2 ≤ word.length then
    some (withoutLeadingZeros word)
  else none

/-- The digits of an integer, without leading zeros. -/
def integer? (word : List Char) : Option (List Char) :=
  if word ≠ [] ∧ word.all Unicode.isDigit then some (withoutLeadingZeros word) else none

theorem withoutLeadingZeros_zero_cons (word : List Char) :
    withoutLeadingZeros ('0' :: word) = withoutLeadingZeros word := by
  simp [withoutLeadingZeros]

/-- No zero is left out that is not there or is the last character. -/
theorem withoutLeadingZeros_cons {c : Char} {word : List Char} (h : c ≠ '0' ∨ word = []) :
    withoutLeadingZeros (c :: word) = c :: word := by
  by_cases hc : c = '0'
  · subst hc
    rw [h.resolve_left (not_not_intro rfl)]
    rfl
  · simp [withoutLeadingZeros, hc]

theorem integer?_zero_cons {word digits : List Char} (h : integer? word = some digits) :
    integer? ('0' :: word) = some digits := by
  have hzero : Unicode.isDigit '0' := by decide
  unfold integer? at h ⊢
  split at h
  · rename_i hword
    rw [if_pos ⟨List.cons_ne_nil _ _, by simpa [hzero] using hword.2⟩,
      withoutLeadingZeros_zero_cons, h]
  · cases h

theorem zeroLed?_zero_cons (word : List Char) : zeroLed? ('0' :: word) = integer? word := by
  have hzero : Unicode.isDigit '0' := by decide
  unfold zeroLed? integer?
  rw [withoutLeadingZeros_zero_cons]
  cases word <;> simp [hzero]

/-! ## What the search reads -/

/-- `(\d+)\b`. -/
def digitsToEdge : Pattern Nat := .seq (.group 1 (.plus (.one .digit))) (.place .wordEdge)

/-- `0+(\d+)\b`. -/
def integer : Pattern Nat := .seq (.plus (.text ['0'])) digitsToEdge

theorem zeroLed_eq :
    zeroLed = .seq (.alt (.place .textStart) (.one (CharSet.wordOr ['.']).compl)) integer := rfl

/-- The word that follows a spot. -/
def word (s : Spot) : List Char := s.after.takeWhile Unicode.isWord

/-- The preferred way stops at a spot and captures the given characters, or there is no way. -/
def Shows (ws : List (Way Nat)) (stop : Spot) : Option (List Char) → Prop
  | none => ws = []
  | some cs => ∃ part rest, ws = ⟨stop, [part]⟩ :: rest ∧ part.name = 1 ∧ part.chars = cs

theorem wordEdge_holds_iff {s : Spot} {b : Char} (hs : s.last = some b) (hb : Unicode.isWord b) :
    Anchor.wordEdge.holds s ↔ s.isBeforeWord = false := by
  simp [Anchor.holds, Spot.isAfterWord, hs, hb]

/-- A word has only digits if no word character follows on the digits at its front. -/
theorem word_digits_iff (cs : List Char) :
    ((cs.takeWhile Unicode.isWord).all Unicode.isDigit ↔
      ∀ e, (cs.dropWhile Unicode.isDigit).head? = some e → Unicode.isWord e = false) ∧
    ((cs.takeWhile Unicode.isWord).all Unicode.isDigit →
      cs.takeWhile Unicode.isWord = cs.takeWhile Unicode.isDigit) := by
  induction cs with
  | nil => simp
  | cons c cs ih =>
    by_cases hd : Unicode.isDigit c
    · simp [hd, Unicode.isWord_of_isDigit hd] at ih ⊢
      exact ih
    · by_cases hw : Unicode.isWord c <;> simp [hd, hw]

theorem Shows.append {ws : List (Way Nat)} {stop : Spot} {o : Option (List Char)}
    {cs : List Char} (h : Shows ws stop o) (ho : o = some cs) (vs : List (Way Nat)) :
    Shows (ws ++ vs) stop o := by
  subst ho
  obtain ⟨part, rest, rfl, hpart⟩ := h
  exact ⟨part, rest ++ vs, rfl, hpart⟩

/-- Between two digits no word ends. -/
theorem ways_wordEdge_of_digits {s : Spot} {b d : Char} {rest : List Char} (hlast : s.last = some b)
    (hb : Unicode.isDigit b) (hs : s.after = d :: rest) (hd : Unicode.isDigit d) :
    (Pattern.place (ν := Nat) .wordEdge).ways s = [] := by
  have hedge := wordEdge_holds_iff hlast (Unicode.isWord_of_isDigit hb)
  simp [Pattern.ways, hedge, Spot.isBeforeWord, hs, Unicode.isWord_of_isDigit hd]

/-- Behind all digits at the front of a word, the word ends if it has nothing else. -/
theorem wordEdge_skip_digits {s : Spot} {c : Char} {rest : List Char} (hs : s.after = c :: rest)
    (hc : Unicode.isDigit c) :
    Anchor.wordEdge.holds (s.skip Unicode.isDigit) ↔ (word s).all Unicode.isDigit := by
  obtain ⟨b, hlast, hb⟩ := Spot.exists_last_skip hs hc
  rw [wordEdge_holds_iff hlast (Unicode.isWord_of_isDigit hb), Spot.isBeforeWord,
    Spot.after_skip, Option.any_eq_false]
  exact (word_digits_iff s.after).1.symm

/-- Digits are read to the end of a word if it has nothing else. -/
theorem ways_digitsToEdge (s : Spot) :
    digitsToEdge.ways s =
      if word s ≠ [] ∧ (word s).all Unicode.isDigit then
        [⟨s.skip Unicode.isWord, [⟨1, s.after, (word s).length⟩]⟩]
      else [] := by
  have hset : CharSet.digit.contains = Unicode.isDigit := funext CharSet.contains_digit
  rw [digitsToEdge, Pattern.ways_seq, Pattern.flatMap_group]
  cases hs : s.after with
  | nil => simp [word, hs, Pattern.plus, Pattern.ways, Pattern.oneWays]
  | cons c rest =>
    rw [Pattern.flatMap_plus ?_ hs, hset]
    swap
    · intro t b d rest hlast hb ht hd
      rw [hset] at hb hd
      rw [Way.capturing, ways_wordEdge_of_digits hlast hb ht hd, List.map_nil]
    have hdigits (h : (word s).all Unicode.isDigit) : word s = s.after.takeWhile Unicode.isDigit :=
      (word_digits_iff s.after).2 h
    cases hc : Unicode.isDigit c with
    | true =>
      have hedge := wordEdge_skip_digits hs hc
      have hne : word s ≠ [] := by simp [word, hs, Unicode.isWord_of_isDigit hc]
      rw [if_pos rfl, Way.capturing, Pattern.ways]
      by_cases hall : (word s).all Unicode.isDigit
      · have hskip : s.skip Unicode.isDigit = s.skip Unicode.isWord := by
          rw [Spot.skip, ← hdigits hall, word, Spot.skip]
        rw [if_pos (hedge.2 hall), if_pos ⟨hne, hall⟩, hskip, Spot.before_skip, hs]
        simp [word, hs]
      · rw [if_neg (mt hedge.1 hall), if_neg (fun h => hall h.2)]
        rfl
    | false =>
      have hnil (h : (word s).all Unicode.isDigit) : word s = [] := by simp [hdigits h, hs, hc]
      rw [if_neg Bool.false_ne_true, if_neg (fun h => h.1 (hnil h.2))]

/-- A word of digits is read as it is if no zeros are to be left out. -/
theorem shows_digitsToEdge {s : Spot}
    (h : word s ≠ [] ∧ (word s).all Unicode.isDigit → withoutLeadingZeros (word s) = word s) :
    Shows (digitsToEdge.ways s) (s.skip Unicode.isWord) (integer? (word s)) := by
  rw [ways_digitsToEdge, integer?]
  split
  · rename_i hword
    have hchars : s.after.take (word s).length = word s :=
      (List.prefix_iff_eq_take.1 (List.takeWhile_prefix _)).symm
    exact ⟨_, [], rfl, rfl, hchars.trans (h hword).symm⟩
  · rfl

/-- How any number of zeros and then digits are read. -/
def zerosToEdge (s : Spot) : List (Way Nat) :=
  (Way.rounds (Pattern.oneWays (· = '0')) true s.after.length s).flatMap
    (·.followedBy digitsToEdge.ways)

theorem word_of_pos {s : Spot} {c : Char} {rest : List Char} (hs : s.after = c :: rest)
    (hc : Unicode.isWord c) : word s = c :: word (s.past c rest) := by
  rw [word, hs, List.takeWhile_cons_of_pos hc]
  rfl

theorem word_of_neg {s : Spot} {c : Char} {rest : List Char} (hs : s.after = c :: rest)
    (hc : ¬ Unicode.isWord c) : word s = [] := by
  rw [word, hs, List.takeWhile_cons_of_neg hc]

/-- Zeros are taken as long as a digit is left. -/
theorem shows_zerosToEdge (s : Spot) :
    Shows (zerosToEdge s) (s.skip Unicode.isWord) (integer? (word s)) := by
  generalize hr : s.after = rest
  induction rest generalizing s with
  | nil =>
    rw [zerosToEdge, Way.flatMap_rounds_of_nil hr]
    exact shows_digitsToEdge fun h => absurd (by simp [word, hr]) h.1
  | cons c rest ih =>
    rw [zerosToEdge, Way.flatMap_rounds_of_cons hr]
    by_cases hc : c = '0'
    · subst hc
      have hzero : Unicode.isWord '0' := by decide
      have hmore := ih (s.past '0' rest) rfl
      rw [if_pos (decide_eq_true rfl)]
      show Shows (zerosToEdge (s.past '0' rest) ++ digitsToEdge.ways s) _ _
      cases hw : integer? (word (s.past '0' rest)) with
      | some digits =>
        -- a digit is left without this zero
        rw [word_of_pos hr hzero, integer?_zero_cons hw, ← hw, Spot.skip_of_pos hr hzero]
        exact hmore.append hw _
      | none =>
        rw [hw] at hmore
        rw [show zerosToEdge (s.past '0' rest) = [] from hmore, List.nil_append]
        refine shows_digitsToEdge fun h => ?_
        rw [word_of_pos hr hzero] at h ⊢
        -- only this zero is left
        refine withoutLeadingZeros_cons (.inr ?_)
        by_contra hne
        rw [List.all_cons, Bool.and_eq_true] at h
        rw [integer?, if_pos ⟨hne, h.2.2⟩] at hw
        cases hw
    · have hnot : ¬ decide (c = '0') := by simpa using hc
      rw [if_neg hnot, List.nil_append]
      refine shows_digitsToEdge fun h => ?_
      by_cases hword : Unicode.isWord c
      · rw [word_of_pos hr hword]
        exact withoutLeadingZeros_cons (.inl hc)
      · exact absurd (word_of_neg hr hword) h.1

/-- What is read where a word starts. -/
theorem shows_integer (s : Spot) :
    Shows (integer.ways s) (s.skip Unicode.isWord) (zeroLed? (word s)) := by
  rw [integer, Pattern.ways_seq, Pattern.plus, Pattern.ways, Pattern.ways_text_singleton,
    Way.flatMap_flatMap_followedBy]
  show Shows ((Pattern.oneWays (· = '0') s).flatMap (·.followedBy zerosToEdge)) _ _
  cases hs : s.after with
  | nil => simp [Pattern.oneWays, hs, word, zeroLed?, Shows]
  | cons c rest =>
    rw [Pattern.oneWays_of_cons hs]
    by_cases hc : c = '0'
    · subst hc
      have hzero : Unicode.isWord '0' := by decide
      rw [if_pos (decide_eq_true rfl), List.flatMap_singleton, Way.nil_followedBy,
        word_of_pos hs hzero, zeroLed?_zero_cons, Spot.skip_of_pos hs hzero]
      exact shows_zerosToEdge _
    · have hnone : zeroLed? (word s) = none := by
        by_cases hw : Unicode.isWord c <;> simp [zeroLed?, word, hs, hw, hc]
      rw [hnone]
      simp [hc, Shows]

/-! ## What the search finds -/

/-- The digits of a run of word characters that is an integer with leading zeros, without those. The
fraction of a number, behind a point, is none. -/
def Run.zeroLed? (r : Run) : Option (List Char) :=
  if r.front.getLast? = some '.' then none else SourceLine.zeroLed? r.chars

/-- The integer that is written at a cut. -/
def Cut.zeroLed? (k : Cut) : Option (List Char) := (k.run? Unicode.isWord).bind Run.zeroLed?

/-- Whether a word may start behind a character and is no fraction. -/
def isBoundary (c : Char) : Bool := !Unicode.isWord c && c != '.'

theorem zeroLed?_eq (k : Cut) :
    k.zeroLed? =
      if k.front.getLast?.all isBoundary then SourceLine.zeroLed? (word k.spot) else none := by
  obtain ⟨front, back⟩ := k
  have hword : word (Cut.mk front back).spot = back.takeWhile Unicode.isWord := rfl
  have hnone (h : back.head?.any Unicode.isWord = false) :
      SourceLine.zeroLed? (back.takeWhile Unicode.isWord) = none := by
    cases back with
    | nil => rfl
    | cons c back =>
      rw [List.takeWhile_cons_of_neg (by simpa using h)]
      rfl
  rw [Cut.zeroLed?, Cut.run?, hword]
  cases hb : back.head?.any Unicode.isWord with
  | false => simp [hnone hb]
  | true =>
    cases hl : front.getLast? with
    | none => simp [Run.zeroLed?, hl]
    | some b =>
      by_cases hw : Unicode.isWord b
      · simp [isBoundary, hw]
      · by_cases hp : b = '.' <;> simp [isBoundary, Run.zeroLed?, hl, hw, hp]

/-- In and behind a word nothing is written. -/
theorem zeroLed?_of_word {front w back : List Char} (hw : w ≠ [])
    (hin : ∀ c ∈ w, Unicode.isWord c) : (Cut.mk (front ++ w) back).zeroLed? = none := by
  have hlast : (front ++ w).getLast? = some (w.getLast hw) := by
    rw [List.getLast?_append_of_ne_nil _ hw, List.getLast?_eq_some_getLast hw]
  rw [zeroLed?_eq, hlast]
  simp [isBoundary, hin _ (List.getLast_mem hw)]

theorem shows_zeroLed? {k : Cut} (h : k.front.getLast?.all isBoundary) :
    Shows (integer.ways k.spot) (k.spot.skip Unicode.isWord) k.zeroLed? := by
  rw [zeroLed?_eq, if_pos h]
  exact shows_integer k.spot

/-- At the start of a text the search sees an integer that is written there. -/
theorem shows_here {k : Cut} (hgap : k.front ≠ [] → k.zeroLed? = none) :
    Shows (if k.front = [] then integer.ways k.spot else []) (k.spot.skip Unicode.isWord)
      k.zeroLed? := by
  split
  · rename_i h
    exact shows_zeroLed? (by simp [h])
  · rename_i h
    rw [hgap h]
    rfl

/-- Elsewhere it sees one that is written behind the next character. -/
theorem shows_behind (front : List Char) (c : Char) (rest : List Char) :
    Shows (if isBoundary c then integer.ways (Cut.mk (front ++ [c]) rest).spot else [])
      ((Cut.mk (front ++ [c]) rest).spot.skip Unicode.isWord)
      (Cut.mk (front ++ [c]) rest).zeroLed? := by
  split
  · rename_i h
    exact shows_zeroLed? (by simpa using h)
  · rename_i h
    rw [zeroLed?_eq, if_neg (by simpa using h)]
    rfl

/-- An integer is read at the start of the text, or else behind a boundary. -/
theorem ways_zeroLed (front : List Char) (c : Char) (rest : List Char) :
    zeroLed.ways (Cut.mk front (c :: rest)).spot =
      (if front = [] then integer.ways (Cut.mk front (c :: rest)).spot else []) ++
        if isBoundary c then integer.ways (Cut.mk (front ++ [c]) rest).spot else [] := by
  have hset : (CharSet.wordOr ['.']).compl.contains c = isBoundary c := by
    rw [CharSet.contains_compl, CharSet.contains_wordOr, Bool.not_or, isBoundary]
    congr 1
    by_cases h : c = '.' <;> simp [h]
  have hstart : Anchor.textStart.holds (Cut.mk front (c :: rest)).spot ↔ front = [] := by
    simp [Anchor.holds, Cut.spot]
  rw [zeroLed_eq, Pattern.ways_seq, Pattern.ways, List.flatMap_append, Pattern.ways_one,
    Pattern.oneWays_of_cons rfl, hset, Cut.past_spot]
  congr 1
  · simp only [Pattern.ways, hstart]
    split
    · rw [List.flatMap_singleton, Way.nil_followedBy]
    · rfl
  · split
    · rw [List.flatMap_singleton, Way.nil_followedBy]
    · rfl

theorem word_ne_nil {k : Cut} {digits : List Char} (h : k.zeroLed? = some digits) :
    k.back.takeWhile Unicode.isWord ≠ [] := by
  intro hw
  have hword : word k.spot = [] := hw
  rw [zeroLed?_eq, hword] at h
  split at h <;> cases h

/-- Behind an integer the next one is looked for where its word ends. -/
theorem filterMap_cutsAfter_of_zeroLed {k : Cut} {digits : List Char}
    (h : k.zeroLed? = some digits) :
    (cutsAfter k.front k.back).filterMap Cut.zeroLed? = digits ::
      (cutsAfter (k.front ++ k.back.takeWhile Unicode.isWord)
        (k.back.dropWhile Unicode.isWord)).filterMap Cut.zeroLed? := by
  obtain ⟨front, back⟩ := k
  obtain ⟨c, w, hw⟩ := List.exists_cons_of_ne_nil (word_ne_nil h)
  have hin : ∀ d ∈ c :: w, Unicode.isWord d := fun d hd => List.mem_takeWhile_imp (hw ▸ hd)
  have hback : back = c :: (w ++ back.dropWhile Unicode.isWord) := by
    rw [← List.cons_append, ← hw, List.takeWhile_append_dropWhile]
  obtain ⟨ks, hks, hmem⟩ := cutsAfter_append (front ++ [c]) w (y := back.dropWhile Unicode.isWord)
  have hinside : ks.filterMap Cut.zeroLed? = [] := by
    refine List.filterMap_eq_nil_iff.2 fun k hk => ?_
    obtain ⟨a, d, b, rfl, rfl⟩ := hmem k hk
    rw [List.append_assoc]
    exact zeroLed?_of_word (List.cons_ne_nil c a) fun e he =>
      hin e (List.cons_append ▸ List.mem_append_left _ he)
  calc (cutsAfter front back).filterMap Cut.zeroLed?
      = (⟨front, back⟩ :: cutsAfter (front ++ [c])
          (w ++ back.dropWhile Unicode.isWord)).filterMap Cut.zeroLed? := by
        conv_lhs => rw [hback, cutsAfter, ← hback]
    _ = _ := by
        rw [List.filterMap_cons_some h, hks, List.filterMap_append, hinside, List.nil_append,
          List.append_assoc, List.singleton_append, hw]

/-- Behind the word of an integer nothing is written directly. -/
theorem zeroLed?_behind {k : Cut} {digits : List Char} (h : k.zeroLed? = some digits) :
    (Cut.mk (k.front ++ k.back.takeWhile Unicode.isWord)
      (k.back.dropWhile Unicode.isWord)).zeroLed? = none :=
  zeroLed?_of_word (word_ne_nil h) fun _ hc => List.mem_takeWhile_imp hc

theorem length_behind_lt {k : Cut} {digits : List Char} (h : k.zeroLed? = some digits) :
    (k.back.dropWhile Unicode.isWord).length < k.back.length := by
  have hpos := List.length_pos_iff.2 (word_ne_nil h)
  have hlen := congrArg List.length
    (List.takeWhile_append_dropWhile (p := Unicode.isWord) (l := k.back))
  rw [List.length_append] at hlen
  omega

/-- The integers that are found from a spot on. -/
def integersFrom (s : Spot) : List (List Char) :=
  ((Pattern.group 0 zeroLed).automaton.findsFrom s).filterMap (·.part? 1)

theorem roundsRead_zeroLed : zeroLed.roundsRead := by decide

theorem readsSomething_zeroLed : zeroLed.readsSomething := by decide

/-- What is read is found, and the search goes on where it stops. -/
theorem integersFrom_of_shows {s stop : Spot} {digits : List Char}
    (h : Shows (zeroLed.ways s) stop (some digits)) :
    integersFrom s = digits :: integersFrom stop := by
  obtain ⟨part, ws, hways, hname, hchars⟩ := h
  have hpart : Find.part? ⟨[part], stop⟩ 1 = some digits := by
    simp [Find.part?, hname, hchars]
  rw [integersFrom, Pattern.findsFrom_of_ways roundsRead_zeroLed readsSomething_zeroLed hways]
  exact List.filterMap_cons_some hpart

/-- From a cut on, the search finds the integers that are written there and later. It does not see
one that is written at the cut itself unless the text starts there. -/
theorem integersFrom_eq (front back : List Char)
    (hgap : front ≠ [] → (Cut.mk front back).zeroLed? = none) :
    integersFrom (Cut.mk front back).spot = (cutsAfter front back).filterMap Cut.zeroLed? := by
  induction hn : back.length using Nat.strongRecOn generalizing front back with
  | ind n ih =>
    subst hn
    cases back with
    | nil =>
      rw [integersFrom, Pattern.findsFrom_of_nil roundsRead_zeroLed readsSomething_zeroLed rfl]
      simp [cutsAfter, zeroLed?_eq, word, Cut.spot, SourceLine.zeroLed?]
    | cons c rest =>
      have hways := ways_zeroLed front c rest
      have hhere := shows_here (k := ⟨front, c :: rest⟩) hgap
      have hbehind := shows_behind front c rest
      cases hk : (Cut.mk front (c :: rest)).zeroLed? with
      | some digits =>
        -- one at the start of the text is read before one behind the next character
        have hshows : Shows (zeroLed.ways (Cut.mk front (c :: rest)).spot)
            ((Cut.mk front (c :: rest)).spot.skip Unicode.isWord) (some digits) := by
          rw [hways, ← hk]
          exact hhere.append hk _
        rw [integersFrom_of_shows hshows, filterMap_cutsAfter_of_zeroLed hk, Cut.skip_spot,
          ih _ (length_behind_lt hk) _ _ (fun _ => zeroLed?_behind hk) rfl]
      | none =>
        rw [hk] at hhere
        rw [show _ = [] from hhere, List.nil_append] at hways
        rw [← hways] at hbehind
        rw [cutsAfter, List.filterMap_cons_none hk]
        cases hk' : (Cut.mk (front ++ [c]) rest).zeroLed? with
        | some digits =>
          rw [hk'] at hbehind
          have hlt : (rest.dropWhile Unicode.isWord).length < (c :: rest).length :=
            Nat.lt_succ_of_lt (length_behind_lt hk')
          have hmore := filterMap_cutsAfter_of_zeroLed hk'
          rw [integersFrom_of_shows hbehind, hmore, Cut.skip_spot,
            ih _ hlt _ _ (fun _ => zeroLed?_behind hk') rfl]
        | none =>
          rw [hk'] at hbehind
          rw [integersFrom, Pattern.findsFrom_of_no_ways roundsRead_zeroLed readsSomething_zeroLed
            hbehind rfl, Cut.past_spot]
          exact ih _ (Nat.lt_succ_self _) _ _ (fun _ => hk') rfl

/-- The integers that are found in a line are those that its words are, one after the other. -/
theorem zeroLedIntegers_eq (line : String) :
    zeroLedIntegers line = (runs Unicode.isWord line.toList).filterMap Run.zeroLed? := by
  have hspot : Spot.first line.toList = (Cut.mk [] line.toList).spot := rfl
  show integersFrom (Spot.first line.toList) = _
  rw [hspot, integersFrom_eq [] _ (absurd rfl), runs, cuts, List.filterMap_filterMap]
  rfl

/-- An integer with leading zeros: decimal digits only, a zero and at least one more, and no point
before them. -/
def Run.IsZeroLed (r : Run) : Prop :=
  (∀ c ∈ r.chars, Unicode.isDigit c) ∧ r.chars.head? = some '0' ∧ 2 ≤ r.chars.length ∧
    r.front.getLast? ≠ some '.'

instance (r : Run) : Decidable r.IsZeroLed := inferInstanceAs (Decidable (_ ∧ _ ∧ _ ∧ _))

theorem Run.zeroLed?_eq (r : Run) :
    r.zeroLed? = if r.IsZeroLed then some (withoutLeadingZeros r.chars) else none := by
  unfold Run.zeroLed? SourceLine.zeroLed? Run.IsZeroLed
  by_cases h : r.front.getLast? = some '.'
  · simp [h]
  · simp [h, and_assoc]

/-- Digits that can be those of an octal number. -/
def IsOctal (digits : List Char) : Prop := ∀ c ∈ digits, '0' ≤ c ∧ c ≤ '7'

theorem all_isOctalDigit_iff (digits : List Char) : digits.all isOctalDigit ↔ IsOctal digits := by
  simp [IsOctal, isOctalDigit]

instance (digits : List Char) : Decidable (IsOctal digits) :=
  decidable_of_iff _ (all_isOctalDigit_iff digits)

end SourceLine

namespace Strategy

open SourceLine

/-- What is suggested for a line with a number that the runtime does not take: every run of word
characters that is an integer with leading zeros, one after the other, is spelled as octal if its
digits are, and as decimal. -/
theorem candidates_octalLiteral_of_line {cx : Context} {line : String}
    (hentry : cx.fields.entry = some "syntax.invalid_token" ∨
      cx.fields.entry = some "syntax.leading_zeros")
    (hline : cx.symbols.sourceLine = some line) :
    ∃ words, Lists (IsRun Unicode.isWord line.toList) Run.front words ∧
      (octalLiteral.generate cx).candidates = (words.flatMap fun r =>
        if r.IsZeroLed then
          let digits := withoutLeadingZeros r.chars
          (if IsOctal digits then [quoted ("0o" ++ String.ofList digits)] else []) ++
            [quoted (String.ofList digits)]
        else []).map fun text => ⟨text, "octal-literal", none⟩ := by
  have hhas : hasEntry cx invalidNumberEntries = true := by
    rcases hentry with h | h <;> simp [hasEntry, h, invalidNumberEntries]
  refine ⟨runs Unicode.isWord line.toList, lists_runs _ _, ?_⟩
  rw [octalLiteral, candidates_of, hhas, hline]
  show ((zeroLedIntegers line).flatMap integerSpellings).map (·.toCandidate "octal-literal") = _
  rw [zeroLedIntegers_eq, List.filterMap_eq_flatMap_toList, List.flatMap_assoc, List.map_flatMap,
    List.map_flatMap]
  refine List.flatMap_congr fun r _ => ?_
  rw [Run.zeroLed?_eq]
  by_cases hr : r.IsZeroLed
  · rw [if_pos hr, if_pos hr, Option.toList_some, List.flatMap_singleton, integerSpellings]
    dsimp only
    by_cases hoctal : IsOctal (withoutLeadingZeros r.chars)
    · rw [if_pos ((all_isOctalDigit_iff _).2 hoctal), if_pos hoctal]
      rfl
    · rw [if_neg (mt (all_isOctalDigit_iff _).1 hoctal), if_neg hoctal]
      rfl
  · rw [if_neg hr, if_neg hr]
    rfl

/-- A mode that was written as octal, and a number that cannot have been. -/
theorem candidates_octalLiteral_mode :
    let line := "open(path, 0644, 08)"
    let cx : Context :=
      { kind := .syntaxProblem, fields := .matched "syntax.leading_zeros"
        symbols := { sourceLine := some line }, knowledge := .standard
        host := .ofVariables ⟨⟨.empty, []⟩⟩ [] }
    (cx.fields.entry = some "syntax.invalid_token" ∨
        cx.fields.entry = some "syntax.leading_zeros") ∧
      cx.symbols.sourceLine = some line ∧
      (octalLiteral.generate cx).candidates.map Candidate.text = ["'0o644'", "'644'", "'8'"] ∧
      ∃ words, Lists (IsRun Unicode.isWord line.toList) Run.front words ∧
        (octalLiteral.generate cx).candidates = (words.flatMap fun r =>
          if r.IsZeroLed then
            let digits := withoutLeadingZeros r.chars
            (if IsOctal digits then [quoted ("0o" ++ String.ofList digits)] else []) ++
              [quoted (String.ofList digits)]
          else []).map fun text => ⟨text, "octal-literal", none⟩ := by
  intro line cx
  exact ⟨.inr rfl, rfl, by decide +kernel, candidates_octalLiteral_of_line (.inr rfl) rfl⟩

end Strategy

end ErrorHints

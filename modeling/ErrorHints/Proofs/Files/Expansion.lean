import ErrorHints.Files.Host
import ErrorHints.Proofs.Pattern.Replacing
import ErrorHints.Proofs.SourceLine.Cuts

/-!
# Variables in a path

A path can be read in one way only as references to variables with other characters between them. A
reference takes as many word characters as there are, or all up to the first closing brace, and a
character stands for itself only if no reference starts with it. Expanding a path puts the values
that are there into this reading. So no value is read again, and what is within a reference is not
read for its own sake, be there a value or not.

Results:
* `IsReading.unique`: a path has one reading.
* `ways_reference_of_isReference`, `ways_reference_eq_nil`: the search reads what a reference is.
* `expandVariables_reading`: a path is expanded by its reading.
-/
namespace ErrorHints

open SourceLine (span_append)

/-! ## Reading a path -/

/-- A reference to a variable, as it is written, with the name of the variable, before the rest of a
path. -/
inductive IsReference : (written name rest : List Char) → Prop where
  /-- `$` and word characters, as many as there are. -/
  | plain {name rest : List Char} (hne : name ≠ []) (hword : ∀ c ∈ name, Unicode.isWord c)
      (hend : ∀ c ∈ rest.head?, Unicode.isWord c = false) : IsReference ('$' :: name) name rest
  /-- `$` and what is between braces, up to the first closing one. -/
  | braced {name rest : List Char} (hname : '\x7d' ∉ name) :
      IsReference ('$' :: '\x7b' :: (name ++ ['\x7d'])) name rest

/-- A piece of a path. -/
inductive PathPiece where
  | char (c : Char)
  /-- A reference to a variable: how it is written, and the name of the variable. -/
  | reference (written name : List Char)

namespace PathPiece

def written : PathPiece → List Char
  | char c => [c]
  | reference w _ => w

/-- What a piece stands for: the value of a variable that is set, else what is written. -/
def value (valueOf : String → Option String) : PathPiece → List Char
  | char c => [c]
  | reference w name => ((valueOf (String.ofList name)).map String.toList).getD w

/-- What a piece is before the rest of a path: a reference if it says so, and if not, no reference
starts with it. -/
def Fits (rest : List Char) : PathPiece → Prop
  | char c => ∀ w name back, IsReference w name back → c :: rest ≠ w ++ back
  | reference w name => IsReference w name rest

end PathPiece

/-- A path from left to right in pieces, each of which fits before the ones behind it. -/
structure IsReading (path : List Char) (ps : List PathPiece) : Prop where
  whole : ps.flatMap (·.written) = path
  fits : ∀ front p back, ps = front ++ p :: back → p.Fits (back.flatMap (·.written))

theorem IsReference.exists_cons {w name rest : List Char} (h : IsReference w name rest) :
    ∃ c cs, w = '$' :: c :: cs := by
  cases h with
  | plain hne _ _ =>
    obtain ⟨c, cs, rfl⟩ := List.exists_cons_of_ne_nil hne
    exact ⟨c, cs, rfl⟩
  | braced _ => exact ⟨_, _, rfl⟩

theorem isWord_brace : Unicode.isWord '\x7b' = false := by decide

/-- What is between braces goes on to the closing one. -/
theorem not_close_of_notMem {name : List Char} (h : '\x7d' ∉ name) :
    ∀ c ∈ name, decide (c ≠ '\x7d') := fun c hc => by
  simpa using ne_of_mem_of_not_mem hc h

/-- Where a stretch of one class ends is settled by the text. -/
theorem stretch_inj {inClass : Char → Bool} {x y x' y' : List Char} (hx : ∀ c ∈ x, inClass c)
    (hy : ∀ c ∈ y.head?, inClass c = false) (hx' : ∀ c ∈ x', inClass c)
    (hy' : ∀ c ∈ y'.head?, inClass c = false) (h : x ++ y = x' ++ y') : x = x' ∧ y = y' := by
  obtain ⟨htake, hdrop⟩ := span_append hx hy
  obtain ⟨htake', hdrop'⟩ := span_append hx' hy'
  rw [h] at htake hdrop
  exact ⟨htake.symm.trans htake', hdrop.symm.trans hdrop'⟩

/-- Only one reference starts at a place. -/
theorem IsReference.unique {w name rest w' name' rest' : List Char} (h : IsReference w name rest)
    (h' : IsReference w' name' rest') (heq : w ++ rest = w' ++ rest') :
    w = w' ∧ name = name' ∧ rest = rest' := by
  -- a name that starts with a word character does not start with a brace
  have hapart {name x y : List Char} (hne : name ≠ []) (hword : ∀ c ∈ name, Unicode.isWord c) :
      '$' :: (name ++ x) ≠ '$' :: '\x7b' :: y := by
    obtain ⟨c, cs, rfl⟩ := List.exists_cons_of_ne_nil hne
    intro h
    have hc := hword c List.mem_cons_self
    rw [(List.cons.inj (List.cons.inj h).2).1, isWord_brace] at hc
    cases hc
  cases h with
  | plain hne hword hend =>
    cases h' with
    | plain hne' hword' hend' =>
      obtain ⟨rfl, rfl⟩ := stretch_inj hword hend hword' hend' (List.cons.inj heq).2
      exact ⟨rfl, rfl, rfl⟩
    | braced _ => exact absurd heq (hapart hne hword)
  | braced hname =>
    cases h' with
    | plain hne' hword' _ => exact absurd heq.symm (hapart hne' hword')
    | braced hname' =>
      have hclose (back : List Char) :
          ∀ c ∈ ('\x7d' :: back).head?, decide (c ≠ '\x7d') = false := by simp
      have htail : name ++ '\x7d' :: rest = name' ++ '\x7d' :: rest' := by simpa using heq
      obtain ⟨rfl, hrest⟩ := stretch_inj (not_close_of_notMem hname) (hclose rest)
        (not_close_of_notMem hname') (hclose rest') htail
      exact ⟨rfl, rfl, (List.cons.inj hrest).2⟩

/-- A word behind a `$` makes a reference. -/
theorem exists_plain {c : Char} (cs : List Char) (hc : Unicode.isWord c) :
    ∃ w name rest, IsReference w name rest ∧ '$' :: c :: cs = w ++ rest := by
  refine ⟨_, (c :: cs).takeWhile Unicode.isWord, (c :: cs).dropWhile Unicode.isWord,
    .plain ?_ (fun d hd => List.mem_takeWhile_imp hd) fun d hd => ?_, ?_⟩
  · rw [List.takeWhile_cons_of_pos hc]
    exact List.cons_ne_nil _ _
  · have hnot := List.head?_dropWhile_not Unicode.isWord (c :: cs)
    rw [Option.mem_def.1 hd] at hnot
    simpa using hnot
  · rw [List.cons_append, List.takeWhile_append_dropWhile]

/-- So do braces that are closed. -/
theorem exists_braced {cs : List Char} (h : '\x7d' ∈ cs) :
    ∃ w name rest, IsReference w name rest ∧ '$' :: '\x7b' :: cs = w ++ rest := by
  obtain ⟨name, rest, rfl, hname⟩ := List.eq_append_cons_of_mem h
  exact ⟨_, name, rest, .braced hname, by simp⟩

namespace IsReading

variable {path : List Char} {ps qs : List PathPiece}

theorem nil : IsReading [] [] := ⟨rfl, fun _ _ _ h => by simp at h⟩

theorem cons {p : PathPiece} (hp : p.Fits path) (h : IsReading path ps) :
    IsReading (p.written ++ path) (p :: ps) where
  whole := by rw [List.flatMap_cons, h.whole]
  fits := by
    intro front q back heq
    cases front with
    | nil =>
      obtain ⟨rfl, rfl⟩ := List.cons.inj heq
      rw [h.whole]
      exact hp
    | cons _ front => exact h.fits front q back (List.cons.inj heq).2

theorem of_cons {p : PathPiece} (h : IsReading path (p :: ps)) :
    ∃ rest, path = p.written ++ rest ∧ p.Fits rest ∧ IsReading rest ps := by
  have hwhole := h.whole
  rw [List.flatMap_cons] at hwhole
  refine ⟨ps.flatMap (·.written), hwhole.symm, h.fits [] p ps rfl, rfl, ?_⟩
  rintro front q back rfl
  exact h.fits (p :: front) q back rfl

/-- A path has one reading. -/
theorem unique (hps : IsReading path ps) (hqs : IsReading path qs) : ps = qs := by
  have hne {p : PathPiece} {rest : List Char} (hp : p.Fits rest) : p.written ≠ [] := by
    cases p with
    | char c => exact List.cons_ne_nil c []
    | reference w name =>
      obtain ⟨c, cs, hw⟩ := IsReference.exists_cons hp
      exact hw ▸ List.cons_ne_nil _ _
  induction ps generalizing path qs with
  | nil =>
    cases qs with
    | nil => rfl
    | cons q qs =>
      obtain ⟨rest, hpath, hq, -⟩ := hqs.of_cons
      rw [← hps.whole] at hpath
      exact absurd (List.append_eq_nil_iff.1 hpath.symm).1 (hne hq)
  | cons p ps ih =>
    obtain ⟨rest, rfl, hp, hrest⟩ := hps.of_cons
    cases qs with
    | nil =>
      have hpath := hqs.whole
      exact absurd (List.append_eq_nil_iff.1 hpath.symm).1 (hne hp)
    | cons q qs =>
      obtain ⟨rest', hpath, hq, hrest'⟩ := hqs.of_cons
      cases p with
      | char c =>
        cases q with
        | char d =>
          obtain ⟨rfl, rfl⟩ := List.cons.inj hpath
          rw [ih hrest hrest']
        | reference w name => exact absurd hpath (hp w name rest' hq)
      | reference w name =>
        cases q with
        | char d => exact absurd hpath.symm (hq w name rest hp)
        | reference w' name' =>
          obtain ⟨rfl, rfl, rfl⟩ := hp.unique hq hpath
          rw [ih hrest hrest']

end IsReading

/-! ## What the search reads -/

open Pattern

/-- `(\w+)`. -/
def plainName : Pattern Nat := .group 1 (.plus (.one .word))

/-- `\{([^}]*)\}`. -/
def bracedName : Pattern Nat :=
  .seq (.text ['\x7b']) (.seq (.group 2 (.star (.one (.except ['\x7d'])))) (.text ['\x7d']))

theorem reference_eq : Host.reference = .seq (.text ['$']) (.alt plainName bracedName) := rfl

theorem ways_reference (s : Spot) :
    Host.reference.ways s =
      match s.after with
      | c :: rest =>
        if c = '$' then plainName.ways (s.past c rest) ++ bracedName.ways (s.past c rest) else []
      | [] => [] := by
  rw [reference_eq, ways_seq, ways_text_singleton]
  cases hs : s.after with
  | nil => simp [oneWays, hs]
  | cons c rest =>
    rw [oneWays_of_cons hs]
    by_cases hc : c = '$'
    · simp only [hc, decide_true, if_true, List.flatMap_singleton, Way.nil_followedBy]
      rfl
    · simp [hc]

theorem head?_ways_plainName (s : Spot) :
    (plainName.ways s).head? =
      if s.after.head?.any Unicode.isWord then
        some ⟨s.skip Unicode.isWord, [⟨1, s.after, (s.after.takeWhile Unicode.isWord).length⟩]⟩
      else none := by
  have hset : CharSet.word.contains = Unicode.isWord := funext CharSet.contains_word
  rw [plainName, ways, List.head?_map, head?_ways_plus, hset]
  split
  · rw [Option.map_some, Spot.before_skip, Nat.add_sub_cancel_left]
  · rfl

theorem ways_bracedName (s : Spot) :
    bracedName.ways s =
      match s.after with
      | c :: rest =>
        if c = '\x7b' then
          Way.capturing 2 (s.past c rest) (oneWays (· = '\x7d')) ((s.past c rest).skip (· ≠ '\x7d'))
        else []
      | [] => [] := by
  have hset : (CharSet.except ['\x7d']).contains = fun c => decide (c ≠ '\x7d') := by
    funext c
    rw [CharSet.contains_except]
    simp
  have hclose : (text (ν := Nat) ['\x7d']).ways = oneWays (· = '\x7d') :=
    funext fun _ => by rw [ways_text_singleton]
  rw [bracedName, ways_seq, ways_text_singleton]
  cases hs : s.after with
  | nil => simp [oneWays, hs]
  | cons c rest =>
    rw [oneWays_of_cons hs]
    by_cases hc : c = '\x7b'
    · simp only [hc, decide_true, if_true, List.flatMap_singleton, Way.nil_followedBy]
      rw [ways_seq, flatMap_group, flatMap_star ?_, hset, hclose]
      intro t d back ht hd
      rw [hset] at hd
      rw [Way.capturing, hclose, oneWays_of_cons ht, if_neg (by simpa using hd), List.map_nil]
    · simp [hc]

section Search

variable {s : Spot} {w name rest : List Char}

theorem skip_eq_ahead {inClass : Char → Bool} {x y : List Char} (hs : s.after = x ++ y)
    (hx : ∀ c ∈ x, inClass c) (hy : ∀ c ∈ y.head?, inClass c = false) :
    s.skip inClass = s.ahead x.length := by
  rw [Spot.skip, hs, (span_append hx hy).1]

/-- A name goes on to the last word character. -/
theorem ways_plainName_of_word (hs : s.after = name ++ rest) (hne : name ≠ [])
    (hword : ∀ c ∈ name, Unicode.isWord c) (hend : ∀ c ∈ rest.head?, Unicode.isWord c = false) :
    ∃ ws, plainName.ways s = ⟨s.ahead name.length, [⟨1, name ++ rest, name.length⟩]⟩ :: ws := by
  have hhere : s.after.head?.any Unicode.isWord := by
    obtain ⟨c, cs, rfl⟩ := List.exists_cons_of_ne_nil hne
    rw [hs]
    exact hword c List.mem_cons_self
  have hhead := head?_ways_plainName s
  rw [if_pos hhere, skip_eq_ahead hs hword hend, hs, (span_append hword hend).1] at hhead
  exact List.head?_eq_some_iff.1 hhead

theorem ways_plainName_of_not_word (h : s.after.head?.any Unicode.isWord = false) :
    plainName.ways s = [] := by
  rw [← List.head?_eq_none_iff, head?_ways_plainName, h]
  rfl

/-- A name in braces goes on to the first closing one. -/
theorem ways_bracedName_of_closed (hs : s.after = '\x7b' :: (name ++ '\x7d' :: rest))
    (hname : '\x7d' ∉ name) :
    bracedName.ways s =
      [⟨s.ahead (name.length + 2), [⟨2, name ++ '\x7d' :: rest, name.length⟩]⟩] := by
  let t := s.past '\x7b' (name ++ '\x7d' :: rest)
  have hskip : t.skip (· ≠ '\x7d') = t.ahead name.length :=
    skip_eq_ahead rfl (not_close_of_notMem hname) (by simp)
  have hafter : (t.ahead name.length).after = '\x7d' :: rest := Spot.after_ahead_append rfl
  have hbefore : (t.ahead name.length).before - t.before = name.length := by
    rw [Spot.before_ahead_append rfl, Nat.add_sub_cancel_left]
  have hstop : s.ahead (name.length + 2) = (t.ahead name.length).past '\x7d' rest := by
    rw [Spot.ahead_succ hs, Spot.ahead_add, Spot.ahead_succ hafter]
    rfl
  rw [ways_bracedName, hs, hstop]
  show Way.capturing 2 t (oneWays (· = '\x7d')) (t.skip (· ≠ '\x7d')) = _
  rw [hskip, Way.capturing, oneWays_of_cons hafter, if_pos (by simp), hbefore]
  rfl

/-- Braces that are not closed make no name. -/
theorem ways_bracedName_of_open {cs : List Char} (hs : s.after = '\x7b' :: cs)
    (hopen : '\x7d' ∉ cs) : bracedName.ways s = [] := by
  let t := s.past '\x7b' cs
  have hskip : t.skip (· ≠ '\x7d') = t.ahead cs.length :=
    skip_eq_ahead (y := []) (List.append_nil cs).symm (not_close_of_notMem hopen) (by simp)
  have hafter : (t.ahead cs.length).after = [] := by
    rw [Spot.after_ahead]
    exact List.drop_length
  rw [ways_bracedName, hs]
  show Way.capturing 2 t (oneWays (· = '\x7d')) (t.skip (· ≠ '\x7d')) = []
  rw [hskip, Way.capturing, oneWays, hafter, List.map_nil]

/-- Where a reference starts, the search reads it and captures the name. -/
theorem ways_reference_of_isReference (h : IsReference w name rest) (hs : s.after = w ++ rest) :
    ∃ c : Capture Nat, (c.name = 1 ∨ c.name = 2) ∧ c.chars = name ∧
      ∃ ws, Host.reference.ways s = ⟨s.ahead w.length, [c]⟩ :: ws := by
  cases h with
  | plain hne hword hend =>
    let t := s.past '$' (name ++ rest)
    have hstop : s.ahead (name.length + 1) = t.ahead name.length := Spot.ahead_succ hs _
    obtain ⟨ws, hws⟩ := ways_plainName_of_word (s := t) rfl hne hword hend
    refine ⟨⟨1, name ++ rest, name.length⟩, .inl rfl, List.take_left .., ws ++ bracedName.ways t, ?_⟩
    rw [ways_reference, hs, List.length_cons, hstop]
    show plainName.ways t ++ bracedName.ways t = _
    rw [hws]
    rfl
  | braced hname =>
    have hs' : s.after = '$' :: '\x7b' :: (name ++ '\x7d' :: rest) := by rw [hs]; simp
    let t := s.past '$' ('\x7b' :: (name ++ '\x7d' :: rest))
    have hstop : s.ahead (name.length + 3) = t.ahead (name.length + 2) := Spot.ahead_succ hs' _
    have hplain : plainName.ways t = [] := ways_plainName_of_not_word isWord_brace
    refine ⟨⟨2, name ++ '\x7d' :: rest, name.length⟩, .inr rfl, List.take_left .., [], ?_⟩
    rw [ways_reference, hs']
    show plainName.ways t ++ bracedName.ways t = _
    rw [hplain, ways_bracedName_of_closed rfl hname, List.nil_append, ← hstop]
    simp

/-- Where none starts, it reads nothing. -/
theorem ways_reference_eq_nil
    (h : ∀ w name rest, IsReference w name rest → s.after ≠ w ++ rest) :
    Host.reference.ways s = [] := by
  rw [ways_reference]
  cases hs : s.after with
  | nil => rfl
  | cons c cs =>
    refine ite_eq_right_iff.2 fun hc => ?_
    subst hc
    let t := s.past '$' cs
    have hplain : plainName.ways t = [] := by
      refine ways_plainName_of_not_word (Bool.eq_false_iff.2 fun hword => ?_)
      cases cs with
      | nil => cases hword
      | cons d ds =>
        obtain ⟨w, name, rest, hr, heq⟩ := exists_plain ds hword
        exact h w name rest hr (hs.trans heq)
    have hbraced : bracedName.ways t = [] := by
      cases cs with
      | nil => exact ways_bracedName t
      | cons d ds =>
        by_cases hd : d = '\x7b'
        · subst hd
          refine ways_bracedName_of_open (s := t) rfl fun hclose => ?_
          obtain ⟨w, name, rest, hr, heq⟩ := exists_braced hclose
          exact h w name rest hr (hs.trans heq)
        · rw [ways_bracedName]
          exact if_neg hd
    show plainName.ways t ++ bracedName.ways t = []
    rw [hplain, hbraced, List.append_nil]

end Search

/-! ## Expanding a path -/

namespace Host

variable (h : Host)

theorem valueFor_eq {whole c : Capture Nat} (hwhole : whole.name = 0)
    (hc : c.name = 1 ∨ c.name = 2) (stop : Spot) :
    h.valueFor ⟨[whole, c], stop⟩ = (PathPiece.reference whole.chars c.chars).value h.valueOf := by
  rcases hc with hc | hc <;> simp [valueFor, Find.part?, PathPiece.value, hwhole, hc]

theorem roundsRead_reference : reference.roundsRead := by decide

theorem readsSomething_reference : reference.readsSomething := by decide

section Steps

variable {s : Spot}

/-- Where a reference starts, its value is put in, and the expanding goes on behind it. -/
theorem replacedFrom_of_isReference {w name rest : List Char} (hr : IsReference w name rest)
    (hs : s.after = w ++ rest) :
    reference.replacedFrom h.valueFor s =
      (PathPiece.reference w name).value h.valueOf ++
        reference.replacedFrom h.valueFor (s.ahead w.length) := by
  obtain ⟨c, hc, rfl, ws, hways⟩ := ways_reference_of_isReference hr hs
  have hwhole : (Capture.mk 0 s.after w.length).chars = w := by
    rw [Capture.chars, hs, List.take_left]
  rw [replacedFrom_of_ways roundsRead_reference readsSomething_reference hways,
    valueFor_eq h rfl hc, Spot.before_ahead_append hs, Nat.add_sub_cancel_left, hwhole]

/-- Where none starts, the character stays. -/
theorem replacedFrom_of_no_reference {c : Char} {rest : List Char} (hs : s.after = c :: rest)
    (hnone : ∀ w name rest, IsReference w name rest → s.after ≠ w ++ rest) :
    reference.replacedFrom h.valueFor s =
      (PathPiece.char c).value h.valueOf ++
        reference.replacedFrom h.valueFor (s.past c rest) :=
  replacedFrom_of_no_ways roundsRead_reference readsSomething_reference
    (ways_reference_eq_nil hnone) hs

end Steps

/-- From any spot on, the values are put into the reading of what follows. -/
theorem exists_reading (s : Spot) :
    ∃ ps, IsReading s.after ps ∧
      reference.replacedFrom h.valueFor s = ps.flatMap (·.value h.valueOf) := by
  induction hn : s.after.length using Nat.strongRecOn generalizing s with
  | ind n ih =>
    subst hn
    by_cases href : ∃ w name rest, IsReference w name rest ∧ s.after = w ++ rest
    · obtain ⟨w, name, rest, hr, hs⟩ := href
      have hafter : (s.ahead w.length).after = rest := Spot.after_ahead_append hs
      have hlt : (s.ahead w.length).after.length < s.after.length := by
        obtain ⟨c, cs, hw⟩ := hr.exists_cons
        rw [hafter, hs, hw]
        simp
        omega
      have hfits : (PathPiece.reference w name).Fits rest := hr
      obtain ⟨ps, hps, hvalue⟩ := ih _ hlt _ rfl
      rw [hafter] at hps
      refine ⟨.reference w name :: ps, hs ▸ hps.cons hfits, ?_⟩
      rw [replacedFrom_of_isReference h hr hs, hvalue, List.flatMap_cons]
    · have hnone : ∀ w name rest, IsReference w name rest → s.after ≠ w ++ rest :=
        fun w name rest hr hs => href ⟨w, name, rest, hr, hs⟩
      cases hs : s.after with
      | nil =>
        exact ⟨[], IsReading.nil,
          replacedFrom_of_nil roundsRead_reference readsSomething_reference hs⟩
      | cons c rest =>
        have hlt : (s.past c rest).after.length < s.after.length := by
          rw [hs]
          exact Nat.lt_succ_self _
        obtain ⟨ps, hps, hvalue⟩ := ih _ hlt _ rfl
        have hfits : (PathPiece.char c).Fits rest := fun w name back hr heq =>
          hnone w name back hr (hs.trans heq)
        refine ⟨.char c :: ps, hps.cons hfits, ?_⟩
        rw [replacedFrom_of_no_reference h hs hnone, hvalue, List.flatMap_cons]

/-- A path has one reading in pieces, and it is expanded by it: each reference to a variable that is
set gives way to its value, and all else stays. So a path stays as it is if no variable that it
refers to is set. -/
theorem expandVariables_reading (path : String) :
    ∃ ps, (∀ qs, IsReading path.toList qs ↔ qs = ps) ∧
      h.expandVariables path = String.ofList (ps.flatMap (·.value h.valueOf)) ∧
      ((∀ w name, .reference w name ∈ ps → h.valueOf (String.ofList name) = none) →
        h.expandVariables path = path) := by
  obtain ⟨ps, hps, hvalue⟩ := h.exists_reading (Spot.first path.toList)
  have hexpand : h.expandVariables path = String.ofList (ps.flatMap (·.value h.valueOf)) := by
    rw [expandVariables, replaceAll_eq, hvalue]
  refine ⟨ps, fun qs => ⟨fun hqs => hqs.unique hps, fun heq => heq ▸ hps⟩, hexpand,
    fun hunset => ?_⟩
  have hwritten : ∀ p ∈ ps, p.value h.valueOf = p.written := by
    intro p hp
    cases p with
    | char c => rfl
    | reference w name => rw [PathPiece.value, hunset w name hp]; rfl
  rw [hexpand, List.flatMap_congr hwritten, hps.whole]
  exact String.ofList_toList

end Host

end ErrorHints

import ErrorHints.Proofs.Pattern.Rendering

/-!
# Patterns whose texts split at one place

A text that is written after a pattern may be written after it in several ways, with other
values of the groups. It is not if at each seam of the pattern the text can be cut at one
place only: the part before the seam has no word that begins another, or it consists of
characters with which the part behind does not begin, or the part behind has a known length.
All of this can be read off the pattern.

Results:
* `Renders.eq_of_isPrefixFree`: of a pattern with self-ending words no word begins another.
* `Renders.values_eq`: a text is written after a determined pattern with one list of values.
-/
namespace ErrorHints.Pattern

variable {ν : Type} {p q : Pattern ν} {w w' x x' : List Char} {vs vs' : List (ν × List Char)}

/-! ## Lengths -/

/-- The length of what the pattern reads, if it has only one. -/
def length? : Pattern ν → Option Nat
  | text cs => some cs.length
  | one _ => some 1
  | place _ => some 0
  | seq p q => do return (← p.length?) + (← q.length?)
  | group _ p => p.length?
  | alt _ _ | repeated _ _ _ => none

theorem Renders.length_eq {n : Nat} (hn : p.length? = some n) (h : p.Renders w vs) :
    w.length = n := by
  induction h generalizing n with
  | text _ | place _ | one _ => exact Option.some.inj hn
  | seq _ _ ihp ihq =>
    simp only [length?, Option.pure_def, Option.bind_eq_bind, Option.bind_eq_some_iff,
      Option.some.injEq] at hn
    obtain ⟨a, ha, b, hb, rfl⟩ := hn
    rw [List.length_append, ihp ha, ihq hb]
  | group _ ih => exact ih hn
  | left _ _ | right _ _ | absent _ | once _ _ | again _ _ _ _ _ => cases hn

theorem Renders.ne_nil (hp : p.readsSomething) (h : p.Renders w vs) : w ≠ [] := by
  induction h with
  | text cs =>
    intro hnil
    subst hnil
    simp [readsSomething] at hp
  | one _ => exact List.cons_ne_nil _ _
  | place _ => cases hp
  | seq _ _ ihp ihq =>
    simp only [readsSomething, Bool.or_eq_true] at hp
    rw [Ne, List.append_eq_nil_iff, not_and_or]
    exact hp.imp ihp ihq
  | left _ ih =>
    simp only [readsSomething, Bool.and_eq_true] at hp
    exact ih hp.1
  | right _ ih =>
    simp only [readsSomething, Bool.and_eq_true] at hp
    exact ih hp.2
  | @absent r _ _ hr =>
    cases r with
    | atLeastOne => exact absurd rfl hr
    | atMostOne | anyNumber => cases hp
  | @once r _ _ _ _ _ ih =>
    cases r with
    | atLeastOne => exact ih hp
    | atMostOne | anyNumber => cases hp
  | @again r _ _ _ _ _ _ _ _ _ ih _ =>
    cases r with
    | atLeastOne => exact fun h => ih hp (List.append_eq_nil_iff.1 h).1
    | atMostOne | anyNumber => cases hp
  | group _ ih => exact ih hp

/-! ## Runs of characters -/

/-- The set that all characters come from which the pattern reads, if it is a run of them. -/
def run? : Pattern ν → Option CharSet
  | one set | repeated _ _ (one set) => some set
  | group _ p => p.run?
  | _ => none

theorem Renders.mem_run {set : CharSet} (hs : p.run? = some set) (h : p.Renders w vs) :
    ∀ c ∈ w, set.contains c := by
  induction h with
  | text _ | place _ | seq _ _ _ _ | left _ _ | right _ _ => cases hs
  | one hc =>
    cases hs
    exact fun c h => List.mem_singleton.1 h ▸ hc
  | absent _ => exact fun c h => absurd h List.not_mem_nil
  | once _ ih =>
    refine ih ?_
    unfold run? at hs
    split at hs <;> simp_all [run?]
  | again _ _ _ ih iht =>
    have hp := hs
    unfold run? at hp
    refine fun c h => (List.mem_append.1 h).elim (ih ?_ c) (iht hs c)
    split at hp <;> simp_all [run?]
  | group _ ih => exact ih hs

/-- Whether all that the pattern reads begins with a character outside of the set. -/
def beginsOutside (set : CharSet) : Pattern ν → Bool
  | text (c :: _) => !set.contains c
  | seq p _ => p.beginsOutside set
  | alt p q => p.beginsOutside set && q.beginsOutside set
  | group _ p => p.beginsOutside set
  | _ => false

theorem Renders.begins_outside {set : CharSet} (hp : p.beginsOutside set) (h : p.Renders w vs) :
    ∃ c rest, w = c :: rest ∧ set.contains c = false := by
  induction h with
  | text cs =>
    cases cs with
    | nil => cases hp
    | cons c cs => exact ⟨c, cs, rfl, by simpa [beginsOutside] using hp⟩
  | one _ | place _ | absent _ | once _ _ | again _ _ _ _ _ => cases hp
  | seq _ _ ih _ =>
    obtain ⟨c, rest, rfl, hc⟩ := ih hp
    exact ⟨c, _, rfl, hc⟩
  | left _ ih =>
    simp only [beginsOutside, Bool.and_eq_true] at hp
    exact ih hp.1
  | right _ ih =>
    simp only [beginsOutside, Bool.and_eq_true] at hp
    exact ih hp.2
  | group _ ih => exact ih hp

/-- Runs of one set that end at a character outside of it are equal if they begin one text. -/
theorem run_eq {set : CharSet} {c c' : Char} (hw : ∀ d ∈ w, set.contains d)
    (hw' : ∀ d ∈ w', set.contains d) (hc : set.contains c = false)
    (hc' : set.contains c' = false) (h : w ++ c :: x = w' ++ c' :: x') : w = w' := by
  have hend {a : List Char} (ha : ∀ d ∈ a, set.contains d) {d : Char} {y : List Char}
      (hd : set.contains d = false) : (a ++ d :: y).takeWhile set.contains = a := by
    rw [List.takeWhile_append_of_pos ha, List.takeWhile_cons_of_neg (by simp [hd]),
      List.append_nil]
  rw [← hend hw hc, h, hend hw' hc']

/-- Whether the first pattern is a run which ends where the second begins. -/
def endsBefore (p q : Pattern ν) : Bool := p.run?.any fun set => q.beginsOutside set

theorem eq_of_endsBefore {s s' t t' : List Char} {u u' v v' : List (ν × List Char)}
    (h : p.endsBefore q) (hs : p.Renders s u) (hs' : p.Renders s' u') (ht : q.Renders t v)
    (ht' : q.Renders t' v') (he : s ++ (t ++ x) = s' ++ (t' ++ x')) : s = s' := by
  obtain ⟨set, hset, hq⟩ := (Option.any_eq_true ..).1 h
  obtain ⟨c, rest, rfl, hc⟩ := ht.begins_outside hq
  obtain ⟨c', rest', rfl, hc'⟩ := ht'.begins_outside hq
  exact run_eq (hs.mem_run hset) (hs'.mem_run hset) hc hc' he

/-! ## Words that end by themselves -/

/-- Whether no word of the pattern begins another one. -/
def isPrefixFree : Pattern ν → Bool
  | text _ | one _ | place _ => true
  | seq p q => (p.isPrefixFree || p.endsBefore q) && q.isPrefixFree
  | alt (text cs) (text ds) => !cs.isPrefixOf ds && !ds.isPrefixOf cs
  | group _ p => p.isPrefixFree
  | _ => false

theorem Renders.eq_of_isPrefixFree (hp : p.isPrefixFree) (h : p.Renders w vs)
    (h' : p.Renders w' vs') (he : w ++ x = w' ++ x') : w = w' := by
  induction p generalizing w w' x x' vs vs' with
  | text cs => rw [(renders_text_iff.1 h).1, (renders_text_iff.1 h').1]
  | one set =>
    exact (List.append_inj he ((h.length_eq rfl).trans (h'.length_eq rfl).symm)).1
  | place anchor => rw [(renders_place_iff.1 h).1, (renders_place_iff.1 h').1]
  | seq p q ihp ihq =>
    simp only [isPrefixFree, Bool.and_eq_true, Bool.or_eq_true] at hp
    obtain ⟨s, t, u, v, hs, ht, rfl, rfl⟩ := renders_seq_iff.1 h
    obtain ⟨s', t', u', v', hs', ht', rfl, rfl⟩ := renders_seq_iff.1 h'
    simp only [List.append_assoc] at he
    obtain rfl : s = s' := hp.1.elim (fun hp => ihp hp hs hs' he) fun hp =>
      eq_of_endsBefore hp hs hs' ht ht' he
    rw [ihq hp.2 ht ht' (List.append_cancel_left he)]
  | alt p q _ _ =>
    unfold isPrefixFree at hp
    split at hp
    case h_5 cs ds heq =>
      cases heq
      simp only [Bool.and_eq_true, Bool.not_eq_true', ← Bool.not_eq_true,
        List.isPrefixOf_iff_prefix] at hp
      have hle {a b y z : List Char} (h : a ++ y = b ++ z) : a <+: b ∨ b <+: a :=
        List.prefix_or_prefix_of_prefix ⟨y, rfl⟩ ⟨z, h.symm⟩
      simp only [renders_alt_iff, renders_text_iff] at h h'
      rcases h with ⟨rfl, -⟩ | ⟨rfl, -⟩ <;> rcases h' with ⟨rfl, -⟩ | ⟨rfl, -⟩
      · rfl
      · exact absurd (hle he) (not_or.2 hp)
      · exact absurd (hle he).symm (not_or.2 hp)
      · rfl
    all_goals simp_all
  | repeated r eager p _ => cases hp
  | group name p ih =>
    obtain ⟨u, hu, -⟩ := renders_group_iff.1 h
    obtain ⟨u', hu', -⟩ := renders_group_iff.1 h'
    exact ih hp hu hu' he

/-! ## Values -/

/-- Whether words of the first pattern, followed by words of the second, split at one place. -/
def splits (p q : Pattern ν) : Bool := p.isPrefixFree || p.endsBefore q || q.length?.isSome

theorem eq_of_splits {s s' t t' : List Char} {u u' v v' : List (ν × List Char)}
    (h : p.splits q) (hs : p.Renders s u) (hs' : p.Renders s' u') (ht : q.Renders t v)
    (ht' : q.Renders t' v') (he : s ++ t = s' ++ t') : s = s' ∧ t = t' := by
  have hcut : s = s' → s = s' ∧ t = t' := fun hst => ⟨hst, List.append_cancel_left (hst ▸ he)⟩
  simp only [splits, Bool.or_eq_true] at h
  rcases h with (h | h) | h
  · exact hcut (hs.eq_of_isPrefixFree h hs' he)
  · have he' : s ++ (t ++ []) = s' ++ (t' ++ []) := by simpa using he
    exact hcut (eq_of_endsBefore h hs hs' ht ht' he')
  · obtain ⟨n, hn⟩ := Option.isSome_iff_exists.1 h
    exact List.append_inj' he ((ht.length_eq hn).trans (ht'.length_eq hn).symm)

/-- Whether a text settles the values of the groups. -/
def isDetermined : Pattern ν → Bool
  | text _ | one _ | place _ => true
  | seq p q => p.groups.isEmpty && q.groups.isEmpty ||
      p.isDetermined && q.isDetermined && p.splits q
  | alt p q => p.groups.isEmpty && q.groups.isEmpty
  | repeated .atMostOne _ p => p.groups.isEmpty || p.isDetermined && p.readsSomething
  | repeated _ _ p => p.groups.isEmpty
  | group _ p => p.isDetermined

/-- A text is written after a determined pattern with one list of values. -/
theorem Renders.values_eq (hp : p.isDetermined) (h : p.Renders w vs) (h' : p.Renders w vs') :
    vs = vs' := by
  have hnone {r : Pattern ν} {w : List Char} {vs vs' : List (ν × List Char)}
      (hg : r.groups = []) (h : r.Renders w vs) (h' : r.Renders w vs') : vs = vs' :=
    (values_eq_nil hg h).trans (values_eq_nil hg h').symm
  induction p generalizing w vs vs' with
  | text _ | one _ | place _ => exact hnone rfl h h'
  | seq p q ihp ihq =>
    simp only [isDetermined, Bool.or_eq_true, Bool.and_eq_true, List.isEmpty_iff] at hp
    rcases hp with hp | ⟨⟨hp, hq⟩, hsplit⟩
    · exact hnone (by rwa [groups, List.append_eq_nil_iff]) h h'
    obtain ⟨s, t, u, v, hs, ht, rfl, rfl⟩ := renders_seq_iff.1 h
    obtain ⟨s', t', u', v', hs', ht', he, rfl⟩ := renders_seq_iff.1 h'
    obtain ⟨rfl, rfl⟩ := eq_of_splits hsplit hs hs' ht ht' he
    rw [ihp hp hs hs', ihq hq ht ht']
  | alt p q _ _ =>
    simp only [isDetermined, Bool.and_eq_true, List.isEmpty_iff] at hp
    exact hnone (by rwa [groups, List.append_eq_nil_iff]) h h'
  | repeated r eager p ih =>
    cases r with
    | anyNumber | atLeastOne => exact hnone (by simpa [isDetermined, groups] using hp) h h'
    | atMostOne =>
      simp only [isDetermined, Bool.or_eq_true, Bool.and_eq_true, List.isEmpty_iff] at hp
      rcases hp with hp | ⟨hp, hsome⟩
      · exact hnone (by rwa [groups]) h h'
      -- an absent part adds no character, a present one adds some
      rcases renders_opt_iff.1 h with ⟨rfl, rfl⟩ | h <;>
        rcases renders_opt_iff.1 h' with ⟨hw, rfl⟩ | h'
      · rfl
      · exact absurd rfl (h'.ne_nil hsome)
      · exact absurd hw (h.ne_nil hsome)
      · exact ih hp h h'
  | group name p ih =>
    obtain ⟨u, hu, rfl⟩ := renders_group_iff.1 h
    obtain ⟨u', hu', rfl⟩ := renders_group_iff.1 h'
    rw [ih hp hu hu']

end ErrorHints.Pattern

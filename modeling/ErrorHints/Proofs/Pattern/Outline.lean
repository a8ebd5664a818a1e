import ErrorHints.Proofs.Pattern.Splitting

/-!
# Patterns with no text in common

Whether two patterns can share a text is asked of their outlines. An outline is a list of
stretches, each of them one known character, one character of a set or a run of such characters;
a pattern has one for each way to choose its branches and its optional parts, and forgets its
groups and places. Two outlines are laid side by side, stretch by stretch. Sets are compared with
known characters only: where set meets set a common character is taken for granted, so the
answer that they meet may be wrong, and the answer that they do not never is.

Results:
* `exists_outline_of_renders`: what is written after a pattern fills one of its outlines.
* `meets_of_fills`: outlines that are filled by one text meet.
* `Pattern.not_renders_of_apart`: patterns that are apart have no text in common.
-/
namespace ErrorHints

/-- A part of an outline. -/
inductive Stretch where
  | char (c : Char)
  | one (set : CharSet)
  /-- Any number of characters of a set. -/
  | run (set : CharSet)

namespace Stretch

/-- The text consists of what the stretches stand for, in their order. -/
inductive Fills : List Stretch → List Char → Prop
  | nil : Fills [] []
  | char {c : Char} {xs : List Stretch} {w : List Char} (h : Fills xs w) :
      Fills (.char c :: xs) (c :: w)
  | one {set : CharSet} {c : Char} {xs : List Stretch} {w : List Char} (hc : set.contains c)
      (h : Fills xs w) : Fills (.one set :: xs) (c :: w)
  | stop {set : CharSet} {xs : List Stretch} {w : List Char} (h : Fills xs w) :
      Fills (.run set :: xs) w
  | more {set : CharSet} {c : Char} {xs : List Stretch} {w : List Char} (hc : set.contains c)
      (h : Fills (.run set :: xs) w) : Fills (.run set :: xs) (c :: w)

theorem Fills.append {xs ys : List Stretch} {v w : List Char} (h : Fills xs v) (h' : Fills ys w) :
    Fills (xs ++ ys) (v ++ w) := by
  induction h with
  | nil => exact h'
  | char _ ih => exact .char ih
  | one hc _ ih => exact .one hc ih
  | stop _ ih => exact .stop ih
  | more hc _ ih => exact .more hc ih

theorem fills_chars (cs : List Char) : Fills (cs.map .char) cs := by
  induction cs with
  | nil => exact .nil
  | cons c cs ih => exact .char ih

theorem fills_run {set : CharSet} {w : List Char} (hw : ∀ c ∈ w, set.contains c) :
    Fills [.run set] w := by
  induction w with
  | nil => exact .stop .nil
  | cons c w ih =>
    exact .more (hw c List.mem_cons_self) (ih fun d hd => hw d (List.mem_cons_of_mem c hd))

/-! ## Side by side -/

def isRun : Stretch → Bool
  | run _ => true
  | _ => false

/-- Whether a character of the stretch may be in the set. -/
def touches (set : CharSet) : Stretch → Bool
  | char c => set.contains c
  | _ => true

/-- Whether two stretches of one character may have it in common. -/
def agrees : Stretch → Stretch → Bool
  | char c, char d => c = d
  | char c, one set | one set, char c => set.contains c
  | _, _ => true

/-- Whether the stretch `x`, and then what `rest` accepts, can stand beside the given stretches. -/
def beside (x : Stretch) (rest : List Stretch → Bool) : List Stretch → Bool
  | [] => x.isRun && rest []
  | y :: ys =>
    match x, y with
    | run set, y => rest (y :: ys) || y.touches set && beside (run set) rest ys
    | x, run set => beside x rest ys || x.touches set && rest (run set :: ys)
    | x, y => x.agrees y && rest ys

/-- Whether one text may fill both outlines. -/
def meets : List Stretch → List Stretch → Bool
  | [] => fun ys => ys.all isRun
  | x :: xs => beside x (meets xs)

theorem meets_nil_of_fills {ys : List Stretch} (h : Fills ys []) : meets [] ys := by
  generalize hw : ([] : List Char) = w at h
  induction h with
  | nil => rfl
  | stop _ ih => simpa [meets, isRun] using ih hw
  | char _ _ | one _ _ _ | more _ _ _ => cases hw

section Beside

variable {x y : Stretch} {rest : List Stretch → Bool} {ys : List Stretch}

/-- Two stretches of one character stand for it together. -/
theorem beside_cons (hx : x.isRun = false) (hy : y.isRun = false) :
    beside x rest (y :: ys) = (x.agrees y && rest ys) := by
  cases x with
  | run _ => cases hx
  | char _ | one _ =>
    cases y with
    | run _ => cases hy
    | char _ | one _ => rfl

/-- A run beside a stretch of one character is over or holds the character. -/
theorem beside_run {set : CharSet} (hx : x.isRun = false) :
    beside x rest (.run set :: ys) =
      (beside x rest ys || x.touches set && rest (.run set :: ys)) := by
  cases x with
  | run _ => cases hx
  | char _ | one _ => rfl

/-- A stretch of one character, beside stretches that are filled from this character on. -/
theorem beside_of_fills {c : Char} {w : List Char} (hx : Fills [x] [c]) (hn : x.isRun = false)
    (hrest : ∀ {ys}, Fills ys w → rest ys) (h : Fills ys (c :: w)) : beside x rest ys := by
  have hset {set : CharSet} (hc : set.contains c) : x.touches set := by
    cases hx with
    | char _ => exact hc
    | one _ _ | more _ _ | stop _ => rfl
  have hagree {y : Stretch} (hy : Fills [y] [c]) (hn' : y.isRun = false) : x.agrees y := by
    cases hx <;> cases hy <;> simp_all [agrees, isRun]
  induction ys with
  | nil => cases h
  | cons y ys ih =>
    cases h with
    | char h =>
      rw [beside_cons hn rfl, Bool.and_eq_true]
      exact ⟨hagree (.char .nil) rfl, hrest h⟩
    | one hc h =>
      rw [beside_cons hn rfl, Bool.and_eq_true]
      exact ⟨hagree (.one hc .nil) rfl, hrest h⟩
    | stop h =>
      rw [beside_run hn, Bool.or_eq_true]
      exact .inl (ih h)
    | more hc h =>
      rw [beside_run hn, Bool.or_eq_true, Bool.and_eq_true]
      exact .inr ⟨hset hc, hrest h⟩

end Beside

/-- Outlines that are filled by one text meet. -/
theorem meets_of_fills {xs ys : List Stretch} {w : List Char} (hx : Fills xs w) (hy : Fills ys w) :
    meets xs ys := by
  induction hx generalizing ys with
  | nil => exact meets_nil_of_fills hy
  | char _ ih => exact beside_of_fills (.char .nil) rfl ih hy
  | one hc _ ih => exact beside_of_fills (.one hc .nil) rfl ih hy
  | stop _ ih =>
    cases ys with
    | nil => exact Bool.and_eq_true_iff.2 ⟨rfl, ih hy⟩
    | cons y ys => exact Bool.or_eq_true_iff.2 (.inl (ih hy))
  | @more set c xs w hc _ ih =>
    have hrun {y : Stretch} {ys : List Stretch} (ht : y.touches set)
        (h : meets (.run set :: xs) ys) : meets (.run set :: xs) (y :: ys) :=
      Bool.or_eq_true_iff.2 (.inr (Bool.and_eq_true_iff.2 ⟨ht, h⟩))
    induction ys with
    | nil => cases hy
    | cons y ys ih' =>
      cases hy with
      | char h => exact hrun hc (ih h)
      | one _ h => exact hrun rfl (ih h)
      | stop h => exact hrun rfl (ih' h)
      | more _ h => exact ih h

end Stretch

/-! ## Outlines of patterns -/

namespace Pattern

variable {ν : Type} {p q : Pattern ν} {w : List Char} {vs : List (ν × List Char)}

/-- All characters that the pattern may read. -/
def chars : Pattern ν → CharSet
  | text cs => .ofChars cs
  | one set => set
  | place _ => .empty
  | seq p q | alt p q => p.chars.union q.chars
  | repeated _ _ p | group _ p => p.chars

theorem Renders.mem_chars (h : p.Renders w vs) : ∀ c ∈ w, p.chars.contains c := by
  induction h with
  | text cs => exact fun c hc => by rw [chars, CharSet.contains_ofChars]; exact decide_eq_true hc
  | one hc => exact fun c h => List.mem_singleton.1 h ▸ hc
  | place _ | absent _ => exact fun c h => absurd h List.not_mem_nil
  | seq _ _ ihp ihq =>
    intro c hc
    rw [chars, CharSet.contains_union, Bool.or_eq_true]
    exact (List.mem_append.1 hc).imp (ihp c) (ihq c)
  | left _ ih =>
    intro c hc
    rw [chars, CharSet.contains_union, Bool.or_eq_true]
    exact .inl (ih c hc)
  | right _ ih =>
    intro c hc
    rw [chars, CharSet.contains_union, Bool.or_eq_true]
    exact .inr (ih c hc)
  | once _ ih | group _ ih => exact ih
  | again _ _ _ ihp ihq => exact fun c hc => (List.mem_append.1 hc).elim (ihp c) (ihq c)

/-- An outline for each choice of branches and of optional parts. -/
def outlines : Pattern ν → List (List Stretch)
  | text cs => [cs.map .char]
  | one set => [[.one set]]
  | place _ => [[]]
  | seq p q => p.outlines.flatMap fun xs => q.outlines.map (xs ++ ·)
  | alt p q => p.outlines ++ q.outlines
  | repeated .atMostOne _ p => [] :: p.outlines
  | repeated .anyNumber _ p => [[.run p.chars]]
  | repeated .atLeastOne _ p =>
    if p.readsSomething then [[.one p.chars, .run p.chars]] else [[.run p.chars]]
  | group _ p => p.outlines

theorem exists_outline_of_renders (h : p.Renders w vs) : ∃ xs ∈ p.outlines, Stretch.Fills xs w := by
  induction p generalizing w vs with
  | text cs =>
    obtain ⟨rfl, -⟩ := renders_text_iff.1 h
    exact ⟨_, List.mem_cons_self, Stretch.fills_chars w⟩
  | one set =>
    obtain ⟨c, hc, rfl, -⟩ := renders_one_iff.1 h
    exact ⟨_, List.mem_cons_self, .one hc .nil⟩
  | place anchor =>
    obtain ⟨rfl, -⟩ := renders_place_iff.1 h
    exact ⟨_, List.mem_cons_self, .nil⟩
  | seq p q ihp ihq =>
    obtain ⟨s, t, u, v, hs, ht, rfl, -⟩ := renders_seq_iff.1 h
    obtain ⟨xs, hxs, hx⟩ := ihp hs
    obtain ⟨ys, hys, hy⟩ := ihq ht
    exact ⟨xs ++ ys, List.mem_flatMap.2 ⟨xs, hxs, List.mem_map_of_mem hys⟩, hx.append hy⟩
  | alt p q ihp ihq =>
    rcases renders_alt_iff.1 h with h | h
    · obtain ⟨xs, hxs, hx⟩ := ihp h
      exact ⟨xs, List.mem_append_left _ hxs, hx⟩
    · obtain ⟨xs, hxs, hx⟩ := ihq h
      exact ⟨xs, List.mem_append_right _ hxs, hx⟩
  | repeated r eager p ih =>
    cases r with
    | atMostOne =>
      rcases renders_opt_iff.1 h with ⟨rfl, -⟩ | h
      · exact ⟨[], List.mem_cons_self, .nil⟩
      · obtain ⟨xs, hxs, hx⟩ := ih h
        exact ⟨xs, List.mem_cons_of_mem _ hxs, hx⟩
    | anyNumber => exact ⟨_, List.mem_cons_self, Stretch.fills_run h.mem_chars⟩
    | atLeastOne =>
      unfold outlines
      split
      · rename_i hp
        have hw : w ≠ [] := Renders.ne_nil (p := .repeated .atLeastOne eager p) hp h
        obtain ⟨c, t, rfl⟩ := List.exists_cons_of_ne_nil hw
        have hc := h.mem_chars
        refine ⟨_, List.mem_cons_self, .one (hc c List.mem_cons_self) ?_⟩
        exact Stretch.fills_run fun d hd => hc d (List.mem_cons_of_mem c hd)
      · exact ⟨_, List.mem_cons_self, Stretch.fills_run h.mem_chars⟩
  | group name p ih =>
    obtain ⟨u, hu, -⟩ := renders_group_iff.1 h
    exact ih hu

/-- Whether no outline of the one pattern meets one of the other. -/
def apart (p q : Pattern ν) : Bool :=
  p.outlines.all fun xs => q.outlines.all fun ys => !Stretch.meets xs ys

/-- Patterns that are apart have no text in common. -/
theorem not_renders_of_apart {us : List (ν × List Char)} (h : p.apart q) (hp : p.Renders w us) :
    ¬ q.Renders w vs := by
  intro hq
  obtain ⟨xs, hxs, hx⟩ := exists_outline_of_renders hp
  obtain ⟨ys, hys, hy⟩ := exists_outline_of_renders hq
  have hm := List.all_eq_true.1 (List.all_eq_true.1 h xs hxs) ys hys
  rw [Stretch.meets_of_fills hx hy] at hm
  cases hm

end Pattern

end ErrorHints

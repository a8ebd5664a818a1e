import ErrorHints.Knowledge.Basic
import Mathlib.Data.String.Basic

/-!
# The order of keys

Keys are compared character by character. As the leading byte of a longer code is the greater one
in UTF-8 and the bits of a character follow from the highest to the lowest, this is how their bytes
compare. So the entries of a table are in the order of the bytes of their keys.

Results:
* `lt_iff_bytes_lt`: the order of strings is that of their bytes.
* `byBytes_eq`: a table lists its entries in this order.
* `byBytes_spec`: all of them, in increasing order.
-/
namespace ErrorHints

/-- The bytes of a string in UTF-8. -/
def bytes (s : String) : List UInt8 := s.toUTF8.data.toList

theorem bytes_eq (s : String) : bytes s = s.toList.flatMap String.utf8EncodeChar := by
  conv_lhs => rw [← String.ofList_toList (s := s)]
  rw [bytes, String.toUTF8_eq_toByteArray, String.toByteArray_ofList]
  exact List.toList_data_toByteArray

/-- A smaller character has smaller bytes, whatever follows. -/
theorem utf8EncodeChar_append_lt {c d : Char} (h : c < d) (x y : List UInt8) :
    String.utf8EncodeChar c ++ x < String.utf8EncodeChar d ++ y := by
  have hlt : c.val.toNat < d.val.toNat := h
  have hd : d.val.toNat < 0x110000 := by
    have := d.valid
    simp only [UInt32.isValidChar, Nat.isValidChar] at this
    omega
  have hthree (n : Nat) : n / 4096 = n / 64 / 64 := by omega
  have hfour (n : Nat) : n / 262144 = n / 64 / 64 / 64 := by omega
  rw [String.utf8EncodeChar.eq_1, String.utf8EncodeChar.eq_1]
  generalize c.val.toNat = m at *
  generalize d.val.toNat = n at *
  rw [hthree, hthree, hfour, hfour]
  -- by the number of bytes of either character
  repeat' split
  all_goals
    simp only [List.cons_append, List.nil_append, List.cons_lt_cons_iff, UInt8.lt_iff_toNat_lt,
      ← UInt8.toNat_inj, UInt8.toNat_ofNat']
    omega

theorem bytes_lt_of_lt {s t : String} (h : s < t) : bytes s < bytes t := by
  rw [bytes_eq, bytes_eq]
  rw [String.lt_iff_toList_lt] at h
  generalize s.toList = cs at h
  generalize t.toList = ds at h
  induction cs generalizing ds with
  | nil =>
    cases ds with
    | nil => exact absurd h (List.lt_irrefl [])
    | cons d ds =>
      rw [List.flatMap_nil, List.flatMap_cons, String.utf8EncodeChar.eq_1]
      repeat' split
      all_goals exact List.nil_lt_cons _ _
  | cons c cs ih =>
    cases ds with
    | nil => exact absurd h (List.not_lt_nil _)
    | cons d ds =>
      rw [List.flatMap_cons, List.flatMap_cons]
      rcases List.cons_lt_cons_iff.1 h with hc | ⟨rfl, hrest⟩
      · exact utf8EncodeChar_append_lt hc _ _
      · exact List.append_left_lt (ih _ hrest)

/-- The order of strings is that of their bytes. -/
theorem lt_iff_bytes_lt (s t : String) : s < t ↔ bytes s < bytes t := by
  refine ⟨bytes_lt_of_lt, fun h => ?_⟩
  by_contra hlt
  by_cases hgt : t < s
  · exact List.lt_asymm h (bytes_lt_of_lt hgt)
  · rw [String.le_antisymm hgt hlt] at h
    exact List.lt_irrefl _ h

/-- The entries of a table, in the order of the bytes of their keys. -/
def byBytes {α : Type} (table : Table α) : List (String × α) :=
  table.toList.mergeSort fun e e' => bytes e.1 ≤ bytes e'.1

theorem pairwise_toList {α : Type} (table : Table α) :
    table.toList.Pairwise fun e e' => bytes e.1 < bytes e'.1 := by
  refine Std.TreeMap.ordered_keys_toList.imp fun {e e'} h => ?_
  exact bytes_lt_of_lt (compareOfLessAndEq_eq_lt.1 h)

/-- A table lists its entries in this order. -/
theorem byBytes_eq {α : Type} (table : Table α) : byBytes table = table.toList :=
  List.mergeSort_of_pairwise
    ((pairwise_toList table).imp fun h => decide_eq_true (List.le_of_lt h))

/-- It lists every entry, and the bytes of the keys increase. -/
theorem byBytes_spec {α : Type} (table : Table α) :
    (∀ key value, (key, value) ∈ byBytes table ↔ table[key]? = some value) ∧
      (byBytes table).Pairwise fun e e' => bytes e.1 < bytes e'.1 := by
  rw [byBytes_eq]
  exact ⟨fun key value => Std.TreeMap.mem_toList_iff_getElem?_eq_some, pairwise_toList table⟩

end ErrorHints

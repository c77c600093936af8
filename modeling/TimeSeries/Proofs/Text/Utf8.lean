import Mathlib.Data.List.Lex
import Mathlib.Data.String.Basic
import TimeSeries.Sample.Bytes

/-!
# The order of texts is that of their bytes

Texts are ordered by their characters, and these by their numbers. UTF-8 keeps that order: of two
characters the later one has the longer encoding, which begins with a larger byte, or one that is as
long and has a larger digit first where they differ (`Text.utf8EncodeChar_append_lt`).

Main result: `Text.bytes_lt_iff`.
-/

namespace TimeSeries.Text

/-- The bytes of a text. -/
def bytes (text : String) : Bytes := text.toUTF8.data.toList

theorem bytes_eq_flatMap (text : String) :
    bytes text = text.toList.flatMap String.utf8EncodeChar := by
  rw [bytes, String.toUTF8_eq_toByteArray, ← String.utf8Encode_toList]
  exact List.toList_data_toByteArray

/-- The digits of a number, of which an encoding has up to four. -/
theorem digits (n : Nat) : n / 4096 = n / 64 / 64 ∧ n / 262144 = n / 64 / 64 / 64 := by
  rw [Nat.div_div_eq_div_mul, Nat.div_div_eq_div_mul]
  exact ⟨rfl, rfl⟩

/-- **The encoding of a later character** comes later, whatever follows. -/
theorem utf8EncodeChar_append_lt {c d : Char} (h : c < d) (xs ys : Bytes) :
    String.utf8EncodeChar c ++ xs < String.utf8EncodeChar d ++ ys := by
  have hlt : c.val.toNat < d.val.toNat := h
  have hvalid : d.val.toNat < 1114112 := by
    rcases d.valid with hlow | ⟨-, hhigh⟩ <;> omega
  simp only [String.utf8EncodeChar, digits]
  generalize c.val.toNat = v at *
  generalize d.val.toNat = w at *
  -- one case for each pair of lengths
  split_ifs <;>
    simp only [List.cons_append, List.nil_append, List.cons_lt_cons_iff, UInt8.lt_iff_toNat_lt,
      UInt8.toNat_ofNat', ← UInt8.toNat_inj] <;>
    omega

theorem flatMap_lt {cs ds : List Char} (h : cs < ds) :
    cs.flatMap String.utf8EncodeChar < ds.flatMap String.utf8EncodeChar := by
  induction h with
  | @nil d ds =>
    rw [List.flatMap_nil, List.flatMap_cons]
    have hlength := String.length_utf8EncodeChar d
    cases hbytes : String.utf8EncodeChar d with
    | nil =>
      rw [hbytes] at hlength
      exact absurd hlength.symm (Nat.ne_of_gt d.utf8Size_pos)
    | cons b bs => exact List.nil_lt_cons b _
  | cons _ ih =>
    rw [List.flatMap_cons, List.flatMap_cons]
    exact List.append_left_lt ih
  | rel hlt =>
    rw [List.flatMap_cons, List.flatMap_cons]
    exact utf8EncodeChar_append_lt hlt _ _

/-- **Texts are in the order of their bytes.** -/
theorem bytes_lt_iff {a b : String} : bytes a < bytes b ↔ a < b := by
  have hforth : ∀ {a b : String}, a < b → bytes a < bytes b := by
    intro a b h
    rw [bytes_eq_flatMap, bytes_eq_flatMap]
    exact flatMap_lt h
  refine ⟨fun h => ?_, hforth⟩
  rcases lt_trichotomy a b with hlt | rfl | hgt
  · exact hlt
  · exact absurd h (List.lt_irrefl _)
  · exact absurd h (List.lt_asymm (hforth hgt))

end TimeSeries.Text

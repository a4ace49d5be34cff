import ContentClasses.Files.Tree
import Mathlib.Data.List.Nodup
import Mathlib.Tactic.Lemma
import Mathlib.Tactic.SplitIfs

/-!
# The order of bytes

Texts are ordered code point by code point. That is the order of their bytes in UTF-8, as `utf8_lt`
says, and so names in the order of their code points are names in the order of their bytes.
-/

namespace ContentClasses

/-- The bytes of a text in UTF-8. -/
def Text.utf8 (s : String) : List UInt8 :=
  s.toUTF8.data.toList

namespace Text
variable {c d : Char} {cs ds : List Char} {a b : String}

lemma utf8_eq (s : String) : utf8 s = s.toList.flatMap String.utf8EncodeChar := by
  rw [utf8, String.toUTF8, ← String.utf8Encode_toList, List.utf8Encode,
    List.toList_data_toByteArray]

/-- The bytes of the lower of two code points are lower, whatever stands behind them: fewer bytes
start with a lower one, and as many bytes hold the digits of the code points in base 64. -/
lemma utf8EncodeChar_append_lt (h : c.toNat < d.toNat) (xs ys : List UInt8) :
    String.utf8EncodeChar c ++ xs < String.utf8EncodeChar d ++ ys := by
  have validC : c.toNat.isValidChar := c.valid
  have validD : d.toNat.isValidChar := d.valid
  have third (n : Nat) : n / 262144 = n / 64 / 64 / 64 := by omega
  have second (n : Nat) : n / 4096 = n / 64 / 64 := by omega
  simp only [Nat.isValidChar, Char.toNat] at h validC validD
  simp only [String.utf8EncodeChar, second, third]
  split_ifs <;>
    simp (disch := omega) only [List.cons_append, List.nil_append, List.cons_lt_cons_iff,
      UInt8.lt_iff_toNat_lt, ← UInt8.toNat_inj, UInt8.toNat_ofNat', Nat.mod_eq_of_lt] <;>
    omega

/-- A common front decides nothing about the order of two rows of bytes. -/
lemma append_lt_append {front xs ys : List UInt8} (h : xs < ys) : front ++ xs < front ++ ys := by
  induction front with
  | nil => exact h
  | cons x front ih => exact List.cons_lt_cons_iff.mpr (.inr ⟨rfl, ih⟩)

/-- Where the characters of one text come before those of another, so do their bytes: the encoding
keeps the order. -/
lemma flatMap_utf8_lt (h : cs < ds) :
    cs.flatMap String.utf8EncodeChar < ds.flatMap String.utf8EncodeChar := by
  induction cs generalizing ds with
  | nil =>
    cases ds with
    | nil => exact absurd h (List.lt_irrefl _)
    | cons d ds =>
      rw [List.flatMap_cons, List.flatMap_nil]
      cases bytes : String.utf8EncodeChar d with
      | nil => exact absurd bytes String.utf8EncodeChar_ne_nil
      | cons x xs => exact List.nil_lt_cons _ _
  | cons c cs ih =>
    cases ds with
    | nil => exact absurd h (List.not_lt_nil _)
    | cons d ds =>
      rw [List.flatMap_cons, List.flatMap_cons]
      obtain lower | ⟨rfl, later⟩ := List.cons_lt_cons_iff.mp h
      · exact utf8EncodeChar_append_lt lower _ _
      · exact append_lt_append (ih later)

/-- The order of texts is that of their bytes. -/
lemma utf8_lt (h : a < b) : utf8 a < utf8 b := by
  rw [utf8_eq, utf8_eq]
  exact flatMap_utf8_lt h

end Text

end ContentClasses

import Mathlib.Data.String.Basic
import Mathlib.Tactic.SplitIfs
import ResourceLanguage.Proofs.Text.Encoding

/-!
The order of texts. Texts are compared code point by code point. In UTF-8 that is the order of their
bytes: of two characters the smaller one has the smaller byte at the first place where they differ,
and no character is encoded as the beginning of another one.
-/

namespace ResourceLanguage.Text

/-- The bytes of one text come before those of another one. -/
def BytesBefore (a b : String) : Prop :=
  List.Lex (· < ·) a.toUTF8.data.toList b.toUTF8.data.toList

/-- Code points are compared by their digits, of six bits each. -/
theorem lt_digits {m n : Nat} (h : m < n) :
    m / 262144 < n / 262144 ∨ m / 262144 = n / 262144 ∧
      (m / 4096 % 64 < n / 4096 % 64 ∨ m / 4096 % 64 = n / 4096 % 64 ∧
        (m / 64 % 64 < n / 64 % 64 ∨ m / 64 % 64 = n / 64 % 64 ∧ m % 64 < n % 64)) := by
  omega

theorem toNat_lt_of_char (c : Char) : c.val.toNat < 1114112 := by
  rcases c.valid with hlow | hhigh
  · have hlow : c.val.toNat < 55296 := hlow
    omega
  · exact hhigh.2

theorem lex_utf8EncodeChar {c d : Char} (h : c < d) (xs ys : List UInt8) :
    List.Lex (· < ·) (String.utf8EncodeChar c ++ xs) (String.utf8EncodeChar d ++ ys) := by
  have hlt : c.val.toNat < d.val.toNat := h
  have hbound := toNat_lt_of_char d
  have hdigits := lt_digits hlt
  -- The first bytes of longer encodings are greater. Within a length, the bytes are the digits.
  unfold String.utf8EncodeChar
  dsimp only
  split_ifs <;>
    simp (disch := omega) only [List.cons_append, List.nil_append, List.cons_lex_cons_iff,
      UInt8.lt_iff_toNat_lt, ← UInt8.toNat_inj, UInt8.toNat_ofNat', Nat.mod_eq_of_lt] <;>
    omega

theorem lex_flatMap_utf8EncodeChar {cs ds : List Char} (h : List.Lex (· < ·) cs ds) :
    List.Lex (· < ·) (cs.flatMap String.utf8EncodeChar) (ds.flatMap String.utf8EncodeChar) := by
  induction h with
  | @nil d ds =>
      rw [List.flatMap_nil, List.flatMap_cons]
      obtain ⟨byte, rest, hbytes⟩ := List.exists_cons_of_ne_nil
        (List.append_ne_nil_of_left_ne_nil (String.utf8EncodeChar_ne_nil (c := d))
          (ds.flatMap String.utf8EncodeChar))
      rw [hbytes]
      exact .nil
  | rel hlt =>
      rw [List.flatMap_cons, List.flatMap_cons]
      exact lex_utf8EncodeChar hlt _ _
  | cons _ ih =>
      rw [List.flatMap_cons, List.flatMap_cons]
      exact List.Lex.append_left _ ih _

theorem bytesBefore_of_lt {a b : String} (h : a < b) : BytesBefore a b := by
  rw [BytesBefore, data_toUTF8, data_toUTF8]
  exact lex_flatMap_utf8EncodeChar h

end ResourceLanguage.Text

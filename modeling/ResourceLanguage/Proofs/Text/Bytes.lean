import Mathlib.Data.List.Forall2
import ResourceLanguage.Proofs.Text.Encoding
import ResourceLanguage.Proofs.Text.Position

/-!
Texts as bytes. A line feed is one byte that no other character has a part in, so blanking a line
can be told byte by byte; an offset is a place between two characters when it is the size of a front
part.
-/

namespace ResourceLanguage.Text

theorem lineFeed_eq_ofNat_iff (n : Nat) : 10 = UInt8.ofNat n ↔ n % 256 = 10 := by
  rw [← UInt8.toNat_inj, UInt8.toNat_ofNat']
  exact eq_comm

/-- The byte of the line feed has no part in any other character. -/
theorem lineFeed_notMem_utf8EncodeChar {c : Char} (hc : c ≠ '\n') :
    10 ∉ String.utf8EncodeChar c := by
  have hval : c.val.toNat ≠ 10 := fun h => hc (Char.ext (UInt32.toNat_inj.mp h))
  rw [String.utf8EncodeChar]
  generalize c.val.toNat = v at hval
  split
  · rw [List.mem_singleton, lineFeed_eq_ofNat_iff]
    omega
  · split
    · simp only [List.mem_cons, List.not_mem_nil, or_false, lineFeed_eq_ofNat_iff]
      omega
    · split
      all_goals
        simp only [List.mem_cons, List.not_mem_nil, or_false, lineFeed_eq_ofNat_iff]
        omega

/-- Byte by byte, every byte of a line but its line feed becomes a space. -/
theorem flatMap_utf8EncodeChar_blankLine (line : List Char) :
    (blankLine line).flatMap String.utf8EncodeChar =
      (line.flatMap String.utf8EncodeChar).map fun byte => if byte = 10 then 10 else 32 := by
  induction line with
  | nil => rfl
  | cons c line ih =>
      have hcons : blankLine (c :: line) =
          (if c = '\n' then ['\n'] else List.replicate c.utf8Size ' ') ++ blankLine line := rfl
      rw [hcons, List.flatMap_append, List.flatMap_cons, List.map_append, ih]
      congr 1
      split
      · rename_i hc
        rw [hc]
        rfl
      · rename_i hc
        have hleft : (List.replicate c.utf8Size ' ').flatMap String.utf8EncodeChar =
            List.replicate c.utf8Size 32 := by
          rw [List.flatMap_replicate]
          exact List.flatten_replicate_singleton
        rw [hleft, eq_comm, List.eq_replicate_iff, List.length_map, String.length_utf8EncodeChar]
        refine ⟨rfl, fun byte hbyte => ?_⟩
        obtain ⟨original, horiginal, rfl⟩ := List.mem_map.mp hbyte
        refine if_neg ?_
        rintro rfl
        exact lineFeed_notMem_utf8EncodeChar hc horiginal

/-- The bytes of a line feed stand in the same places. -/
def FeedsAlike (bytes bytes' : List UInt8) : Prop :=
  List.Forall₂ (fun byte byte' => byte' = 10 ↔ byte = 10) bytes bytes'

theorem feedsAlike_blankLine (line : List Char) :
    FeedsAlike (line.flatMap String.utf8EncodeChar)
      ((blankLine line).flatMap String.utf8EncodeChar) := by
  rw [flatMap_utf8EncodeChar_blankLine, FeedsAlike, List.forall₂_map_right_iff, List.forall₂_same]
  intro byte _
  split
  · rename_i hbyte
    simp [hbyte]
  · rename_i hbyte
    simp [hbyte]

theorem FeedsAlike.getElem?_iff {bytes bytes' : List UInt8} (h : FeedsAlike bytes bytes')
    (offset : Nat) : bytes'[offset]? = some 10 ↔ bytes[offset]? = some 10 := by
  induction h generalizing offset with
  | nil => exact Iff.rfl
  | cons hbyte _ ih =>
      cases offset with
      | zero => simpa using hbyte
      | succ offset => simpa using ih offset

theorem utf8ByteSize_eq_byteSize (text : String) : text.utf8ByteSize = byteSize text.toList := by
  have hsize (cs : List Char) : (cs.flatMap String.utf8EncodeChar).length = byteSize cs := by
    induction cs with
    | nil => rfl
    | cons c cs ih =>
        rw [List.flatMap_cons, List.length_append, String.length_utf8EncodeChar, ih, byteSize]
  rw [← hsize, ← data_toUTF8]
  rfl

/-- An offset between two characters. -/
theorem isValid_iff_exists_append {text : String} {offset : Nat} :
    String.Pos.Raw.IsValid text ⟨offset⟩ ↔
      ∃ front back, text.toList = front ++ back ∧ byteSize front = offset := by
  rw [String.Pos.Raw.isValid_iff_exists_append]
  constructor
  · rintro ⟨front, back, rfl, hoffset⟩
    refine ⟨front.toList, back.toList, String.toList_append, ?_⟩
    rw [← utf8ByteSize_eq_byteSize, ← String.byteIdx_rawEndPos, ← hoffset]
  · rintro ⟨front, back, htext, rfl⟩
    refine ⟨String.ofList front, String.ofList back, ?_, ?_⟩
    · rw [← String.ofList_append, ← htext, String.ofList_toList]
    · rw [String.Pos.Raw.ext_iff, String.byteIdx_rawEndPos, utf8ByteSize_eq_byteSize,
        String.toList_ofList]

end ResourceLanguage.Text

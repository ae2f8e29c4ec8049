import ResourceLanguage.Proofs.Resource.Restored
import ResourceLanguage.Text.Encoding

/-!
Two readings of a file: the analysis decodes it as far as it can and passes over a byte order
mark, a fix takes it as UTF-8 with all that it holds. Of a file in UTF-8 both see the same text,
up to the mark, and so both see the marker or neither does.
-/

namespace ResourceLanguage

open ResourceLanguage.Text

namespace Text

/-! ### First characters -/

theorem data_toUTF8 (text : String) :
    text.toUTF8.data.toList = text.toList.flatMap String.utf8EncodeChar := by
  conv_lhs => rw [← String.ofList_toList (s := text)]
  show (List.flatMap _ _).toByteArray.data.toList = _
  simp

theorem fromUTF8?_flatMap (cs : List Char) :
    String.fromUTF8? (cs.flatMap String.utf8EncodeChar).toByteArray = some (String.ofList cs) := by
  have h := fromUTF8?_toUTF8 (String.ofList cs)
  rwa [data_toUTF8, String.toList_ofList] at h

theorem utf8DecodeChar?_flatMap (c : Char) (cs : List Char) :
    (((c :: cs).flatMap String.utf8EncodeChar).toByteArray).utf8DecodeChar? 0 = some c := by
  rw [List.flatMap_cons, List.toByteArray_append]
  exact ByteArray.utf8DecodeChar?_utf8EncodeChar_append

theorem utf8DecodeChar?_of_invalid {byte : UInt8} (rest : List UInt8)
    (h : ByteArray.utf8DecodeChar?.parseFirstByte byte = .invalid) :
    (byte :: rest).toByteArray.utf8DecodeChar? 0 = none := by
  have hbyte (hsize : 0 < (byte :: rest).toByteArray.size) :
      (byte :: rest).toByteArray[0] = byte := by
    simp
  unfold ByteArray.utf8DecodeChar?
  split
  · rename_i hsize
    rw [← hbyte hsize] at h
    split
    · rfl
    all_goals
      rename_i hfirst
      rw [h] at hfirst
      cases hfirst
  · rfl

/-- No character begins with an invalid byte. -/
theorem ne_flatMap_of_invalid {byte : UInt8} (rest : List UInt8)
    (h : ByteArray.utf8DecodeChar?.parseFirstByte byte = .invalid) (cs : List Char) :
    byte :: rest ≠ cs.flatMap String.utf8EncodeChar := by
  intro heq
  cases cs with
  | nil => cases heq
  | cons c cs =>
      have hdecode := utf8DecodeChar?_flatMap c cs
      rw [← heq, utf8DecodeChar?_of_invalid rest h] at hdecode
      cases hdecode

def byteOrderMark : Char := '\ufeff'

/-- A text that begins with the bytes of the byte order mark begins with the mark. -/
theorem exists_of_byteOrderMark {cs : List Char} {rest : List UInt8}
    (h : 0xEF :: 0xBB :: 0xBF :: rest = cs.flatMap String.utf8EncodeChar) :
    ∃ tail, cs = byteOrderMark :: tail ∧ rest = tail.flatMap String.utf8EncodeChar := by
  have hmark : String.utf8EncodeChar byteOrderMark = [0xEF, 0xBB, 0xBF] := by decide
  have hsplit : 0xEF :: 0xBB :: 0xBF :: rest = String.utf8EncodeChar byteOrderMark ++ rest := by
    rw [hmark]
    rfl
  cases cs with
  | nil => cases h
  | cons c tail =>
      have hdecode := utf8DecodeChar?_flatMap c tail
      rw [← h, hsplit, List.toByteArray_append,
        ByteArray.utf8DecodeChar?_utf8EncodeChar_append, Option.some_inj] at hdecode
      subst hdecode
      rw [hsplit, List.flatMap_cons] at h
      exact ⟨tail, rfl, List.append_cancel_left h⟩

/-! ### The two readings -/

/-- A file in UTF-8 is decoded as its text, without a byte order mark in front. -/
theorem toList_of_fromUTF8? {content : List UInt8} {text : String}
    (h : String.fromUTF8? content.toByteArray = some text) :
    text.toList = (decodeLossy content).toList ∨
      text.toList = byteOrderMark :: (decodeLossy content).toList := by
  have hcontent := eq_toUTF8_of_fromUTF8? h
  rw [data_toUTF8] at hcontent
  cases hdetect : Encoding.detect content with
  | mk encoding bytes =>
      rw [decodeLossy, hdetect]
      unfold Encoding.detect at hdetect
      split at hdetect
      · obtain ⟨tail, htext, hrest⟩ := exists_of_byteOrderMark hcontent
        cases hdetect
        refine .inr ?_
        rw [htext, hrest]
        simp only [Encoding.decodeLossy, Encoding.decode?, fromUTF8?_flatMap, String.toList_ofList]
      · exact absurd hcontent (ne_flatMap_of_invalid _ rfl _)
      · exact absurd hcontent (ne_flatMap_of_invalid _ rfl _)
      · cases hdetect
        refine .inl ?_
        simp only [Encoding.decodeLossy, Encoding.decode?, h]

end Text

theorem hasMarker_of_fromUTF8? {content : List UInt8} {text : String}
    (h : String.fromUTF8? content.toByteArray = some text) :
    hasMarker (decodeLossy content) = hasMarker text := by
  rcases toList_of_fromUTF8? h with heq | heq
  · rw [hasMarker, hasMarker, heq]
  · rw [hasMarker, hasMarker, heq, occursIn]
    -- The marker does not begin with the byte order mark.
    have hfirst : markerToken.toList.isPrefixOf
        (byteOrderMark :: (decodeLossy content).toList) = false := rfl
    rw [hfirst, Bool.false_or]

end ResourceLanguage

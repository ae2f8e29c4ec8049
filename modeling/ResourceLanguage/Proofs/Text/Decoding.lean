import ResourceLanguage.Proofs.Text.Encoding
import ResourceLanguage.Proofs.Text.Utf8

/-!
Decoding inverts encoding. A source file may hold a text in one of three encodings with the byte
order mark in front that tells which, or in UTF-8 without a mark. Strict decoding gives back the
text of every such file and refuses all other files.
-/

namespace ResourceLanguage.Text

theorem mapM_id_eq_some_iff {α : Type} {found : List (Option α)} {values : List α} :
    found.mapM id = some values ↔ found = values.map some := by
  induction found generalizing values with
  | nil => cases values <;> simp
  | cons first found ih =>
      cases values with
      | nil => simp [Option.bind_eq_some_iff]
      | cons value values => simp [Option.bind_eq_some_iff, ih]

theorem mapM_id_eq_none_iff {α : Type} {found : List (Option α)} :
    found.mapM id = none ↔ none ∈ found := by
  induction found with
  | nil => simp
  | cons first found ih =>
      cases first with
      | none => simp
      | some value =>
          rw [List.mapM_cons, List.mem_cons, ← ih]
          cases found.mapM id <;> simp

namespace Encoding

/-- The bytes in front of a file that tell its encoding. -/
def mark : Encoding → List UInt8
  | .utf8 => [0xEF, 0xBB, 0xBF]
  | .utf16 .little => [0xFF, 0xFE]
  | .utf16 .big => [0xFE, 0xFF]

def encode (encoding : Encoding) (text : String) : List UInt8 :=
  match encoding with
  | .utf8 => text.toUTF8.data.toList
  | .utf16 order => encodeUtf16 order text.toList

theorem decode?_eq_some_iff {encoding : Encoding} {bytes : List UInt8} {text : String} :
    encoding.decode? bytes = some text ↔ bytes = encoding.encode text := by
  cases encoding with
  | utf8 =>
      constructor
      · exact eq_toUTF8_of_fromUTF8?
      · rintro rfl
        exact fromUTF8?_toUTF8 text
  | utf16 order =>
      have hdecode : decodeUtf16 order bytes = text.toList.map some ↔
          bytes = encodeUtf16 order text.toList :=
        ⟨eq_encodeUtf16_of_decodeUtf16, fun h => h ▸ decodeUtf16_encodeUtf16 text.toList⟩
      rw [decode?, encode, ← hdecode, ← mapM_id_eq_some_iff, Option.map_eq_some_iff]
      constructor
      · rintro ⟨cs, hcs, rfl⟩
        rwa [String.toList_ofList]
      · exact fun h => ⟨text.toList, h, String.ofList_toList⟩

/-! ### Byte order marks -/

@[simp] theorem detect_mark_append (encoding : Encoding) (bytes : List UInt8) :
    detect (encoding.mark ++ bytes) = (encoding, bytes) := by
  rcases encoding with _ | order
  · rfl
  · cases order <;> rfl

theorem detect_of_unmarked {content : List UInt8}
    (h : ∀ encoding : Encoding, ¬encoding.mark <+: content) :
    detect content = (.utf8, content) := by
  unfold detect
  split
  · exact absurd ⟨_, rfl⟩ (h .utf8)
  · exact absurd ⟨_, rfl⟩ (h (.utf16 .little))
  · exact absurd ⟨_, rfl⟩ (h (.utf16 .big))
  · rfl

/-- A text in UTF-8 begins with a byte order mark exactly when its first character is the mark. -/
theorem mark_prefix_encode_iff {text : String} :
    (∃ encoding : Encoding, encoding.mark <+: utf8.encode text) ↔
      text.toList.head? = some byteOrderMark := by
  rw [encode, data_toUTF8]
  constructor
  · rintro ⟨encoding, rest, hrest⟩
    rcases encoding with _ | order
    · obtain ⟨tail, htail, -⟩ := exists_of_byteOrderMark hrest
      rw [htail, List.head?_cons]
    · cases order with
      | little => exact absurd hrest (ne_flatMap_of_invalid _ rfl _)
      | big => exact absurd hrest (ne_flatMap_of_invalid _ rfl _)
  · intro hhead
    obtain ⟨tail, htail⟩ := List.head?_eq_some_iff.mp hhead
    refine ⟨.utf8, tail.flatMap String.utf8EncodeChar, ?_⟩
    rw [htail]
    rfl

end Encoding

/-! ### Strict decoding -/

section

variable {content bytes : List UInt8} {encoding : Encoding}
  (hdetect : Encoding.detect content = (encoding, bytes))
include hdetect

theorem decodeStrict_eq_ok_iff_of_detect {text : String} :
    decodeStrict content = .ok text ↔ bytes = encoding.encode text := by
  rw [← Encoding.decode?_eq_some_iff, decodeStrict, hdetect]
  cases hdecode : encoding.decode? bytes <;> simp [hdecode]

theorem decodeStrict_eq_error_iff_of_detect :
    decodeStrict content = .error encoding ↔ encoding.decode? bytes = none := by
  rw [decodeStrict, hdetect]
  cases hdecode : encoding.decode? bytes <;> simp [hdecode]

end

/-- A file holds a text: a byte order mark, and the text in the encoding that the mark tells, or the
text in UTF-8 alone, if that does not begin with a mark. -/
inductive Stores (text : String) : List UInt8 → Prop where
  | marked (encoding : Encoding) : Stores text (encoding.mark ++ encoding.encode text)
  | plain (unmarked : text.toList.head? ≠ some byteOrderMark) :
      Stores text (Encoding.utf8.encode text)

theorem Stores.decodeStrict {text : String} {content : List UInt8} (h : Stores text content) :
    decodeStrict content = .ok text := by
  cases h with
  | marked encoding =>
      exact (decodeStrict_eq_ok_iff_of_detect (Encoding.detect_mark_append _ _)).mpr rfl
  | plain unmarked =>
      have hmark := mt Encoding.mark_prefix_encode_iff.mp unmarked
      exact (decodeStrict_eq_ok_iff_of_detect
        (Encoding.detect_of_unmarked (not_exists.mp hmark))).mpr rfl

theorem stores_of_decodeStrict {text : String} {content : List UInt8}
    (h : decodeStrict content = .ok text) : Stores text content := by
  by_cases hmark : ∃ encoding : Encoding, encoding.mark <+: content
  · obtain ⟨encoding, bytes, rfl⟩ := hmark
    rw [decodeStrict_eq_ok_iff_of_detect (Encoding.detect_mark_append _ _)] at h
    rw [h]
    exact .marked encoding
  · rw [decodeStrict_eq_ok_iff_of_detect (Encoding.detect_of_unmarked (not_exists.mp hmark))] at h
    rw [h] at hmark ⊢
    exact .plain (mt Encoding.mark_prefix_encode_iff.mpr hmark)

/-! ### Errors -/

theorem decode?_utf8_eq_none_iff {bytes : List UInt8} :
    Encoding.utf8.decode? bytes = none ↔ none ∈ decodeUtf8 bytes := by
  rw [← mapM_id_eq_none_iff, Option.eq_none_iff_forall_ne_some, Option.eq_none_iff_forall_ne_some]
  constructor
  · intro h cs hcs
    rw [mapM_id_eq_some_iff] at hcs
    refine h (String.ofList cs) (Encoding.decode?_eq_some_iff.mpr ?_)
    rw [eq_flatMap_of_decodeUtf8 hcs, Encoding.encode, data_toUTF8, String.toList_ofList]
  · intro h text htext
    rw [Encoding.decode?_eq_some_iff, Encoding.encode, data_toUTF8] at htext
    refine h text.toList (mapM_id_eq_some_iff.mpr ?_)
    rw [htext, decodeUtf8_flatMap]

theorem decode?_utf16_eq_none_iff {order : ByteOrder} {bytes : List UInt8} :
    (Encoding.utf16 order).decode? bytes = none ↔
      bytes.length % 2 = 1 ∨ HasLoneSurrogate (order.units bytes) := by
  rw [Encoding.decode?, Option.map_eq_none_iff, mapM_id_eq_none_iff, none_mem_decodeUtf16_iff]

/-- Strict decoding inverts the four encodings of a text and accepts nothing else. After the mark of
UTF-16 exactly the sequences with an odd number of bytes or with a surrogate without its partner are
refused; after the mark of UTF-8, or without any mark, exactly those in which the tolerant reading
meets an error. -/
theorem decodeStrict_inverts_encodings (content : List UInt8) :
    (∀ text, decodeStrict content = .ok text ↔ Stores text content) ∧
    (∀ order bytes, content = (Encoding.utf16 order).mark ++ bytes →
      (decodeStrict content = .error (.utf16 order) ↔
        bytes.length % 2 = 1 ∨ HasLoneSurrogate (order.units bytes))) ∧
    (∀ bytes, content = Encoding.utf8.mark ++ bytes →
      (decodeStrict content = .error .utf8 ↔ none ∈ decodeUtf8 bytes)) ∧
    ((∀ encoding : Encoding, ¬encoding.mark <+: content) →
      (decodeStrict content = .error .utf8 ↔ none ∈ decodeUtf8 content)) := by
  refine ⟨fun text => ⟨stores_of_decodeStrict, Stores.decodeStrict⟩, ?_, ?_, ?_⟩
  · rintro order bytes rfl
    rw [decodeStrict_eq_error_iff_of_detect (Encoding.detect_mark_append _ _),
      decode?_utf16_eq_none_iff]
  · rintro bytes rfl
    rw [decodeStrict_eq_error_iff_of_detect (Encoding.detect_mark_append _ _),
      decode?_utf8_eq_none_iff]
  · intro hmark
    rw [decodeStrict_eq_error_iff_of_detect (Encoding.detect_of_unmarked hmark),
      decode?_utf8_eq_none_iff]

/-- A text with a character beyond the first plane and a second byte order mark, and files that
break off within a character or hold a part of one. -/
theorem decodeStrict_inverts_encodings_astral :
    let text := "\ufeffÄ😀"
    decodeStrict [0xFF, 0xFE, 0xFF, 0xFE, 0xC4, 0x00, 0x3D, 0xD8, 0x00, 0xDE] = .ok text ∧
      decodeStrict [0xFE, 0xFF, 0xFE, 0xFF, 0x00, 0xC4, 0xD8, 0x3D, 0xDE, 0x00] = .ok text ∧
      decodeStrict [0xEF, 0xBB, 0xBF, 0xEF, 0xBB, 0xBF, 0xC3, 0x84, 0xF0, 0x9F, 0x98, 0x80] =
        .ok text ∧
      decodeStrict [0xC3, 0x84, 0xF0, 0x9F, 0x98, 0x80] = .ok "Ä😀" ∧
      decodeStrict [0xFF, 0xFE, 0x3D, 0xD8, 0xC4, 0x00] = .error (.utf16 .little) ∧
      decodeStrict [0xFE, 0xFF, 0x00] = .error (.utf16 .big) ∧
      decodeStrict [0xEF, 0xBB, 0xBF, 0xC0, 0x80] = .error .utf8 ∧
      (∀ encoding : Encoding, ¬encoding.mark <+: [0x63, 0xFF]) ∧
      decodeStrict [0x63, 0xFF] = .error .utf8 := by
  intro text
  have hmark : ∀ encoding : Encoding, ¬encoding.mark <+: [0x63, 0xFF] := by
    rintro (_ | _ | _) <;> decide
  have hlittle : (Encoding.utf16 .little).mark ++ (Encoding.utf16 .little).encode text =
      [0xFF, 0xFE, 0xFF, 0xFE, 0xC4, 0x00, 0x3D, 0xD8, 0x00, 0xDE] := by decide +kernel
  have hbig : (Encoding.utf16 .big).mark ++ (Encoding.utf16 .big).encode text =
      [0xFE, 0xFF, 0xFE, 0xFF, 0x00, 0xC4, 0xD8, 0x3D, 0xDE, 0x00] := by decide +kernel
  have hlone : HasLoneSurrogate (ByteOrder.little.units [0x3D, 0xD8, 0xC4, 0x00]) :=
    .lead rfl rfl
  refine ⟨?_, ?_, ?_, ?_, ?_, ?_, ?_, hmark, ?_⟩
  · rw [← hlittle]
    exact ((decodeStrict_inverts_encodings _).1 text).mpr (.marked _)
  · rw [← hbig]
    exact ((decodeStrict_inverts_encodings _).1 text).mpr (.marked _)
  · exact ((decodeStrict_inverts_encodings _).1 text).mpr (.marked .utf8)
  · exact ((decodeStrict_inverts_encodings _).1 "Ä😀").mpr (.plain (by decide))
  · exact ((decodeStrict_inverts_encodings _).2.1 .little _ rfl).mpr (.inr hlone)
  · exact ((decodeStrict_inverts_encodings _).2.1 .big _ rfl).mpr (.inl rfl)
  · exact ((decodeStrict_inverts_encodings _).2.2.1 _ rfl).mpr (by decide +kernel)
  · exact ((decodeStrict_inverts_encodings _).2.2.2 hmark).mpr (by decide +kernel)

end ResourceLanguage.Text

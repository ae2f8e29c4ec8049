import Mathlib.Tactic.SplitIfs
import ResourceLanguage.Proofs.Text.Utf16
import ResourceLanguage.Text.Utf8

/-!
Texts in UTF-8, byte by byte. A first byte and the bytes after it are accepted exactly when they
encode a character, so the tolerant reading meets no error exactly on the bytes of a text.
-/

namespace ResourceLanguage.Text

/-! ### Bytes after the first -/

theorem readContinuation_zero_iff {payload low high value : Nat} {bytes rest : List UInt8} :
    readContinuation payload low high 0 bytes = (some value, rest) ↔
      ∃ byte, bytes = byte :: rest ∧ low ≤ byte.toNat ∧ byte.toNat ≤ high ∧
        value = payload * 64 + (byte.toNat - 0x80) := by
  cases bytes with
  | nil => simp [readContinuation]
  | cons byte bytes =>
      rw [readContinuation]
      grind

theorem readContinuation_succ_iff {payload low high more value : Nat} {bytes rest : List UInt8} :
    readContinuation payload low high (more + 1) bytes = (some value, rest) ↔
      ∃ byte bytes', bytes = byte :: bytes' ∧ low ≤ byte.toNat ∧ byte.toNat ≤ high ∧
        readContinuation (payload * 64 + (byte.toNat - 0x80)) 0x80 0xBF more bytes' =
          (some value, rest) := by
  cases bytes with
  | nil => simp [readContinuation]
  | cons byte bytes =>
      rw [readContinuation]
      grind

/-! ### The bytes of a character -/

section

variable {value : Nat} {first second third fourth : UInt8}

theorem exists_byte (n : Nat) (h : n < 0x100) : ∃ byte : UInt8, byte.toNat = n :=
  ⟨UInt8.ofNat n, UInt8.toNat_ofNat_of_lt' h⟩

theorem ofNat_eq_iff {n : Nat} (h : n < 0x100) : UInt8.ofNat n = first ↔ first.toNat = n := by
  rw [← UInt8.toNat_inj, UInt8.toNat_ofNat_of_lt' h, eq_comm]

theorem utf8EncodeChar_eq_one_iff (h : value < 0x80) :
    String.utf8EncodeChar (Char.ofNat value) = [first] ↔ first.toNat = value := by
  have hvalue : (Char.ofNat value).val.toNat = value := toNat_ofNat (.inl (by omega))
  rw [String.utf8EncodeChar, hvalue, if_pos (by omega)]
  simp (disch := omega) only [List.cons.injEq, and_true, ofNat_eq_iff]

theorem utf8EncodeChar_eq_two_iff (hlow : 0x80 ≤ value) (hhigh : value < 0x800) :
    String.utf8EncodeChar (Char.ofNat value) = [first, second] ↔
      first.toNat = value / 64 + 0xC0 ∧ second.toNat = value % 64 + 0x80 := by
  have hvalue : (Char.ofNat value).val.toNat = value := toNat_ofNat (.inl (by omega))
  rw [String.utf8EncodeChar, hvalue, if_neg (by omega), if_pos (by omega)]
  simp (disch := omega) only [List.cons.injEq, and_true, ofNat_eq_iff, Nat.mod_eq_of_lt]

theorem utf8EncodeChar_eq_three_iff (hvalid : value.isValidChar) (hlow : 0x800 ≤ value)
    (hhigh : value < 0x10000) :
    String.utf8EncodeChar (Char.ofNat value) = [first, second, third] ↔
      first.toNat = value / 4096 + 0xE0 ∧ second.toNat = value / 64 % 64 + 0x80 ∧
        third.toNat = value % 64 + 0x80 := by
  have hvalue : (Char.ofNat value).val.toNat = value := toNat_ofNat hvalid
  rw [String.utf8EncodeChar, hvalue, if_neg (by omega), if_neg (by omega), if_pos (by omega)]
  simp (disch := omega) only [List.cons.injEq, and_true, ofNat_eq_iff, Nat.mod_eq_of_lt]

theorem utf8EncodeChar_eq_four_iff (hlow : 0x10000 ≤ value) (hhigh : value < 0x110000) :
    String.utf8EncodeChar (Char.ofNat value) = [first, second, third, fourth] ↔
      first.toNat = value / 262144 + 0xF0 ∧ second.toNat = value / 4096 % 64 + 0x80 ∧
        third.toNat = value / 64 % 64 + 0x80 ∧ fourth.toNat = value % 64 + 0x80 := by
  have hvalue : (Char.ofNat value).val.toNat = value :=
    toNat_ofNat (.inr ⟨by omega, by omega⟩)
  rw [String.utf8EncodeChar, hvalue, if_neg (by omega), if_neg (by omega), if_neg (by omega)]
  simp (disch := omega) only [List.cons.injEq, and_true, ofNat_eq_iff, Nat.mod_eq_of_lt]

end

/-! ### First bytes -/

namespace Utf8Lead

variable {byte : Nat}

theorem ofByte?_two (hlow : 0xC2 ≤ byte) (hhigh : byte ≤ 0xDF) :
    ofByte? byte = some ⟨byte - 0xC0, 0x80, 0xBF, 0⟩ := by
  simp [ofByte?, hlow, hhigh]

theorem ofByte?_three (hlow : 0xE0 ≤ byte) (hhigh : byte ≤ 0xEF) :
    ofByte? byte = some ⟨byte - 0xE0, if byte = 0xE0 then 0xA0 else 0x80,
      if byte = 0xED then 0x9F else 0xBF, 1⟩ := by
  obtain rfl | rfl | ⟨hoverlong, hsurrogate⟩ :
      byte = 0xE0 ∨ byte = 0xED ∨ byte ≠ 0xE0 ∧ byte ≠ 0xED := by omega
  · rfl
  · rfl
  · have hlow' : 0xE1 ≤ byte := by omega
    have htwo : ¬byte ≤ 0xDF := by omega
    simp [ofByte?, htwo, hoverlong, hsurrogate, hlow', hhigh]

theorem ofByte?_four (hlow : 0xF0 ≤ byte) (hhigh : byte ≤ 0xF4) :
    ofByte? byte = some ⟨byte - 0xF0, if byte = 0xF0 then 0x90 else 0x80,
      if byte = 0xF4 then 0x8F else 0xBF, 2⟩ := by
  have hbyte : byte = 0xF0 ∨ byte = 0xF1 ∨ byte = 0xF2 ∨ byte = 0xF3 ∨ byte = 0xF4 := by omega
  rcases hbyte with rfl | rfl | rfl | rfl | rfl <;> rfl

/-- The first bytes of characters of two, three and four bytes. -/
theorem of_ofByte? {lead : Utf8Lead} (h : ofByte? byte = some lead) :
    0xC2 ≤ byte ∧ byte ≤ 0xDF ∨ 0xE0 ≤ byte ∧ byte ≤ 0xEF ∨ 0xF0 ≤ byte ∧ byte ≤ 0xF4 := by
  unfold ofByte? at h
  simp only [Bool.and_eq_true, decide_eq_true_eq] at h
  split_ifs at h <;> omega

end Utf8Lead

/-- What a first byte announces and the bytes after it bear out is a character, and these are its
bytes. -/
theorem eq_utf8EncodeChar_of_lead {byte : UInt8} {bytes rest : List UInt8} {lead : Utf8Lead}
    {value : Nat} (hlead : Utf8Lead.ofByte? byte.toNat = some lead)
    (hread : readContinuation lead.payload lead.low lead.high lead.more bytes =
      (some value, rest)) :
    byte :: bytes = String.utf8EncodeChar (Char.ofNat value) ++ rest := by
  rcases Utf8Lead.of_ofByte? hlead with ⟨hlow, hhigh⟩ | ⟨hlow, hhigh⟩ | ⟨hlow, hhigh⟩
  · rw [Utf8Lead.ofByte?_two hlow hhigh, Option.some_inj] at hlead
    subst hlead
    obtain ⟨second, rfl, hsecond, hsecond', hvalue⟩ := readContinuation_zero_iff.mp hread
    dsimp only at hsecond hsecond' hvalue
    have hbytes : String.utf8EncodeChar (Char.ofNat value) = [byte, second] :=
      (utf8EncodeChar_eq_two_iff (by omega) (by omega)).mpr ⟨by omega, by omega⟩
    rw [hbytes]
    rfl
  · rw [Utf8Lead.ofByte?_three hlow hhigh, Option.some_inj] at hlead
    subst hlead
    obtain ⟨second, bytes, rfl, hsecond, hsecond', hread⟩ := readContinuation_succ_iff.mp hread
    obtain ⟨third, rfl, hthird, hthird', hvalue⟩ := readContinuation_zero_iff.mp hread
    dsimp only at hsecond hsecond' hvalue
    have hvalid : value.isValidChar := by
      unfold Nat.isValidChar
      split at hsecond' <;> omega
    have hbytes : String.utf8EncodeChar (Char.ofNat value) = [byte, second, third] :=
      (utf8EncodeChar_eq_three_iff hvalid (by split at hsecond <;> omega)
        (by split at hsecond' <;> omega)).mpr
          (by split at hsecond <;> split at hsecond' <;> omega)
    rw [hbytes]
    rfl
  · rw [Utf8Lead.ofByte?_four hlow hhigh, Option.some_inj] at hlead
    subst hlead
    obtain ⟨second, bytes, rfl, hsecond, hsecond', hread⟩ := readContinuation_succ_iff.mp hread
    obtain ⟨third, bytes, rfl, hthird, hthird', hread⟩ := readContinuation_succ_iff.mp hread
    obtain ⟨fourth, rfl, hfourth, hfourth', hvalue⟩ := readContinuation_zero_iff.mp hread
    dsimp only at hsecond hsecond' hvalue
    have hbytes : String.utf8EncodeChar (Char.ofNat value) = [byte, second, third, fourth] :=
      (utf8EncodeChar_eq_four_iff (by split at hsecond <;> omega)
        (by split at hsecond' <;> omega)).mpr
          (by split at hsecond <;> split at hsecond' <;> omega)
    rw [hbytes]
    rfl

/-- The bytes of a character beyond the seven-bit ones: the first announces the others, and these
bear it out. -/
theorem exists_lead_of_utf8EncodeChar {value : Nat} (hvalid : value.isValidChar)
    (hlarge : 0x80 ≤ value) (rest : List UInt8) :
    ∃ byte bytes lead, String.utf8EncodeChar (Char.ofNat value) ++ rest = byte :: bytes ∧
      0x80 ≤ byte.toNat ∧ Utf8Lead.ofByte? byte.toNat = some lead ∧
      readContinuation lead.payload lead.low lead.high lead.more bytes = (some value, rest) := by
  have htop : value < 0x110000 := by
    unfold Nat.isValidChar at hvalid
    omega
  by_cases htwo : value < 0x800
  · obtain ⟨first, hfirst⟩ := exists_byte (value / 64 + 0xC0) (by omega)
    obtain ⟨second, hsecond⟩ := exists_byte (value % 64 + 0x80) (by omega)
    rw [(utf8EncodeChar_eq_two_iff hlarge htwo).mpr ⟨hfirst, hsecond⟩]
    refine ⟨_, _, _, rfl, by omega, Utf8Lead.ofByte?_two (by omega) (by omega), ?_⟩
    dsimp only
    exact readContinuation_zero_iff.mpr ⟨second, rfl, by omega, by omega, by omega⟩
  by_cases hthree : value < 0x10000
  · obtain ⟨first, hfirst⟩ := exists_byte (value / 4096 + 0xE0) (by omega)
    obtain ⟨second, hsecond⟩ := exists_byte (value / 64 % 64 + 0x80) (by omega)
    obtain ⟨third, hthird⟩ := exists_byte (value % 64 + 0x80) (by omega)
    rw [(utf8EncodeChar_eq_three_iff hvalid (by omega) hthree).mpr ⟨hfirst, hsecond, hthird⟩]
    refine ⟨_, _, _, rfl, by omega, Utf8Lead.ofByte?_three (by omega) (by omega), ?_⟩
    dsimp only
    unfold Nat.isValidChar at hvalid
    refine readContinuation_succ_iff.mpr ⟨second, _, rfl, ?_, ?_, ?_⟩
    · split <;> omega
    · split <;> omega
    · exact readContinuation_zero_iff.mpr ⟨third, rfl, by omega, by omega, by omega⟩
  · obtain ⟨first, hfirst⟩ := exists_byte (value / 262144 + 0xF0) (by omega)
    obtain ⟨second, hsecond⟩ := exists_byte (value / 4096 % 64 + 0x80) (by omega)
    obtain ⟨third, hthird⟩ := exists_byte (value / 64 % 64 + 0x80) (by omega)
    obtain ⟨fourth, hfourth⟩ := exists_byte (value % 64 + 0x80) (by omega)
    rw [(utf8EncodeChar_eq_four_iff (by omega) htop).mpr ⟨hfirst, hsecond, hthird, hfourth⟩]
    refine ⟨_, _, _, rfl, by omega, Utf8Lead.ofByte?_four (by omega) (by omega), ?_⟩
    dsimp only
    refine readContinuation_succ_iff.mpr ⟨second, _, rfl, ?_, ?_, ?_⟩
    · split <;> omega
    · split <;> omega
    · refine readContinuation_succ_iff.mpr ⟨third, _, rfl, by omega, by omega, ?_⟩
      exact readContinuation_zero_iff.mpr ⟨fourth, rfl, by omega, by omega, by omega⟩

/-! ### Reading what was written -/

theorem decodeUtf8_utf8EncodeChar (c : Char) (rest : List UInt8) :
    decodeUtf8 (String.utf8EncodeChar c ++ rest) = some c :: decodeUtf8 rest := by
  obtain ⟨value, hvalid, rfl⟩ : ∃ value : Nat, value.isValidChar ∧ c = Char.ofNat value :=
    ⟨c.toNat, c.valid, (Char.ofNat_toNat c).symm⟩
  by_cases hsmall : value < 0x80
  · obtain ⟨first, hfirst⟩ := exists_byte value (by omega)
    rw [(utf8EncodeChar_eq_one_iff hsmall).mpr hfirst, List.singleton_append, decodeUtf8, hfirst,
      if_pos hsmall]
  · obtain ⟨byte, bytes, lead, hbytes, hbyte, hlead, hread⟩ :=
      exists_lead_of_utf8EncodeChar hvalid (Nat.le_of_not_lt hsmall) rest
    rw [hbytes, decodeUtf8, if_neg (by omega), hlead]
    dsimp only
    rw [hread]
    rfl

theorem decodeUtf8_flatMap (text : List Char) :
    decodeUtf8 (text.flatMap String.utf8EncodeChar) = text.map some := by
  induction text with
  | nil => simp [decodeUtf8]
  | cons c text ih => rw [List.flatMap_cons, decodeUtf8_utf8EncodeChar, ih, List.map_cons]

/-- What reads without an error was written from the text it reads as. -/
theorem eq_flatMap_of_decodeUtf8 {bytes : List UInt8} {text : List Char}
    (h : decodeUtf8 bytes = text.map some) : bytes = text.flatMap String.utf8EncodeChar := by
  fun_induction decodeUtf8 bytes generalizing text with
  | case1 =>
      obtain rfl := List.map_eq_nil_iff.mp h.symm
      rfl
  | case2 byte rest hbyte =>
      rename_i ih
      cases text with
      | nil => cases h
      | cons c text =>
          rw [List.map_cons, List.cons.injEq, Option.some_inj] at h
          obtain ⟨rfl, h⟩ := h
          rw [List.flatMap_cons, (utf8EncodeChar_eq_one_iff hbyte).mpr rfl, ← ih h]
          rfl
  | case3 byte rest hbyte hlead => cases text <;> simp at h
  | case4 byte rest hbyte lead hlead =>
      rename_i ih
      cases text with
      | nil => cases h
      | cons c text =>
          rw [List.map_cons, List.cons.injEq, Option.map_eq_some_iff] at h
          obtain ⟨⟨value, hvalue, rfl⟩, h⟩ := h
          rw [List.flatMap_cons, ← ih h]
          exact eq_utf8EncodeChar_of_lead hlead (Prod.ext hvalue rfl)

end ResourceLanguage.Text

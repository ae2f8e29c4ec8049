/-!
Reading bytes as UTF-8. Ill-formed input is cut into the longest pieces that could have begun a
character, and each such piece is one error.
-/

namespace ResourceLanguage.Text

/-- What a first byte announces: its share of the code point, the range of the byte after it, and
how many more bytes follow that one. -/
structure Utf8Lead where
  payload : Nat
  low : Nat
  high : Nat
  more : Nat
  deriving DecidableEq, Repr

/-- The first bytes of characters of two, three and four bytes. The range of the second byte
excludes overlong forms, surrogates and what lies beyond the last code point. -/
def Utf8Lead.ofByte? (byte : Nat) : Option Utf8Lead :=
  if 0xC2 ≤ byte && byte ≤ 0xDF then some ⟨byte - 0xC0, 0x80, 0xBF, 0⟩
  else if byte = 0xE0 then some ⟨0, 0xA0, 0xBF, 1⟩
  else if byte = 0xED then some ⟨0xD, 0x80, 0x9F, 1⟩
  else if 0xE1 ≤ byte && byte ≤ 0xEF then some ⟨byte - 0xE0, 0x80, 0xBF, 1⟩
  else if byte = 0xF0 then some ⟨0, 0x90, 0xBF, 2⟩
  else if 0xF1 ≤ byte && byte ≤ 0xF3 then some ⟨byte - 0xF0, 0x80, 0xBF, 2⟩
  else if byte = 0xF4 then some ⟨4, 0x80, 0x8F, 2⟩
  else none

/-- Reads continuation bytes: one in the given range, then `more` in the full range. Stops in
front of a byte that does not fit. -/
def readContinuation (payload low high : Nat) : Nat → List UInt8 → Option Nat × List UInt8
  | _, [] => (none, [])
  | 0, byte :: rest =>
      if low ≤ byte.toNat && byte.toNat ≤ high then
        (some (payload * 64 + (byte.toNat - 0x80)), rest)
      else (none, byte :: rest)
  | more + 1, byte :: rest =>
      if low ≤ byte.toNat && byte.toNat ≤ high then
        readContinuation (payload * 64 + (byte.toNat - 0x80)) 0x80 0xBF more rest
      else (none, byte :: rest)

theorem length_readContinuation_le (payload low high more : Nat) (bytes : List UInt8) :
    (readContinuation payload low high more bytes).2.length ≤ bytes.length := by
  fun_induction readContinuation payload low high more bytes <;> simp_all
  omega

/-- The characters and the errors of a text, in order. -/
def decodeUtf8 : List UInt8 → List (Option Char)
  | [] => []
  | byte :: rest =>
      if byte.toNat < 0x80 then some (Char.ofNat byte.toNat) :: decodeUtf8 rest
      else
        match Utf8Lead.ofByte? byte.toNat with
        | none => none :: decodeUtf8 rest
        | some lead =>
            (readContinuation lead.payload lead.low lead.high lead.more rest).1.map Char.ofNat ::
              decodeUtf8 (readContinuation lead.payload lead.low lead.high lead.more rest).2
termination_by bytes => bytes.length
decreasing_by
  · simp
  · simp
  · exact Nat.lt_succ_of_le (length_readContinuation_le _ _ _ _ _)

end ResourceLanguage.Text

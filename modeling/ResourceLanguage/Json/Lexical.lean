import ResourceLanguage.Text.Span

/-!
The small parts of JSON texts: blanks, words, strings and numbers. A reader returns what is left
of the text, which is shorter.
-/

namespace ResourceLanguage.Json

open ResourceLanguage.Text

/-- Why a text is refused: it ends too early, it is no JSON, or it is JSON but not what is
wanted. -/
inductive Fault where
  | incomplete
  | malformed
  | unfit
  deriving DecidableEq, Repr

abbrev Shorter (cs : List Char) := { rest : List Char // rest.length < cs.length }

/-- What is read off the front of a text, and the rest. -/
abbrev Reading (α : Type) (cs : List Char) := Except Fault (α × Shorter cs)

def isJsonBlank (c : Char) : Bool := c = ' ' || c = '\n' || c = '\t' || c = '\r'

def skipBlanks (cs : List Char) : List Char := cs.dropWhile isJsonBlank

theorem length_skipBlanks_le (cs : List Char) : (skipBlanks cs).length ≤ cs.length :=
  (List.dropWhile_suffix _).length_le

theorem length_lt_of_skipBlanks {cs : List Char} {c : Char} {rest : List Char}
    (h : skipBlanks cs = c :: rest) : rest.length < cs.length := by
  have := length_skipBlanks_le cs
  rw [h] at this
  exact this

/-- What is left after something that some blanks and a character stand before. -/
def Shorter.ofSkipBlanks {cs : List Char} {c : Char} {rest : List Char}
    (h : skipBlanks cs = c :: rest) (last : Shorter rest) : Shorter cs :=
  ⟨last.1, Nat.lt_trans last.2 (length_lt_of_skipBlanks h)⟩

def hexDigit? (c : Char) : Option Nat :=
  if '0' ≤ c && c ≤ '9' then some (c.toNat - 0x30)
  else if 'a' ≤ c && c ≤ 'f' then some (c.toNat - 0x61 + 10)
  else if 'A' ≤ c && c ≤ 'F' then some (c.toNat - 0x41 + 10)
  else none

def readHex (cs : List Char) : Reading Nat cs :=
  if byteSize cs < 4 then .error .incomplete
  else
    match cs with
    | a :: b :: c :: d :: rest =>
        match hexDigit? a, hexDigit? b, hexDigit? c, hexDigit? d with
        | some a, some b, some c, some d =>
            .ok (((a * 16 + b) * 16 + c) * 16 + d, ⟨rest, by simp; omega⟩)
        | _, _, _, _ => .error .malformed
    | _ => .error .malformed

def readTrailSurrogate (lead : Nat) (cs : List Char) : Reading Char cs :=
  match cs with
  | [] => .error .incomplete
  | '\\' :: [] => .error .incomplete
  | '\\' :: 'u' :: rest => do
      let (trail, rest) ← readHex rest
      if 0xDC00 ≤ trail && trail ≤ 0xDFFF then
        return (Char.ofNat (0x10000 + (lead - 0xD800) * 0x400 + (trail - 0xDC00)),
          ⟨rest.1, by have := rest.2; simp; omega⟩)
      else .error .malformed
  | _ => .error .malformed

/-- Reads an escape after its backslash. Where the text does not matter, `strict` is off and a
surrogate needs no partner. -/
def readEscape (strict : Bool) (cs : List Char) : Reading Char cs :=
  match cs with
  | [] => .error .incomplete
  | '"' :: rest => .ok ('"', ⟨rest, by simp⟩)
  | '\\' :: rest => .ok ('\\', ⟨rest, by simp⟩)
  | '/' :: rest => .ok ('/', ⟨rest, by simp⟩)
  | 'b' :: rest => .ok ('\x08', ⟨rest, by simp⟩)
  | 'f' :: rest => .ok ('\x0c', ⟨rest, by simp⟩)
  | 'n' :: rest => .ok ('\n', ⟨rest, by simp⟩)
  | 'r' :: rest => .ok ('\r', ⟨rest, by simp⟩)
  | 't' :: rest => .ok ('\t', ⟨rest, by simp⟩)
  | 'u' :: rest => do
      let (unit, rest) ← readHex rest
      if strict && 0xD800 ≤ unit && unit ≤ 0xDBFF then
        let (c, after) ← readTrailSurrogate unit rest.1
        return (c, ⟨after.1, by have := rest.2; have := after.2; simp; omega⟩)
      else if strict && 0xDC00 ≤ unit && unit ≤ 0xDFFF then .error .malformed
      else return (Char.ofNat unit, ⟨rest.1, by have := rest.2; simp; omega⟩)
  | _ => .error .malformed

/-- Reads a string after its opening quote. -/
def readString (strict : Bool) (cs : List Char) : Reading (List Char) cs :=
  match cs with
  | [] => .error .incomplete
  | '"' :: rest => .ok ([], ⟨rest, by simp⟩)
  | '\\' :: rest => do
      let (c, ⟨after, _⟩) ← readEscape strict rest
      let (text, last) ← readString strict after
      return (c :: text, ⟨last.1, by have := last.2; simp only [List.length_cons]; omega⟩)
  | c :: rest =>
      if c.toNat < 0x20 then .error .malformed
      else do
        let (text, last) ← readString strict rest
        return (c :: text, ⟨last.1, by have := last.2; simp only [List.length_cons]; omega⟩)
termination_by cs.length

/-- A number as it is written: its digits without a point, and the power of ten that they are
multiplied with. -/
structure Decimal where
  digits : List Char
  exponent : Int
  deriving DecidableEq, Repr

def digitsValue (digits : List Char) : Nat :=
  digits.foldl (fun value c => value * 10 + (c.toNat - 0x30)) 0

abbrev NotLonger (cs : List Char) := { rest : List Char // rest.length ≤ cs.length }

def takeDigits (cs : List Char) : List Char × NotLonger cs :=
  (cs.takeWhile Char.isDigit, ⟨cs.dropWhile Char.isDigit, (List.dropWhile_suffix _).length_le⟩)

def skipWord : List Char → (cs : List Char) → Except Fault (NotLonger cs)
  | [], cs => .ok ⟨cs, Nat.le_refl _⟩
  | _ :: _, [] => .error .incomplete
  | expected :: word, c :: cs =>
      if c = expected then do
        let rest ← skipWord word cs
        return ⟨rest.1, Nat.le_succ_of_le rest.2⟩
      else .error .malformed

/-- What is wrong where a digit is missing. `atEnd` is the fault of a text that ends there. -/
def missingDigit (atEnd : Fault) (cs : List Char) : Fault :=
  if cs.isEmpty then atEnd else .malformed

/-- Reads the digits of an exponent after its sign. -/
def readExponentDigits (atEnd : Fault) (sign : Int) (cs : List Char) :
    Except Fault (Int × NotLonger cs) :=
  let (digits, rest) := takeDigits cs
  if digits.isEmpty then .error (missingDigit atEnd rest.1)
  else .ok (sign * digitsValue digits, rest)

/-- Reads the exponent of a number, if there is one. -/
def readExponent (atEnd : Fault) (cs : List Char) : Except Fault (Int × NotLonger cs) :=
  match cs with
  | c :: d :: rest =>
      if c = 'e' || c = 'E' then
        if d = '-' || d = '+' then do
          let (exponent, rest) ← readExponentDigits atEnd (if d = '-' then -1 else 1) rest
          return (exponent, ⟨rest.1, by have := rest.2; simp only [List.length_cons]; omega⟩)
        else do
          let (exponent, rest) ← readExponentDigits atEnd 1 (d :: rest)
          return (exponent, ⟨rest.1, by have := rest.2; simp only [List.length_cons] at *; omega⟩)
      else .ok (0, ⟨c :: d :: rest, Nat.le_refl _⟩)
  | [c] => if c = 'e' || c = 'E' then .error atEnd else .ok (0, ⟨[c], Nat.le_refl _⟩)
  | [] => .ok (0, ⟨[], Nat.le_refl _⟩)

/-- Reads what follows the whole part of a number. -/
def readFraction (atEnd : Fault) (cs : List Char) :
    Except Fault (List Char × Int × NotLonger cs) :=
  match cs with
  | '.' :: rest => do
      let (fraction, ⟨rest, _⟩) := takeDigits rest
      if fraction.isEmpty then .error (missingDigit atEnd rest)
      else
        let (exponent, last) ← readExponent atEnd rest
        return (fraction, exponent - fraction.length,
          ⟨last.1, by have := last.2; simp only [List.length_cons]; omega⟩)
  | cs => do
      let (exponent, rest) ← readExponent atEnd cs
      return ([], exponent, rest)

/-- Reads a number after its sign. A zero in front stands alone. -/
def readNumber (atEnd : Fault) (cs : List Char) : Reading Decimal cs :=
  match cs with
  | [] => .error atEnd
  | c :: rest =>
      if c.isDigit then do
        let (more, ⟨rest, _⟩) := takeDigits rest
        if c = '0' && !more.isEmpty then .error .malformed
        else
          let (fraction, exponent, last) ← readFraction atEnd rest
          return (⟨c :: more ++ fraction, exponent⟩,
            ⟨last.1, by have := last.2; simp only [List.length_cons]; omega⟩)
      else .error .malformed

/-- Whether a number rounds to infinity in double precision. -/
def Decimal.isHuge (number : Decimal) : Bool :=
  let significant := number.digits.dropWhile (· = '0')
  let value := digitsValue significant
  let magnitude := significant.length + number.exponent
  let bound := Nat.pow 2 1024 - Nat.pow 2 970
  if significant.isEmpty || magnitude < 309 then false
  else if 309 < magnitude then true
  else bound * Nat.pow 10 (-number.exponent).toNat ≤ value * Nat.pow 10 number.exponent.toNat

end ResourceLanguage.Json

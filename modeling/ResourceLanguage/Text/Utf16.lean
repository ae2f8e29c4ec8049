/-!
Reading bytes as UTF-16 in either byte order.
-/

namespace ResourceLanguage.Text

inductive ByteOrder where
  | little
  | big
  deriving DecidableEq, Repr

def ByteOrder.unit (order : ByteOrder) (first second : UInt8) : Nat :=
  match order with
  | .little => first.toNat + 256 * second.toNat
  | .big => 256 * first.toNat + second.toNat

def ByteOrder.bytes (order : ByteOrder) (unit : Nat) : List UInt8 :=
  match order with
  | .little => [UInt8.ofNat unit, UInt8.ofNat (unit / 256)]
  | .big => [UInt8.ofNat (unit / 256), UInt8.ofNat unit]

def isLeadSurrogate (unit : Nat) : Bool := 0xD800 ≤ unit && unit < 0xDC00

def isTrailSurrogate (unit : Nat) : Bool := 0xDC00 ≤ unit && unit < 0xE000

def surrogatePair (lead trail : Nat) : Char :=
  Char.ofNat (0x10000 + (lead - 0xD800) * 0x400 + (trail - 0xDC00))

/-- The characters and the errors of a text, in order. A surrogate without its partner is an
error, and so is what is left at the end of the text of an unfinished character. -/
def decodeUtf16 (order : ByteOrder) : List UInt8 → List (Option Char)
  | [] => []
  | [_] => [none]
  | first :: second :: rest =>
      let unit := order.unit first second
      if isLeadSurrogate unit then
        match rest with
        | [] => [none]
        | [_] => [none]
        | third :: fourth :: more =>
            if isTrailSurrogate (order.unit third fourth) then
              some (surrogatePair unit (order.unit third fourth)) :: decodeUtf16 order more
            else none :: decodeUtf16 order (third :: fourth :: more)
      else if isTrailSurrogate unit then none :: decodeUtf16 order rest
      else some (Char.ofNat unit) :: decodeUtf16 order rest

def utf16Units (c : Char) : List Nat :=
  if c.toNat < 0x10000 then [c.toNat]
  else [0xD800 + (c.toNat - 0x10000) / 0x400, 0xDC00 + (c.toNat - 0x10000) % 0x400]

def encodeUtf16 (order : ByteOrder) (text : List Char) : List UInt8 :=
  text.flatMap fun c => (utf16Units c).flatMap order.bytes

end ResourceLanguage.Text

import ResourceLanguage.Text.Utf8
import ResourceLanguage.Text.Utf16

/-!
Decoding of files. A byte order mark selects the encoding; without one a file is UTF-8.
-/

namespace ResourceLanguage.Text

inductive Encoding where
  | utf8
  | utf16 (order : ByteOrder)
  deriving DecidableEq, Repr

namespace Encoding

def name : Encoding → String
  | .utf8 => "UTF-8"
  | .utf16 .little => "UTF-16LE"
  | .utf16 .big => "UTF-16BE"

/-- The encoding of a file, and its bytes after the byte order mark. -/
def detect : List UInt8 → Encoding × List UInt8
  | 0xEF :: 0xBB :: 0xBF :: rest => (.utf8, rest)
  | 0xFF :: 0xFE :: rest => (.utf16 .little, rest)
  | 0xFE :: 0xFF :: rest => (.utf16 .big, rest)
  | bytes => (.utf8, bytes)

/-- The text of some bytes, if they are well-formed. -/
def decode? (encoding : Encoding) (bytes : List UInt8) : Option String :=
  match encoding with
  | .utf8 => String.fromUTF8? bytes.toByteArray
  | .utf16 order => ((decodeUtf16 order bytes).mapM id).map String.ofList

def replacement : Char := Char.ofNat 0xFFFD

/-- The text of some bytes, with a replacement character for each error. -/
def decodeLossy (encoding : Encoding) (bytes : List UInt8) : String :=
  match encoding.decode? bytes with
  | some text => text
  | none =>
      let decoded :=
        match encoding with
        | .utf8 => decodeUtf8 bytes
        | .utf16 order => decodeUtf16 order bytes
      String.ofList (decoded.map (·.getD replacement))

end Encoding

/-- The text of a file, or the encoding that it fails to have. -/
def decodeStrict (content : List UInt8) : Except Encoding String :=
  let (encoding, bytes) := Encoding.detect content
  match encoding.decode? bytes with
  | some text => .ok text
  | none => .error encoding

/-- The text of a file as far as it can be read. -/
def decodeLossy (content : List UInt8) : String :=
  let (encoding, bytes) := Encoding.detect content
  encoding.decodeLossy bytes

end ResourceLanguage.Text

import CommandLine.Text.Utf8
import CommandLine.Text.Utf16

/-!
# Encodings of a text file

A file is read in the encoding that its byte order mark announces, and only without a mark in the
encoding that was configured.  The mark itself is not part of the text.
-/

namespace CommandLine.Text

inductive Encoding
  | utf8
  | utf16 (order : Utf16.ByteOrder)
  deriving DecidableEq, Repr, Inhabited

inductive DecodingError
  | utf8 (error : Utf8.Error)
  | utf16 (error : Utf16.Error)
  deriving DecidableEq, Repr

def DecodingError.message : DecodingError → String
  | .utf8 error => error.message
  | .utf16 error => error.message

namespace Encoding

def encode (encoding : Encoding) (cs : List Char) : List UInt8 :=
  match encoding with
  | .utf8 => Utf8.encode cs
  | .utf16 order => Utf16.encode order cs

/-- The encoding in effect, and the bytes after a byte order mark, if there is one. -/
def detect (configured : Encoding) : List UInt8 → Encoding × List UInt8
  | 0xEF :: 0xBB :: 0xBF :: rest => (.utf8, rest)
  | 0xFF :: 0xFE :: rest => (.utf16 .little, rest)
  | 0xFE :: 0xFF :: rest => (.utf16 .big, rest)
  | bytes => (configured, bytes)

/-- Reads bytes of one encoding, taking a mark for an ordinary character. -/
def decodePayload (encoding : Encoding) (bytes : List UInt8) : Except DecodingError (List Char) :=
  match encoding with
  | .utf8 => (Utf8.decode bytes).mapError .utf8
  | .utf16 order => (Utf16.decode order bytes).mapError .utf16

def decode (configured : Encoding) (bytes : List UInt8) : Except DecodingError (List Char) :=
  let (encoding, payload) := configured.detect bytes
  encoding.decodePayload payload

end Encoding

end CommandLine.Text

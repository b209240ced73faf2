import LineTokens.Encoding.Name
import LineTokens.Encoding.Utf8
import LineTokens.Encoding.Utf16
import LineTokens.Encoding.SingleByte

/-!
Decoding. A scan goes as far as the bytes are a text and says how it ended,
so that a caller who may get more bytes later can tell incomplete bytes at
the end from invalid ones. Strict decoding refuses both.
-/

namespace LineTokens

/-- How a scan ended. The error of an incomplete ending is the one to report
when no more bytes come. -/
inductive Scan.Ending where
  | complete
  | incomplete (error : DecodeError)
  | invalid (error : DecodeError)
  deriving DecidableEq, Repr

/-- The characters before the end of a scan, and its end. -/
structure Scan where
  text : List Char
  ending : Scan.Ending
  deriving DecidableEq, Repr

namespace Scan

def push (c : Char) (s : Scan) : Scan :=
  { s with text := c :: s.text }

/-- The text of data that are all there. -/
def strict (s : Scan) : Except DecodeError (List Char) :=
  match s.ending with
  | .complete => .ok s.text
  | .incomplete e | .invalid e => .error e

end Scan

namespace Encoding

/-- What stands at the front of a first byte and those after it. -/
def front (e : Encoding) (a : UInt8) (rest : List UInt8) : Front :=
  match e with
  | utf8 => Utf8.front a rest
  | ascii => Ascii.front a
  | latin1 => Latin1.front a
  | utf16le => Utf16.front a rest

/-- Scans bytes, the first of which stands at `offset` in the data. -/
def scan (e : Encoding) (offset : Nat) : List UInt8 → Scan
  | [] => ⟨[], .complete⟩
  | a :: rest =>
    match e.front a rest with
    | .char c tail => (e.scan (offset + 1 + tail) (rest.drop tail)).push c
    | .incomplete reason width =>
      ⟨[], .incomplete ⟨e.name, reason.text, offset, (a :: rest).take width⟩⟩
    | .invalid reason width =>
      ⟨[], .invalid ⟨e.name, reason.text, offset, (a :: rest).take width⟩⟩
termination_by bytes => bytes.length
decreasing_by
  simp only [List.length_drop, List.length_cons]
  omega

/-- Decodes data that are all there. -/
def decode (e : Encoding) (bytes : List UInt8) : Except DecodeError (List Char) :=
  (e.scan 0 bytes).strict

/-- What is decoded of data to which more may come: the characters so far, and
bytes at the end that have to wait for the others of their character. -/
structure Part where
  text : List Char
  held : List UInt8
  deriving DecidableEq, Repr

/-- Decodes data to which more may come. Only invalid bytes are an error. -/
def decodePart (e : Encoding) (bytes : List UInt8) : Except DecodeError Part :=
  let scan := e.scan 0 bytes
  match scan.ending with
  | .complete => .ok ⟨scan.text, []⟩
  | .incomplete error => .ok ⟨scan.text, bytes.drop error.offset⟩
  | .invalid error => .error error

end Encoding

/-- Why bytes cannot be read under an encoding name. The last one comes from
the decoder of another encoding, with a text of its own. -/
inductive ReadError where
  | undecodable (error : DecodeError)
  | unknownEncoding (name : String)
  | nullInName
  | refused (text : String)
  deriving DecidableEq, Repr

def ReadError.message : ReadError → String
  | undecodable error => error.message
  | unknownEncoding name => "unknown encoding: " ++ name
  | nullInName => "embedded null character"
  | refused text => text

/-- The encodings that are not modelled here: how the environment decodes bytes
that are asked for under a name of none of the four. A text has characters only,
so decoders that make halves of surrogate pairs are not meant. -/
structure Codecs where
  decode (name : String) (bytes : List UInt8) : Except ReadError (List Char)

/-- An environment without any other encodings. -/
def Codecs.none : Codecs where
  decode name _ := .error (.unknownEncoding name)

/-- Decodes bytes in the encoding that goes by `name`. No bytes at all are
the empty text under every name, known or not, that can be looked up. -/
def decodeNamed (codecs : Codecs) (name : String) (bytes : List UInt8) :
    Except ReadError (List Char) :=
  if '\x00' ∈ name.toList then .error .nullInName
  else if bytes = [] then .ok []
  else match Encoding.ofName? name with
  | some encoding => (encoding.decode bytes).mapError ReadError.undecodable
  | none => codecs.decode name bytes

end LineTokens

import LineTokens.Text.Hex

/-!
The encodings that byte streams may have, and the errors of strict decoding. A
decoder stops at the first byte that cannot be part of a text, and its error
says which bytes are to blame and why.
-/

namespace LineTokens

inductive Encoding where
  | utf8
  | ascii
  | latin1
  | utf16le
  deriving DecidableEq, Repr

namespace Encoding

/-- The name used in error texts. -/
def name : Encoding → String
  | utf8 => "utf-8"
  | ascii => "ascii"
  | latin1 => "latin-1"
  | utf16le => "utf-16-le"

end Encoding

namespace DecodeError

/-- Why bytes are no text in one of these encodings. The first three arise in
UTF-8, the fourth in ASCII, and UTF-16 has the last three and also
`unexpectedEnd`. -/
inductive Reason where
  | invalidStart
  | invalidContinuation
  | unexpectedEnd
  | outOfRange
  | truncated
  | illegalSurrogate
  | illegalEncoding
  deriving DecidableEq, Repr

def Reason.text : Reason → String
  | invalidStart => "invalid start byte"
  | invalidContinuation => "invalid continuation byte"
  | unexpectedEnd => "unexpected end of data"
  | outOfRange => "ordinal not in range(128)"
  | truncated => "truncated data"
  | illegalSurrogate => "illegal UTF-16 surrogate"
  | illegalEncoding => "illegal encoding"

end DecodeError

/-- The first place where strict decoding fails: the offending bytes, where
they start in the data, and what is wrong with them. The codec and the reason
are texts, since other decoders than those modelled here fail in this way too. -/
structure DecodeError where
  codec : String
  reason : String
  offset : Nat
  bytes : List UInt8
  deriving DecidableEq, Repr

namespace DecodeError

/-- Names the offending byte if it is one, and their first and last position
if they are several. -/
def place (e : DecodeError) : String :=
  match e.bytes with
  | [b] => s!"byte 0x{String.ofList (Hex.numeral 2 b.toNat)} in position {e.offset}"
  | bytes => s!"bytes in position {e.offset}-{e.offset + bytes.length - 1}"

def message (e : DecodeError) : String :=
  s!"'{e.codec}' codec can't decode {e.place}: {e.reason}"

end DecodeError

end LineTokens

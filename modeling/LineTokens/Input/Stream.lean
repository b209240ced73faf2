import LineTokens.Encoding.Decode
import LineTokens.Input.Line

/-!
Reading lines off a stream of characters or bytes. Bytes are cut into lines
before they are decoded, at the byte 0x0a, whatever the encoding; a line that
cannot be decoded is consumed all the same.
-/

namespace LineTokens

/-- What a stream still holds. -/
inductive Stream where
  | text (content : String)
  | bytes (content : List UInt8)
  deriving DecidableEq, Repr

namespace Stream

/-- Reads one line without its newline. The encoding name matters for bytes
only. At the end of the stream the line is empty. -/
def readLine (codecs : Codecs) (encoding : String) : Stream → Except ReadError String × Stream
  | .text content =>
    let cut := cutAfter '\n' content.toList
    (.ok (String.ofList (dropNewline cut.line)), .text (String.ofList cut.rest))
  | .bytes content =>
    let cut := cutAfter 0x0a content
    ((decodeNamed codecs encoding cut.line).map fun line => String.ofList (dropNewline line),
      .bytes cut.rest)

/-- Reads `count` lines one after another. -/
def readLines (codecs : Codecs) (encoding : String) :
    Nat → Stream → List (Except ReadError String) × Stream
  | 0, stream => ([], stream)
  | count + 1, stream =>
    let first := stream.readLine codecs encoding
    let others := readLines codecs encoding count first.2
    (first.1 :: others.1, others.2)

end Stream

end LineTokens

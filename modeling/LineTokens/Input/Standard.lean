import LineTokens.Encoding.Decode
import LineTokens.Input.Line

/-!
Reading the first line of standard input, which is UTF-8. Its bytes arrive in
chunks, and each chunk is decoded as a whole before a line is looked for in it.
So an invalid byte behind the first line is an error if it is in the same chunk
as the newline, and the chunks behind that one are not read at all. Bytes at the
end of a chunk that may still become a character are held back for the next one.
-/

namespace LineTokens

/-- Why no line can be read from standard input. The first three come from
the input itself, with a text of its own. -/
inductive ReadFailure where
  | interrupted (text : String)
  | broken (text : String)
  | refused (text : String)
  | undecodable (error : DecodeError)
  deriving DecidableEq, Repr

def ReadFailure.message : ReadFailure → String
  | interrupted text | broken text | refused text => text
  | undecodable error => error.message

/-- Standard input: what reads of it give one after another, or a failure of
every read. -/
inductive StandardInput where
  | chunks (contents : List (List UInt8))
  | failing (failure : ReadFailure)
  deriving DecidableEq, Repr

/-- A read gives so many bytes, if there are as many. -/
def chunkSize : Nat := 8192

/-- Cuts bytes into chunks of a size, the last of which may be smaller. No chunk
is empty, whatever the size. -/
def chunksOf (size : Nat) : List UInt8 → List (List UInt8)
  | [] => []
  | a :: rest => (a :: rest.take (size - 1)) :: chunksOf size (rest.drop (size - 1))
termination_by bytes => bytes.length
decreasing_by
  simp only [List.length_drop, List.length_cons]
  omega

namespace StandardInput

/-- Bytes that are all there from the start. -/
def bytes (content : List UInt8) : StandardInput :=
  .chunks (chunksOf chunkSize content)

/-- The rest of the first line with its newline, behind characters of it that
have been read before and bytes held back behind these. A read that gives no
bytes is the end of the input. -/
def readFrom (line : List Char) (held : List UInt8) :
    List (List UInt8) → Except DecodeError (List Char)
  | [] | [] :: _ => (Encoding.utf8.decode held).map (line ++ ·)
  | chunk :: others =>
    match Encoding.utf8.decodePart (held ++ chunk) with
    | .error e => .error e
    | .ok part =>
      if '\n' ∈ part.text then .ok (line ++ (cutAfter '\n' part.text).line)
      else readFrom (line ++ part.text) part.held others

/-- The first line without its newline, or the empty line if there is
nothing to read. -/
def readLine : StandardInput → Except ReadFailure String
  | .failing failure => .error failure
  | .chunks contents =>
    match readFrom [] [] contents with
    | .error e => .error (.undecodable e)
    | .ok line => .ok (String.ofList (dropNewline line))

end StandardInput

end LineTokens

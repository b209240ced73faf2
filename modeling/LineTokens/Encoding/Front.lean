import LineTokens.Encoding.Basic

/-!
What can stand at the front of some bytes. Each encoding is given by a
function that looks at a first byte and those after it and takes one
character off, or says why there is none; decoding repeats this to the end.
-/

namespace LineTokens

/-- What stands at the front of bytes: a character that takes the first byte
and `tail` more, or `width` bytes that are no character. Incomplete bytes are
those on which bytes to come may have a say; at the end of all data they are
an error like the invalid ones. -/
inductive Front where
  | char (c : Char) (tail : Nat)
  | incomplete (reason : DecodeError.Reason) (width : Nat)
  | invalid (reason : DecodeError.Reason) (width : Nat)
  deriving DecidableEq, Repr

end LineTokens

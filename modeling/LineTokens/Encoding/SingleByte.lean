import LineTokens.Encoding.Front

/-!
Encodings in which every byte is a character of its own: ASCII, which has the
bytes below 128 only, and Latin-1, which has them all.
-/

namespace LineTokens

def Ascii.front (a : UInt8) : Front :=
  if a < 0x80 then .char (Char.ofNat a.toNat) 0 else .invalid .outOfRange 1

/-- Every byte numbers its character. -/
def Latin1.front (a : UInt8) : Front :=
  .char (Char.ofNat a.toNat) 0

end LineTokens

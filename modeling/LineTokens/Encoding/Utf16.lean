import LineTokens.Encoding.Front

/-!
UTF-16 in little-endian byte order. A byte order mark is an ordinary
character.
-/

namespace LineTokens.Utf16

/-- The code unit of two bytes, low byte first. -/
def unit (low high : UInt8) : Nat :=
  low.toNat + 256 * high.toNat

abbrev IsHighSurrogate (u : Nat) : Prop := 0xD800 ≤ u ∧ u < 0xDC00

abbrev IsLowSurrogate (u : Nat) : Prop := 0xDC00 ≤ u ∧ u < 0xE000

/-- The first of the two units of a number beyond U+FFFF. -/
def highSurrogate (n : Nat) : Nat := 0xD800 + (n - 0x10000) / 0x400

/-- The second of the two units of a number beyond U+FFFF. -/
def lowSurrogate (n : Nat) : Nat := 0xDC00 + (n - 0x10000) % 0x400

/-- The character beyond U+FFFF that a pair of surrogates stands for. -/
def combine (high low : Nat) : Char :=
  Char.ofNat (0x10000 + (high - 0xD800) * 0x400 + (low - 0xDC00))

/-- The character at the front. A high surrogate with less than a whole unit
after it takes the rest of the data into the error. -/
def front (a : UInt8) : List UInt8 → Front
  | [] => .incomplete .truncated 1
  | b :: rest =>
    if IsLowSurrogate (unit a b) then .invalid .illegalEncoding 2
    else if IsHighSurrogate (unit a b) then
      match rest with
      | c :: d :: _ =>
        if IsLowSurrogate (unit c d) then .char (combine (unit a b) (unit c d)) 3
        else .invalid .illegalSurrogate 2
      | short => .incomplete .unexpectedEnd (2 + short.length)
    else .char (Char.ofNat (unit a b)) 1

end LineTokens.Utf16

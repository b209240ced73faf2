import LineTokens.Encoding.Front

/-!
UTF-8. Overlong forms, surrogates and values beyond U+10FFFF are ruled out by
the range of the second byte.
-/

namespace LineTokens.Utf8

/-- The least byte that may come second after a lead byte. -/
def leastSecond (lead : UInt8) : UInt8 :=
  if lead = 0xE0 then 0xA0 else if lead = 0xF0 then 0x90 else 0x80

/-- The greatest byte that may come second after a lead byte. -/
def greatestSecond (lead : UInt8) : UInt8 :=
  if lead = 0xED then 0x9F else if lead = 0xF4 then 0x8F else 0xBF

/-- The byte may come second after the lead byte. -/
abbrev IsSecond (lead b : UInt8) : Prop :=
  leastSecond lead ≤ b ∧ b ≤ greatestSecond lead

/-- The byte may come third or fourth. -/
abbrev IsContinuation (b : UInt8) : Prop :=
  0x80 ≤ b ∧ b ≤ 0xBF

/-- The bytes are the first two of an encoded surrogate. -/
abbrev StartsSurrogate (a b : UInt8) : Prop :=
  a = 0xED ∧ IsContinuation b

/-- The character whose high bits are `lead` and whose low bits are the low
six of each byte in `tail`. -/
def assemble (lead : Nat) (tail : List UInt8) : Char :=
  Char.ofNat (tail.foldl (fun n b => n * 64 + b.toNat % 64) lead)

/-- The character of three or four bytes at the front, after two bytes that
may start one. -/
def frontAfterTwo (a b : UInt8) : List UInt8 → Front
  | [] => .incomplete .unexpectedEnd 2
  | c :: rest =>
    if IsContinuation c then
      if a < 0xF0 then .char (assemble (a.toNat % 16) [b, c]) 2
      else match rest with
      | [] => .incomplete .unexpectedEnd 3
      | d :: _ =>
        if IsContinuation d then .char (assemble (a.toNat % 8) [b, c, d]) 3
        else .invalid .invalidContinuation 3
    else .invalid .invalidContinuation 2

/-- The character at the front. An encoded surrogate is no character whatever
its third byte, but it counts as incomplete while that byte is missing. -/
def front (a : UInt8) (rest : List UInt8) : Front :=
  if a < 0x80 then .char (assemble a.toNat []) 0
  else if a < 0xC2 ∨ 0xF4 < a then .invalid .invalidStart 1
  else match rest with
  | [] => .incomplete .unexpectedEnd 1
  | b :: rest =>
    if IsSecond a b then
      if a < 0xE0 then .char (assemble (a.toNat % 32) [b]) 1
      else frontAfterTwo a b rest
    else if StartsSurrogate a b ∧ rest = [] then .incomplete .invalidContinuation 1
    else .invalid .invalidContinuation 1

end LineTokens.Utf8

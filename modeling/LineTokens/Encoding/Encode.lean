import LineTokens.Encoding.Utf16

/-!
Encoding. A text is written character by character; ASCII and Latin-1 have only
some of the characters, and texts with others cannot be written in them.
-/

namespace LineTokens

namespace Utf16

/-- The bytes of a code unit, low byte first. -/
def unitBytes (u : Nat) : List UInt8 :=
  [UInt8.ofNat u, UInt8.ofNat (u / 256)]

/-- A character is one unit, or a pair of surrogates if it is beyond U+FFFF. -/
def encodeChar (c : Char) : List UInt8 :=
  if c.toNat < 0x10000 then unitBytes c.toNat
  else unitBytes (highSurrogate c.toNat) ++ unitBytes (lowSurrogate c.toNat)

end Utf16

namespace Encoding

/-- The bytes of a character, if the encoding has it. -/
def encodeChar? (e : Encoding) (c : Char) : Option (List UInt8) :=
  match e with
  | utf8 => some (String.utf8EncodeChar c)
  | ascii => if c.toNat < 0x80 then some [UInt8.ofNat c.toNat] else none
  | latin1 => if c.toNat < 0x100 then some [UInt8.ofNat c.toNat] else none
  | utf16le => some (Utf16.encodeChar c)

/-- The bytes of a text, if the encoding has all of its characters. -/
def encode? (e : Encoding) : List Char → Option (List UInt8)
  | [] => some []
  | c :: text =>
    match e.encodeChar? c, encode? e text with
    | some front, some rest => some (front ++ rest)
    | _, _ => none

theorem encode?_cons_eq_some_iff {e : Encoding} {c : Char} {text : List Char}
    {bytes : List UInt8} :
    e.encode? (c :: text) = some bytes ↔
      ∃ front rest, e.encodeChar? c = some front ∧ e.encode? text = some rest ∧
        front ++ rest = bytes := by
  rw [encode?]
  cases e.encodeChar? c <;> cases e.encode? text <;> simp

theorem encode?_append_eq_some_iff {e : Encoding} {text more : List Char} {bytes : List UInt8} :
    e.encode? (text ++ more) = some bytes ↔
      ∃ front rest, e.encode? text = some front ∧ e.encode? more = some rest ∧
        front ++ rest = bytes := by
  induction text generalizing bytes with
  | nil => simp [encode?]
  | cons c text ih =>
    simp only [List.cons_append, encode?_cons_eq_some_iff, ih]
    constructor
    · rintro ⟨front, _, hfront, ⟨middle, rest, hmiddle, hrest, rfl⟩, rfl⟩
      exact ⟨front ++ middle, rest, ⟨front, middle, hfront, hmiddle, rfl⟩, hrest,
        List.append_assoc _ _ _⟩
    · rintro ⟨_, rest, ⟨front, middle, hfront, hmiddle, rfl⟩, hrest, rfl⟩
      exact ⟨front, middle ++ rest, hfront, ⟨middle, rest, hmiddle, hrest, rfl⟩,
        (List.append_assoc _ _ _).symm⟩

end Encoding

end LineTokens

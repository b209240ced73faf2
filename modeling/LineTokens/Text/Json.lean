import LineTokens.Encoding.Utf16
import LineTokens.Text.Dialect

/-!
JSON texts for arrays of strings. They are written in printable ASCII: a
character beyond U+FFFF becomes a pair of UTF-16 surrogates, and a slash stays
plain. They are read in all of their spellings.
-/

namespace LineTokens.Json

/-- The escape of one UTF-16 code unit. -/
def escapeUnit (u : Nat) : List Char :=
  '\\' :: 'u' :: Hex.numeral 4 u

/-- The escape of a character by its number. -/
def escapeNumber (n : Nat) : List Char :=
  if n < 0x10000 then escapeUnit n
  else escapeUnit (Utf16.highSurrogate n) ++ escapeUnit (Utf16.lowSurrogate n)

/-- The form of one character in a string. -/
def escape (c : Char) : List Char :=
  if c = '"' ∨ c = '\\' then ['\\', c]
  else if c = '\n' then ['\\', 'n']
  else if c = '\r' then ['\\', 'r']
  else if c = '\t' then ['\\', 't']
  else if c = '\x0c' then ['\\', 'f']
  else if c = '\x08' then ['\\', 'b']
  else if ' ' ≤ c ∧ c ≤ '~' then [c]
  else escapeNumber c.toNat

/-- The JSON form of a string. -/
def ofString (s : String) : String :=
  String.ofList ('"' :: s.toList.flatMap escape ++ ['"'])

/-- The JSON form of an array of strings. -/
def ofList (items : List String) : String :=
  "[" ++ ", ".intercalate (items.map ofString) ++ "]"

/-! ### Reading -/

/-- The character of an escape of one letter. -/
def escapedLetter? : Char → Option Char
  | '"' => some '"'
  | '\\' => some '\\'
  | '/' => some '/'
  | 'b' => some '\x08'
  | 'f' => some '\x0c'
  | 'n' => some '\n'
  | 'r' => some '\r'
  | 't' => some '\t'
  | _ => none

/-- The low surrogate of an escaped code unit in front. -/
def escapedLow? : List Char → Option Nat
  | '\\' :: 'u' :: text => (Hex.front? 4 text).filter fun u => Utf16.IsLowSurrogate u
  | _ => none

/-- The character of an escaped code unit with its digits in front, and of the
unit behind it if the two are a pair of surrogates. A surrogate alone is none. -/
def escapedUnit? (text : List Char) : Option Spelled :=
  match Hex.front? 4 text with
  | none => none
  | some u =>
    if Utf16.IsLowSurrogate u then none
    else if Utf16.IsHighSurrogate u then
      (escapedLow? (text.drop 4)).map fun low => ⟨Utf16.combine u low, 11⟩
    else some ⟨Char.ofNat u, 5⟩

/-- The character in front, where controls have to be escaped. -/
def front? (first : Char) (rest : List Char) : Option Spelled :=
  if first < ' ' then none
  else if first = '\\' then
    match rest with
    | [] => none
    | 'u' :: text => escapedUnit? text
    | letter :: _ => (escapedLetter? letter).map (⟨·, 1⟩)
  else some ⟨first, 0⟩

def dialect : Dialect where
  quotes := ['"']
  front? := fun _ => front?
  quote_not_blank := by simp [blanks]
  quote_ne_bracket := by simp

/-- The strings of an array. -/
def read? (text : String) : Option (List String) :=
  dialect.read? text

end LineTokens.Json

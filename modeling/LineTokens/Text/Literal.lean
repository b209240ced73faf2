import LineTokens.Text.Dialect
import LineTokens.Text.Hex
import LineTokens.Text.Unprintable

/-!
Literals for strings and lists of strings, in which every character is either
printable and itself or escaped. A literal stands between single quotes,
except that double quotes spare the escapes of a string that has single
quotes and no double ones. Lists are read with either quotes and with escapes of
one letter or of a number that has a fixed width in hexadecimal.
-/

namespace LineTokens.Literal

/-- The quote around the literal of a string. -/
def delimiter (text : List Char) : Char :=
  if '\'' ∈ text ∧ '"' ∉ text then '"' else '\''

/-- The escape of a character by its number, as short as its size allows. -/
def escapeNumber (n : Nat) : List Char :=
  if n < 0x100 then '\\' :: 'x' :: Hex.numeral 2 n
  else if n < 0x10000 then '\\' :: 'u' :: Hex.numeral 4 n
  else '\\' :: 'U' :: Hex.numeral 8 n

/-- The form of one character between delimiters. -/
def escape (delim c : Char) : List Char :=
  if c = delim ∨ c = '\\' then ['\\', c]
  else if c = '\t' then ['\\', 't']
  else if c = '\n' then ['\\', 'n']
  else if c = '\r' then ['\\', 'r']
  else if Unprintable c then escapeNumber c.toNat
  else [c]

/-- The literal of a string. -/
def quote (text : List Char) : List Char :=
  let delim := delimiter text
  delim :: text.flatMap (escape delim) ++ [delim]

def ofString (s : String) : String :=
  String.ofList (quote s.toList)

/-- The literal of a list, its items between brackets and commas. -/
def ofList (items : List String) : String :=
  "[" ++ ", ".intercalate (items.map ofString) ++ "]"

/-! ### Reading -/

/-- The character of an escape of one letter. -/
def escapedLetter? : Char → Option Char
  | '\\' => some '\\'
  | '\'' => some '\''
  | '"' => some '"'
  | 'a' => some '\x07'
  | 'b' => some '\x08'
  | 'f' => some '\x0c'
  | 'n' => some '\n'
  | 'r' => some '\r'
  | 't' => some '\t'
  | 'v' => some '\x0b'
  | _ => none

/-- How many digits the number of an escape with this letter has. -/
def escapedWidth? : Char → Option Nat
  | 'x' => some 2
  | 'u' => some 4
  | 'U' => some 8
  | _ => none

/-- The character of an escape with its digits in front. A number that is no
character's is none. -/
def escapedNumber? (width : Nat) (text : List Char) : Option Spelled :=
  match Hex.front? width text with
  | none => none
  | some n => if n.isValidChar then some ⟨Char.ofNat n, width + 1⟩ else none

/-- The character in front, where a null and the ends of lines have to be
escaped. -/
def front? (first : Char) (rest : List Char) : Option Spelled :=
  if first ∈ ['\x00', '\n', '\r'] then none
  else if first = '\\' then
    match rest with
    | [] => none
    | letter :: text =>
      match escapedWidth? letter with
      | some width => escapedNumber? width text
      | none => (escapedLetter? letter).map (⟨·, 1⟩)
  else some ⟨first, 0⟩

def dialect : Dialect where
  quotes := ['\'', '"']
  front? := fun _ => front?
  quote_not_blank := by simp [blanks]
  quote_ne_bracket := by simp

/-- The strings of a list. -/
def read? (text : String) : Option (List String) :=
  dialect.read? text

end LineTokens.Literal

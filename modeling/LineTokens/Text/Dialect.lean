/-!
Reading lists of strings. The dialects in which such lists are written have
brackets, commas and blanks in common. They differ in the quotes around a string
and in how a character is spelled between them.
-/

namespace LineTokens

/-- A character in front of a text, and how many characters belong to its
spelling behind the first one. -/
structure Spelled where
  char : Char
  tail : Nat
  deriving DecidableEq, Repr

/-- A string in front of a text, and the text behind its closing quote. -/
structure Quoted where
  content : List Char
  rest : List Char
  deriving DecidableEq, Repr

/-- The characters that may stand between the parts of a list. -/
def blanks : List Char := [' ', '\t', '\n', '\r']

/-- `front? quote first rest` is the character that `first` and `rest` begin
with, in a string between these quotes. -/
structure Dialect where
  quotes : List Char
  front? : Char → Char → List Char → Option Spelled
  quote_not_blank : ∀ quote ∈ quotes, quote ∉ blanks
  quote_ne_bracket : ∀ quote ∈ quotes, quote ≠ ']'

namespace Dialect

def skipBlanks (text : List Char) : List Char :=
  text.dropWhile (· ∈ blanks)

variable (d : Dialect)

/-- Reads a string from behind its opening quote up to the closing one. -/
def content? (quote : Char) : List Char → Option Quoted
  | [] => none
  | first :: rest =>
    if first = quote then some ⟨[], rest⟩
    else
      match d.front? quote first rest with
      | none => none
      | some s =>
        (content? quote (rest.drop s.tail)).map fun q => { q with content := s.char :: q.content }
termination_by text => text.length
decreasing_by
  simp only [List.length_drop, List.length_cons]
  omega

/-- Reads a string with its quotes. -/
def string? : List Char → Option Quoted
  | [] => none
  | first :: rest => if first ∈ d.quotes then d.content? first rest else none

theorem length_rest_lt_of_content? {quote : Char} {text : List Char} {q : Quoted}
    (h : d.content? quote text = some q) : q.rest.length < text.length := by
  fun_induction d.content? quote text generalizing q with
  | case1 | case3 => cases h
  | case2 rest =>
    obtain rfl := Option.some.inj h
    exact Nat.lt_succ_self _
  | case4 first rest _ s _ ih =>
    obtain ⟨q', hq', rfl⟩ := Option.map_eq_some_iff.mp h
    have hlength := ih hq'
    simp only [List.length_drop, List.length_cons] at hlength ⊢
    omega

theorem length_rest_lt_of_string? {text : List Char} {q : Quoted}
    (h : d.string? text = some q) : q.rest.length < text.length := by
  cases text with
  | nil => cases h
  | cons first rest =>
    rw [string?] at h
    split at h
    · have hlength := d.length_rest_lt_of_content? h
      exact Nat.lt_succ_of_lt hlength
    · cases h

theorem length_skipBlanks_le (text : List Char) : (skipBlanks text).length ≤ text.length :=
  (List.dropWhile_suffix _).length_le

/-- Reads the strings of a list, the first of which stands in front, up to the
closing bracket. Nothing but blanks may stand behind it. -/
def items? (text : List Char) : Option (List String) :=
  match _hstring : d.string? text with
  | none => none
  | some q =>
    match _hrest : skipBlanks q.rest with
    | ',' :: rest => (items? (skipBlanks rest)).map (String.ofList q.content :: ·)
    | ']' :: rest => if skipBlanks rest = [] then some [String.ofList q.content] else none
    | _ => none
termination_by text.length
decreasing_by
  have hlt := d.length_rest_lt_of_string? _hstring
  have hle := length_skipBlanks_le q.rest
  have hle' := length_skipBlanks_le rest
  rw [_hrest, List.length_cons] at hle
  omega

/-- Reads a list of strings. -/
def read? (text : String) : Option (List String) :=
  match skipBlanks text.toList with
  | '[' :: rest =>
    match skipBlanks rest with
    | ']' :: rest => if skipBlanks rest = [] then some [] else none
    | items => d.items? items
  | _ => none

end Dialect

end LineTokens

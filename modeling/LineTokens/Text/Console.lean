/-!
Texts on a console. How a console shows a text is its own affair: it may leave
out characters that would move the cursor, and tabs become spaces. The program
relies on no more than that each text is shown by itself and ended by a newline.
-/

namespace LineTokens

/-- A console, by what it shows of a text. -/
structure Console where
  shown : String → String

namespace Console

/-- What is written when a text is printed. -/
def print (console : Console) (text : String) : String :=
  console.shown text ++ "\n"

/-! ### A plain console -/

/-- The characters left out: bell, backspace, vertical tab, form feed and
carriage return. -/
def stripped : List Char :=
  ['\x07', '\x08', '\x0b', '\x0c', '\r']

/-- Tab stops stand this many columns apart. -/
def tabWidth : Nat := 8

/-- Replaces each tab by the spaces up to the next tab stop, from a column
on. A newline goes back to column 0; every other character is one wide. -/
def expandTabs (column : Nat) : List Char → List Char
  | [] => []
  | c :: rest =>
    if c = '\t' then
      let gap := tabWidth - column % tabWidth
      List.replicate gap ' ' ++ expandTabs (column + gap) rest
    else if c = '\n' then c :: expandTabs 0 rest
    else c :: expandTabs (column + 1) rest

/-- A console on which every character is one column wide. It neither wraps nor
crops, so it shows all else as it is. -/
def plain : Console where
  shown text := String.ofList (expandTabs 0 (text.toList.filter (· ∉ stripped)))

end Console

end LineTokens

/-!
The flags of the command line. Each has a short spelling, one dash and a
letter, and a long one, two dashes and a word.
-/

namespace LineTokens

inductive Flag where
  | help
  | format
  deriving DecidableEq, Repr

namespace Flag

def letter : Flag → Char
  | help => 'h'
  | format => 'f'

/-- The long spelling. -/
def long : Flag → String
  | help => "--help"
  | format => "--format"

/-- The short spelling. -/
def short (f : Flag) : String :=
  String.ofList ['-', f.letter]

/-- Both spellings, as error texts name the flag. -/
def title (f : Flag) : String :=
  f.short ++ "/" ++ f.long

end Flag

end LineTokens

import LineTokens.Fault

/-!
The scanner that splits a line into tokens. Spaces separate tokens, double
quotes group characters (and make a token even when they group none), and a
backslash takes the unit after it literally, inside quotes and outside.

The scanner reads units. A unit is any string; only the three one-character
units below have a meaning of their own, so a longer unit is literal text even
when it contains spaces, quotes or backslashes. Scanning a line feeds its
characters one by one.
-/

namespace LineTokens

/-- Where in the syntax of a line the scanner stands. -/
inductive Mode where
  | plain
  | quoted
  | escaped
  | quotedEscaped
  deriving DecidableEq, Repr

/-- What is wrong with a line that ends in this mode. -/
def Mode.fault? : Mode → Option Fault
  | .plain => none
  | .quoted => some .unmatchedQuote
  | .escaped | .quotedEscaped => some .incompleteEscape

/-- The part that a unit plays, outside escapes. -/
inductive Symbol where
  | space
  | quote
  | backslash
  | text
  deriving DecidableEq, Repr

namespace Symbol

def ofUnit (unit : String) : Symbol :=
  if unit = " " then space
  else if unit = "\"" then quote
  else if unit = "\\" then backslash
  else text

/-- The units with a meaning of their own. -/
def special : List String := [" ", "\"", "\\"]

theorem ofUnit_eq_text_iff {unit : String} : ofUnit unit = text ↔ unit ∉ special := by
  unfold ofUnit special
  split
  · simp_all
  · split
    · simp_all
    · split <;> simp_all

end Symbol

/-- A scan in progress. `pieces` are the literal units of the token under
way, not yet joined; `pending` says that a token is under way, which an open
or empty pair of quotes makes true without any piece. -/
structure Scanner where
  line : String
  mode : Mode
  tokens : Array String
  pieces : Array String
  pending : Bool
  deriving DecidableEq, Repr

namespace Scanner

/-- A scan of `line` that has read nothing. -/
def start (line : String) : Scanner where
  line := line
  mode := .plain
  tokens := #[]
  pieces := #[]
  pending := false

/-- Adds a literal unit to the token under way. -/
def append (s : Scanner) (unit : String) : Scanner :=
  { s with pieces := s.pieces.push unit, pending := true }

/-- Ends the token under way, if there is one. -/
def flush (s : Scanner) : Scanner :=
  if s.pending then
    { s with
      tokens := s.tokens.push (String.join s.pieces.toList)
      pieces := #[]
      pending := false }
  else s

/-- Reads one unit. -/
def feed (s : Scanner) (unit : String) : Scanner :=
  match s.mode, Symbol.ofUnit unit with
  | .plain, .space => s.flush
  | .plain, .quote => { s with mode := .quoted, pending := true }
  | .plain, .backslash => { s with mode := .escaped }
  | .plain, .text => s.append unit
  | .quoted, .quote => { s with mode := .plain }
  | .quoted, .backslash => { s with mode := .quotedEscaped }
  | .quoted, _ => s.append unit
  | .escaped, _ => { s.append unit with mode := .plain }
  | .quotedEscaped, _ => { s.append unit with mode := .quoted }

/-- Reads characters one by one, each as a unit. -/
def feedChars (s : Scanner) (chars : List Char) : Scanner :=
  chars.foldl (fun s c => s.feed (String.singleton c)) s

@[simp] theorem feedChars_nil (s : Scanner) : s.feedChars [] = s := rfl

@[simp] theorem feedChars_cons (s : Scanner) (c : Char) (l : List Char) :
    s.feedChars (c :: l) = (s.feed (String.singleton c)).feedChars l := rfl

theorem feedChars_append (s : Scanner) (l l' : List Char) :
    s.feedChars (l ++ l') = (s.feedChars l).feedChars l' := by
  simp [feedChars]

/-- Closes the scan and gives all tokens so far. A scan that stands inside
quotes or right after a backslash is refused and left as it was. -/
def finish (s : Scanner) : Scanner × Except Rejection (List String) :=
  match s.mode.fault? with
  | some fault => (s, .error { fault, line := s.line })
  | none => (s.flush, .ok s.flush.tokens.toList)

/-- Reads the whole line from where the scan stands, and closes the scan. -/
def run (s : Scanner) : Scanner × Except Rejection (List String) :=
  (s.feedChars s.line.toList).finish

/-- What can be asked of a scanner. -/
inductive Step where
  | feed (unit : String)
  | finish
  | run
  deriving DecidableEq, Repr

/-- The scanner after a step, and the answer of a step that gives one. -/
def step (s : Scanner) : Step → Scanner × Option (Except Rejection (List String))
  | .feed unit => (s.feed unit, none)
  | .finish => (s.finish.1, some s.finish.2)
  | .run => (s.run.1, some s.run.2)

end Scanner

/-- The tokens of a line, or the reason why it has none. -/
def tokenize (line : String) : Except Rejection (List String) :=
  (Scanner.start line).run.2

end LineTokens

/-!
What can be wrong with a line, and the rejection that reports it. Only an
open quote and a dangling backslash make a line unreadable: every other
sequence of characters has tokens.
-/

namespace LineTokens

/-- Ways in which a line can be unreadable. The first one is the general
case, of which the other two are instances. -/
inductive Fault where
  | malformed
  | unmatchedQuote
  | incompleteEscape
  deriving DecidableEq, Repr

namespace Fault

/-- The text that names the fault to a user. -/
def message : Fault → String
  | malformed => "malformed line"
  | unmatchedQuote => "Unmatched quote"
  | incompleteEscape => "incomplete escape sequence"

/-- The fault and the more general faults it is an instance of, most
specific first. -/
def lineage : Fault → List Fault
  | malformed => [malformed]
  | fault => [fault, malformed]

end Fault

/-- The refusal of one line. It keeps the whole line, so that a report can
show it. -/
structure Rejection where
  fault : Fault
  line : String
  deriving DecidableEq, Repr

end LineTokens

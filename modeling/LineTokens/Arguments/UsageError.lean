import LineTokens.Arguments.Subcommand
import LineTokens.Format
import LineTokens.Text.Literal

/-!
What can be wrong with a command line, and how it is reported.
-/

namespace LineTokens

/-- A problem with the arguments of one signature. -/
inductive Problem where
  | ambiguous (argument : String) (candidates : List Flag)
  | ignoredValue (flag : Flag) (value : String)
  | missingValue (flag : Flag)
  | unknownFormat (value : String)
  | unknownCommand (value : String)
  | unrecognized (arguments : List String)
  deriving DecidableEq, Repr

namespace Problem

/-- Says that a value is none of the names on offer. -/
def invalidChoice (value : String) (names : List String) : String :=
  "invalid choice: " ++ Literal.ofString value ++
    " (choose from " ++ ", ".intercalate (names.map Literal.ofString) ++ ")"

def message : Problem → String
  | ambiguous argument candidates =>
    "ambiguous option: " ++ argument ++ " could match " ++
      ", ".intercalate (candidates.map Flag.long)
  | ignoredValue flag value =>
    "argument " ++ flag.title ++ ": ignored explicit argument " ++ Literal.ofString value
  | missingValue flag => "argument " ++ flag.title ++ ": expected one argument"
  | unknownFormat value =>
    "argument " ++ Flag.format.title ++ ": " ++ invalidChoice value (Format.all.map Format.name)
  | unknownCommand value =>
    "argument command: " ++ invalidChoice value (Subcommand.all.map Subcommand.name)
  | unrecognized arguments => "unrecognized arguments: " ++ " ".intercalate arguments

end Problem

/-- A problem and the signature that the arguments fail to meet. -/
structure UsageError where
  signature : Signature
  problem : Problem
  deriving DecidableEq, Repr

/-- The usage of the signature, and then the problem. -/
def UsageError.report (e : UsageError) : String :=
  e.signature.usage ++ "\n" ++
    e.signature.program ++ ": error: " ++ e.problem.message ++ "\n"

end LineTokens

import LineTokens.Scanner
import LineTokens.Format
import LineTokens.Text.Console
import LineTokens.Text.Json
import LineTokens.Text.Literal
import LineTokens.Command.Outcome

/-!
The command that splits one line, given or read from standard input, and
reports its tokens.
-/

namespace LineTokens

/-- The report on the tokens of a line. Only the list format goes through the
console. -/
def report (console : Console) (format : Format) (line : String) (tokens : List String) : String :=
  match format with
  | .json => Json.ofList tokens ++ "\n"
  | .lines => String.join (tokens.map (· ++ "\n"))
  | .list =>
    console.print ("INPUT:  (" ++ line ++ ")") ++
      console.print ("RESULT: " ++ Literal.ofList tokens)

/-- The report on a line that was refused. -/
def Rejection.report (console : Console) (r : Rejection) : String :=
  console.print ("Error: " ++ r.fault.message ++ ": (" ++ r.line ++ ")")

/-- Splits a given line. -/
def splitLine (console : Console) (format : Format) (line : String) : Outcome :=
  match tokenize line with
  | .ok tokens => .success (report console format line tokens)
  | .error rejection => .failure 1 (rejection.report console)

/-- Splits a line, or the first line of standard input if none is given. -/
def split (console : Console) (line? : Option String) (format : Format) (input : StandardInput) :
    Outcome :=
  match line? with
  | some line => splitLine console format line
  | none =>
    match input.readLine with
    | .ok line => splitLine console format line
    | .error failure => ⟨"", "", .failed failure⟩

end LineTokens

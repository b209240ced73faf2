import LineTokens.Arguments.Invocation
import LineTokens.Command.Demo
import LineTokens.Command.Usage

/-!
From the command line to the outcome. What to do is settled by the arguments
alone; standard input is read only by a split without a line.
-/

namespace LineTokens

/-- What the program does in one run. -/
inductive Action where
  | usage
  | version
  | demo
  | split (line : Option String) (format : Format)
  deriving DecidableEq, Repr

/-- Help wins over every command, and a missing command asks for help. -/
def Invocation.action (i : Invocation) : Action :=
  if i.help then .usage
  else match i.command with
  | none | some .help => .usage
  | some .version => .version
  | some .demo => .demo
  | some .split => .split i.line i.format

namespace Action

/-- The action that a command line asks for. -/
def ofArguments (arguments : List String) : Except UsageError Action :=
  (Invocation.ofArguments arguments).map Invocation.action

def perform (console : Console) (input : StandardInput) : Action → Outcome
  | usage => .success usageText
  | version => .success (versionNumber ++ "\n")
  | demo => LineTokens.demo console sampleLines
  | split line format => LineTokens.split console line format input

end Action

/-- The outcome of a command line. A failure to read is left to the caller. -/
def runCommand (console : Console) (arguments : List String) (input : StandardInput) : Outcome :=
  match Action.ofArguments arguments with
  | .ok action => action.perform console input
  | .error e => .failure 2 e.report

/-- The outcome of the whole program, which handles every failure. It goes by the
name under which it is installed, however it is started. -/
def runProgram (console : Console) (arguments : List String) (input : StandardInput) : Outcome :=
  (runCommand console arguments input).guarded

end LineTokens

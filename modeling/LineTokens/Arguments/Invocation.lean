import LineTokens.Arguments.Reading

/-!
What a whole command line asks for. The arguments of the program come first;
the command's own arguments are read by the signature of the command, and
arguments that neither takes are refused together at the end.
-/

namespace LineTokens

structure Invocation where
  help : Bool
  command : Option Subcommand
  line : Option String
  format : Format
  deriving DecidableEq, Repr

namespace Invocation

/-- Refuses the extras, if there are any. -/
def conclude (extras : List String) (invocation : Invocation) : Except UsageError Invocation :=
  if extras = [] then .ok invocation
  else .error ⟨.top, .unrecognized extras⟩

/-- Reads a command line. A help flag of the command replaces that of the
program even when it is not set, so help in front of a command is heard only
by the commands that have no such flag. -/
def ofArguments (arguments : List String) : Except UsageError Invocation := do
  let outer ← Signature.top.read arguments
  match outer.command with
  | none => conclude outer.extras ⟨outer.help, none, outer.line, outer.format⟩
  | some (name, rest) =>
    match Subcommand.ofName? name with
    | none => .error ⟨.top, .unknownCommand name⟩
    | some command =>
      let inner ← command.signature.read rest
      let help := if Flag.help ∈ command.signature.flags then inner.help else outer.help
      conclude (outer.extras ++ inner.extras) ⟨help, some command, inner.line, inner.format⟩

end Invocation

end LineTokens
